/-
  The aggregate calls of a query. Each call that the select list or HAVING makes is computed once,
  into a column of its own; two calls are the same if their canonical texts are. The expressions
  that remain read those columns instead.

  The planner's `AggregateAnalyzer` gives the `AggregateAnalysis` (`analyze`, `scan`,
  `add_aggregate_call`); its `AggregateExpressionRewriter` puts the columns in place of the calls.
-/
import StreamSql.Analysis
import StreamSql.Function

namespace StreamSql

/-- An aggregate call and the column that holds its result. -/
structure AggregateCall where
  call : Expr
  column : String
  deriving Inhabited

/-- The aggregate calls of a query. `plain` are the select expressions without one, `final` all of
    them with each call replaced by its column. -/
structure Aggregation where
  plain : List Expr := []
  calls : List AggregateCall := []
  final : List Expr := []
  having : Option Expr := none
  deriving Inhabited

namespace Aggregation

def hasAggregates (a : Aggregation) : Bool :=
  !a.calls.isEmpty

/-- The column that holds the result of a call. -/
def columnFor? (a : Aggregation) (call : Expr) : Option String :=
  (a.calls.find? fun c => c.call.text == call.text).map (·.column)

/-- The column holds the result of some call. -/
def isColumn (a : Aggregation) (name : String) : Bool :=
  a.calls.any fun c => Text.sameName c.column name

/-- Whether an expression calls an aggregate function. Every function has to be known. -/
def isCall (functions : Registry) : Expr → Except Error Bool
  | .call l name _ _ =>
    match functions.lookup name with
    | some s => .ok s.isAggregate
    | none => .error (.unknownFunction name (l.getD .unknown))
  | _ => .ok false

/-- The outermost aggregate calls with so many levels left of `limit`. -/
def scanWithin (functions : Registry) (limit : Nat) : Nat → Expr → Except Error (List Expr)
  | 0, _ => .error (.tooDeep limit)
  | n + 1, e => do
    if ← isCall functions e then return [e]
    else return (← e.children.mapM (scanWithin functions limit n)).flatten

/-- The outermost aggregate calls of an expression, in the order they are written. What stands
    inside a call belongs to it. -/
def scan (functions : Registry) (config : Config) (e : Expr) : Except Error (List Expr) :=
  scanWithin functions config.maxDepth config.maxDepth e

/-- Give a call a column unless it has one. -/
def add (config : Config) (a : Aggregation) (call : Expr) : Aggregation :=
  match a.columnFor? call with
  | some _ => a
  | none => { a with calls := a.calls ++ [⟨call, config.aggregateName a.calls.length⟩] }

/-- The column in place of an aggregate call, at its position. -/
def columnOf (functions : Registry) (a : Aggregation) (e : Expr) : Except Error (Option Expr) := do
  if ← isCall functions e then
    match a.columnFor? e with
    | some c => return some ((Expr.col c).withLoc e.loc?)
    | none => throw (.planning (.noAggregateColumn e))
  else return none

/-- An expression with each aggregate call replaced by its column. -/
def overColumns (functions : Registry) (config : Config) (a : Aggregation) (e : Expr) :
    Except Error Expr :=
  e.replace config.maxDepth (columnOf functions a)

/-- Take a select expression in. -/
def addSelect (functions : Registry) (config : Config) (a : Aggregation) (e : Expr) :
    Except Error Aggregation := do
  let calls ← scan functions config e
  let a := calls.foldl (add config) a
  let a := if calls.isEmpty then { a with plain := a.plain ++ [e] } else a
  let e ← a.overColumns functions config e
  return { a with final := a.final ++ [e] }

/-- Take the condition on groups in. -/
def addHaving (functions : Registry) (config : Config) (a : Aggregation) (e : Expr) :
    Except Error Aggregation := do
  let calls ← scan functions config e
  let a := calls.foldl (add config) a
  let e ← a.overColumns functions config e
  return { a with having := some e }

/-- The aggregate calls of an analysed statement. -/
def ofAnalysis (functions : Registry) (config : Config) (s : Analysis) :
    Except Error Aggregation := do
  let a ← s.exprs.foldlM (addSelect functions config) {}
  match s.having with
  | some h => a.addHaving functions config h
  | none => return a

end Aggregation

end StreamSql
