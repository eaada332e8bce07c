/-
  From an analysed statement to its plan. The operators are stacked from the sources up: join,
  filter, aggregate, filter of the groups, projection, limit, sink. Each step checks the types it
  relies on.

  This is `build_plan` of the planner's `LogicalPlanner`, with `build_join`, `build_aggregate`,
  `check_group_by_covariance`, `build_project` and `build_sink`.
-/
import StreamSql.Expr.Simplify
import StreamSql.Plan.Basic
import StreamSql.Typing

namespace StreamSql

/-- What plans are built with. -/
structure Planner where
  catalog : Catalog
  functions : Registry
  config : Config
  deriving Inhabited

namespace Planner

def typing (p : Planner) : Typing :=
  ⟨p.functions, p.config.maxDepth⟩

/-- The expression calls an aggregate function. -/
def aggregates (p : Planner) (e : Expr) : Except Error Bool := do
  return !(← Aggregation.scan p.functions p.config e).isEmpty

/-- The expression as the plan evaluates it. -/
def fold (p : Planner) (e : Expr) : Except Error Expr :=
  if p.config.foldConstants then e.simplify p.config.maxDepth else .ok e

def sourcePlan (s : Source) : Plan :=
  .source s.name s.aliasName s.schema

/-! ## Sources -/

/-- The two sides of an equality of columns. -/
def keys (criteria : Expr) : Except Error (Expr × Expr) :=
  match criteria with
  | .compare _ a .eq b =>
    if a.column?.isSome && b.column?.isSome then .ok (a, b)
    else .error (.unsupportedJoin (.keyForm criteria))
  | _ => .error (.unsupportedJoin (.criteriaForm criteria))

/-- The place of a key among the columns of both sides. -/
def keyPlace (schema : Schema) (key : Expr) : Except Error Nat :=
  match key with
  | .column l c => do return (← schema.resolve c (l.getD .unknown)).2
  | _ => .error (.unsupportedJoin (.keyForm key))

/-- The join of two sources on a column of each. -/
def joinPlan (p : Planner) (j : JoinInfo) (left right : Source) : Except Error Plan := do
  let schema := left.schema.join right.schema
  let (a, b) ← keys j.criteria
  let width := left.schema.width
  let ia ← keyPlace schema a
  let ib ← keyPlace schema b
  let (leftKey, rightKey) ←
    if ia < width ∧ width ≤ ib then pure (a, b)
    else if width ≤ ia ∧ ib < width then pure (b, a)
    else throw (.unsupportedJoin (.sameSide j.criteria))
  let lt ← p.typing.infer schema leftKey
  let rt ← p.typing.infer schema rightKey
  if !lt.matchesForEquality rt then throw (.planning (.joinKeyTypes leftKey lt rightKey rt))
  return .join j.type leftKey rightKey (sourcePlan left) (sourcePlan right) schema

/-- The plan that reads the sources of a statement. -/
def sources (p : Planner) (s : Analysis) : Except Error Plan :=
  match s.sources, s.join with
  | [one], none => .ok (sourcePlan one)
  | [left, right], some j => p.joinPlan j left right
  | many, _ => .error (.planning (.sourceCount many.length))

/-! ## Rows and groups -/

/-- The rows for which the condition of the statement holds. -/
def filtered (p : Planner) (s : Analysis) (input : Plan) : Except Error Plan :=
  match s.filter with
  | none => .ok input
  | some e => do
    if ← p.aggregates e then throw (.planning (.aggregateInFilter e))
    p.typing.checkPredicate input.schema "WHERE" e
    return .filter (← p.fold e) input input.schema

/-- The places of the columns that are grouping keys by themselves. -/
def keyColumns (schema : Schema) (groupBy : List Expr) : Except Error (List Nat) := do
  let places ← groupBy.mapM fun key =>
    match key with
    | .column l c => do return some (← schema.resolve c (l.getD .unknown)).2
    | _ => return none
  return places.filterMap id

/-- Refuse a column of the input that is no grouping key. -/
def checkColumn (a : Aggregation) (schema : Schema) (places : List Nat) (column : ColumnRef × Location) :
    Except Error Unit :=
  let (c, l) := column
  if c.qualifier.isNone && a.isColumn c.name then .ok ()
  else do
    let (_, i) ← schema.resolve c l
    if i ∈ places then return else throw (.notGrouped c.text l)

/-- Refuse an expression that reads a column of the input that is no grouping key. An expression
    that is a key as a whole may read any column. -/
def checkGrouped (p : Planner) (a : Aggregation) (schema : Schema) (groupBy : List Expr)
    (places : List Nat) (e : Expr) : Except Error Unit :=
  if groupBy.any (·.same e) then .ok ()
  else do
    (← e.columns p.config.maxDepth).forM (checkColumn a schema places)

/-- The groups of the statement with the results of its aggregate calls. -/
def grouped (p : Planner) (s : Analysis) (a : Aggregation) (input : Plan) : Except Error Plan := do
  let schema := input.schema
  s.groupBy.forM fun key => do
    if ← p.aggregates key then throw (.planning (.aggregateInGroupBy key))
    discard (p.typing.infer schema key)
  let places ← keyColumns schema s.groupBy
  (a.final ++ a.having.toList).forM (p.checkGrouped a schema s.groupBy places)
  let results ← a.calls.mapM fun c => do
    return (⟨none, c.column, ← p.typing.infer schema c.call⟩ : Field)
  return .aggregate s.groupBy a.calls s.window input ⟨schema.fields ++ results⟩

/-- The groups for which the condition on groups holds. -/
def havingFiltered (p : Planner) (a : Aggregation) (input : Plan) : Except Error Plan :=
  match a.having with
  | none => .ok input
  | some e => do
    p.typing.checkPredicate input.schema "HAVING" e
    return .filter e input input.schema

/-! ## Results -/

/-- The columns of the result. -/
def projected (p : Planner) (exprs : List Expr) (names : List String) (input : Plan) :
    Except Error Plan := do
  if exprs.length ≠ names.length then
    throw (.planning (.selectWidth exprs.length names.length))
  let columns ← (exprs.zip names).mapM fun (e, n) => do
    let t ← p.typing.infer input.schema e
    return ((← p.fold e, n), (⟨none, n, t⟩ : Field))
  return .project (columns.map (·.1)) input ⟨columns.map (·.2)⟩

def limited (s : Analysis) (input : Plan) : Plan :=
  match s.limit with
  | none => input
  | some n => .limit n input input.schema

/-- Refuse a result that does not fit the columns of the relation it is written into. -/
def checkInsert (name : String) (produced : Schema) (target : List Column) : Except Error Unit := do
  if produced.width ≠ target.length then
    throw (.planning (.insertWidth produced.width name target.length))
  (produced.fields.zip target).forM fun (f, c) =>
    if f.type.storableAs c.type then .ok ()
    else .error (.planning (.insertType c.name f.type c.type))

/-- The result written to where it goes. -/
def sunk (p : Planner) (s : Analysis) (input : Plan) : Except Error Plan :=
  match s.sink with
  | none => .ok input
  | some (.create kind name ps) => .ok (.sink name kind true ps input input.schema)
  | some (.insert name) =>
    match p.catalog.lookup name with
    | none => .error (.unknownRelation name .unknown)
    | some target => do
      checkInsert name input.schema target
      return .sink name .stream false [] input (.ofRelation name target)

/-- The plan of an analysed statement. -/
def build (p : Planner) (s : Analysis) (a : Aggregation) : Except Error Plan := do
  let rows ← p.filtered s (← p.sources s)
  if a.hasAggregates || !s.groupBy.isEmpty then
    let groups ← p.havingFiltered a (← p.grouped s a rows)
    p.sunk s (limited s (← p.projected a.final s.names groups))
  else
    if s.having.isSome then throw (.planning .havingWithoutGroups)
    if let some w := s.window then throw (.planning (.windowWithoutGroups w))
    p.sunk s (limited s (← p.projected s.exprs s.names rows))

end Planner

end StreamSql
