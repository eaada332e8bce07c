/-
  From the tree of a query to a statement of the planner: `parse_statements` and `convert_statement`
  of the planner's front end, with `query`, `relation`, `table_ref`, `expr` and `function_arg` of its
  `Converter`. Every node takes one of the levels that are left for nesting. A name is given the
  position of the word that it was read from (`Locator`): names are looked up in the order in which a
  query is written, and the n-th time a name is looked up it is the n-th word spelled so.
-/
import StreamSql.Script.Basic

namespace StreamSql.Script

open Grammar (Term Ident)

/-! ## Positions of names -/

/-- The words of a query in lower case with their positions, and the names in lower case that have
    been looked up. -/
structure Lookup where
  words : List (String × Location)
  seen : List String := []
  deriving Inhabited

/-- Nothing has been looked up yet. -/
def Lookup.start (words : List Word) : Lookup :=
  ⟨words.map fun w => (Text.lower w.value, w.location), []⟩

/-- The position of the next word that spells the name in lower case; the last such word stands
    for all further ones. -/
def Lookup.next? (l : Lookup) (key : String) : Option Location :=
  let spelled := l.words.filter (·.1 == key)
  (spelled[l.seen.count key]?.or spelled.getLast?).map Prod.snd

/-- A computation that looks up names. -/
abbrev Reading := StateT Lookup (Except Error)

def fail {α : Type} (e : Error) : Reading α :=
  throw e

def unsupported {α : Type} (f : Feature) : Reading α :=
  throw (.unsupported f)

/-- The position of a name. A name that no word spells is not counted. -/
def locate (name : String) : Reading (Option Location) := do
  let l ← get
  let key := Text.lower name
  match l.next? key with
  | some place =>
    set { l with seen := key :: l.seen }
    return some place
  | none => return none

/-! ## Constants -/

/-- A whole number with its sign, if it has at most 64 bits. -/
def integer? (negative : Bool) (digits : String) : Option Int :=
  let n : Int := Double.digitsValue digits.toList
  let i := if negative then -n else n
  if digits.toList.all Char.isDigit && !digits.toList.isEmpty && Int64.minValue.toInt ≤ i &&
      i ≤ Int64.maxValue.toInt then
    some i
  else none

/-- The constant that the digits of a number stand for. -/
def numberLiteral (negative : Bool) (digits : String) : Except Error Literal :=
  let text := if negative then "-" ++ digits else digits
  if digits.toList.any fun c => c = '.' || c = 'e' || c = 'E' then
    match Double.ofText? text with
    | some d => .ok (.double d)
    | none => .error (.parse (.badNumber text))
  else
    match integer? negative digits with
    | some i =>
        .ok (if Int32.minValue.toInt ≤ i && i ≤ Int32.maxValue.toInt then .integer (Int32.ofInt i)
          else .bigint (Int64.ofInt i))
    | none => .error (.parse (.badNumber text))

/-- The constant of the planner that a constant of the query is. -/
def literal : Grammar.Value → Except Error Literal
  | .number digits _ => numberLiteral false digits
  | .string s => .ok (.string s)
  | .boolean b => .ok (.boolean b)
  | .null => .ok .null
  | v@(.other _ _) => .error (.unsupported (.literal v.text))

/-! ## Expressions -/

/-- How the planner sees an operator between two operands. -/
inductive InfixForm where
  | arith (op : ArithOp)
  | compare (op : CompareOp)
  | logic (op : LogicOp)
  | concat

def infixForm : Grammar.InfixOp → Except Error InfixForm
  | .plus => .ok (.arith .add)
  | .minus => .ok (.arith .subtract)
  | .multiply => .ok (.arith .multiply)
  | .divide => .ok (.arith .divide)
  | .modulo => .ok (.arith .modulo)
  | .eq => .ok (.compare .eq)
  | .ne => .ok (.compare .ne)
  | .lt => .ok (.compare .lt)
  | .le => .ok (.compare .le)
  | .gt => .ok (.compare .gt)
  | .ge => .ok (.compare .ge)
  | .and => .ok (.logic .and)
  | .or => .ok (.logic .or)
  | .concat => .ok .concat
  | op@(.other _ _) => .error (.unsupported (.binaryOperator op.text))

/-- The operator with its operands. -/
def InfixForm.expr (left right : Expr) : InfixForm → Expr
  | .arith op => .arith none left op right
  | .compare op => .compare none left op right
  | .logic op => .logic none left op right
  | .concat => .call none "CONCAT" [left, right] false

/-- A call from its name and its arguments. NULLIF is a form of its own. -/
def callExpr (loc : Option Location) (name : String) (args : List Expr) (distinct : Bool) :
    Except Error Expr :=
  if name = "NULLIF" then
    match args with
    | [a, b] => .ok (.nullIf loc a b)
    | _ => .error (.planning (.nullIfArguments args.length))
  else .ok (.call loc name args distinct)

mutual

/-- The expression that a term is. `limit` is the depth that the error names, `n` how many levels
    of it are left. -/
def expr (limit : Nat) : Nat → Term → Reading Expr
  | 0, _ => fail (.tooDeep limit)
  | n + 1, t =>
    match t with
    | .name i => do return .column (← locate i.value) ⟨none, i.value⟩
    | .path [q, c] => do return .column (← locate q.value) ⟨some q.value, c.value⟩
    | .path is => unsupported (.qualifierDepth (Grammar.pathValue is))
    | .value v => do return .literal none (← literal v)
    | .nested t => expr limit n t
    | .sign .minus (.value (.number digits _)) => do return .literal none (← numberLiteral true digits)
    | .sign .minus t => do return .unary none .minus (← expr limit n t)
    | .sign .plus t => do return .unary none .plus (← expr limit n t)
    | .sign .not t => do return .unary none .not (← expr limit n t)
    | .sign .factorial _ => unsupported (.unaryOperator Grammar.SignOp.factorial.text)
    | .binary l op r => do
      let form ← infixForm op
      let l ← expr limit n l
      let r ← expr limit n r
      return form.expr l r
    | .call fn args form => do
      if form.window.isSome then unsupported .overClause
      let raw := Grammar.pathValue fn
      let loc ← locate raw
      if form.subquery.isSome then unsupported .subqueryArgument
      let args ← argumentExprs limit n args
      callExpr loc (Text.upper raw) args (form.duplicates = some true)
    | .case o bs e => do
      let o ← optionExpr limit n o
      let bs ← branchExprs limit n bs
      let e ← optionExpr limit n e
      return .case none o bs e
    | .cast _ t type _ => do
      match DataType.ofSqlName? type.text with
      | some ty => return .cast none (← expr limit n t) ty
      | none => unsupported (.castType type.text)
    | .isNull t negated => do return .isNull none (← expr limit n t) negated
    | .between t lo hi negated => do
      let t ← expr limit n t
      let lo ← expr limit n lo
      let hi ← expr limit n hi
      return .between none t lo hi negated
    | .like t p negated _ _ => do
      let t ← expr limit n t
      let p ← expr limit n p
      return .like none t p negated
    | .inList t ts negated => do
      let t ← expr limit n t
      let ts ← exprs limit n ts
      return .inList none t ts negated
    | .star | .argument _ _ | .subquery _ | .other _ _ => unsupported (.expression t.text)

/-- The arguments of a call. -/
def argumentExprs (limit n : Nat) : List Term → Reading (List Expr)
  | [] => return []
  | t :: ts => do
    let e ← match t with
      | .star => pure (.wildcard none)
      | .argument _ _ => unsupported .argumentForm
      | t => expr limit n t
    return e :: (← argumentExprs limit n ts)

def exprs (limit n : Nat) : List Term → Reading (List Expr)
  | [] => return []
  | t :: ts => do
    let e ← expr limit n t
    return e :: (← exprs limit n ts)

def branchExprs (limit n : Nat) : List (Term × Term) → Reading (List (Expr × Expr))
  | [] => return []
  | (w, t) :: bs => do
    let w ← expr limit n w
    let t ← expr limit n t
    return (w, t) :: (← branchExprs limit n bs)

def optionExpr (limit n : Nat) : Option Term → Reading (Option Expr)
  | none => return none
  | some t => do return some (← expr limit n t)

end

/-! ## Queries -/

/-- An item of a select list. -/
def selectItem (limit : Nat) : Grammar.Item → Reading SelectItem
  | .expr t a => do return .expr (← expr limit limit t) (a.map Ident.value)
  | .all _ => return .all none none
  | .allOf p _ => do
    let q := Grammar.pathValue p
    return .all (some q) (← locate q)

def selectItems (limit : Nat) : List Grammar.Item → Reading (List SelectItem)
  | [] => return []
  | i :: is => do
    let i ← selectItem limit i
    return i :: (← selectItems limit is)

/-- A relation that has a plain name. -/
def tableRef (f : Grammar.Factor) : Reading TableRef :=
  match f.table with
  | some p => do
    let name := Grammar.pathValue p
    return { name, aliasName := f.aliasName.map (·.name.value), location := ← locate name }
  | none => unsupported .sourceForm

/-- The type of a join that the planner knows. -/
def joinType (j : Grammar.Join) : Except Error JoinType :=
  match j.kind with
  | .inner => .ok .inner
  | .left => .ok .left
  | .full => .ok .outer
  | _ => .error (.unsupportedJoin (.operator j.outline))

/-- One relation, or two that are joined. -/
def relation (limit : Nat) : List Grammar.Joined → Reading Relation
  | [s] => do
    let left ← tableRef s.factor
    match s.joins with
    | [] => return .table left
    | [j] => do
      let right ← tableRef j.factor
      let type ← joinType j
      match j.constraint with
      | .on t => return .join type left right (← expr limit limit t)
      | _ => fail (.unsupportedJoin .noCriteria)
    | _ => fail (.unsupportedJoin .several)
  | _ => unsupported .sourceList

/-- What rows are grouped by. -/
def groupKeys (limit : Nat) : Grammar.Grouping → Reading (List Expr)
  | .keys ts _ => exprs limit limit ts
  | .all _ => unsupported .groupByAll

/-- The number of rows that a query is limited to. -/
def limitValue : Term → Except Error Nat
  | .value (.number digits _) =>
    match WindowClause.amount? digits with
    | some n => .ok n
    | none => .error (.planning (.limitRange digits))
  | t => .error (.planning (.limitForm t.text))

/-- The query of the planner, without a window. -/
def queryOf (limit : Nat) (q : Grammar.Query) : Reading Query := do
  if q.ctes.isSome then unsupported .withClause
  if q.offset.isSome then unsupported .offset
  match q.body with
  | .other _ => unsupported .setOperation
  | .select s => do
    if s.distinct.isSome then unsupported .distinct
    let select ← selectItems limit s.items
    let source ← relation limit s.sources
    let filter ← optionExpr limit limit s.filter
    let groupBy ← groupKeys limit s.grouping
    let having ← optionExpr limit limit s.having
    let bound ← match q.limit with
      | some t => some <$> limitValue t
      | none => pure none
    return { select, source, filter, groupBy, having, limit := bound }

/-- The statement that the parts make. -/
def Entry.statement (limit : Nat) (e : Entry) : Except Error Statement := do
  let (q, _) ← (queryOf limit e.query).run (.start e.words)
  return e.envelope.statement { q with window := e.window }

/-- The statements of a script, ready to be planned. An error that arises after a statement was
    split into its parts names it. -/
def prepare (limit : Nat) (sql : String) : Except Error (List Prepared) := do
  let entries ← parse limit sql
  entries.mapM fun e =>
    match e.statement limit with
    | .ok s => .ok ⟨e.text, s⟩
    | .error err => .error (err.inStatement e.text)

end StreamSql.Script
