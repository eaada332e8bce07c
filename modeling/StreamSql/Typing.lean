/-
  The type of an expression over a schema: `infer` and `infer_predicate` of the planner's
  `TypeChecker`, with `arithmetic_type` and `coerce_case_result_type`. NULL goes with every type;
  numbers widen to the wider of two types; the branches of a case have to agree up to widening.
-/
import StreamSql.Expr.Traverse
import StreamSql.Function
import StreamSql.Schema

namespace StreamSql

namespace DataType

/-- The type of arithmetic on two types: strings give a string, numbers the wider type. -/
def arith? (l r : DataType) : Option DataType :=
  if l = .null ∧ r.isNumeric then some r
  else if r = .null ∧ l.isNumeric then some l
  else if l = .null ∧ r = .null then some .null
  else if l.isString && r.isString then some .utf8
  else wider? l r

/-- The common type of two branches of a case. -/
def unify (l r : DataType) : Except Error DataType :=
  if l = r then .ok l
  else if l.isString && r.isString then .ok .utf8
  else match wider? l r with
    | some t => .ok t
    | none => .error (.planning (.caseTypes l r))

/-- The type of a case from the types of its branches; NULL agrees with every type. -/
def caseType (types : List DataType) : Except Error DataType :=
  match types.filter (· ≠ .null) with
  | [] => .ok .null
  | t :: ts => ts.foldlM unify t

/-- Refuse two types whose values cannot be compared. -/
def checkComparable (l r : DataType) : Except Error Unit :=
  if l.comparable r then .ok () else .error (.planning (.notComparable l r))

/-- Refuse a type that is neither boolean nor NULL. -/
def checkBoolean (place : String) (t : DataType) : Except Error Unit :=
  if t = .boolean ∨ t = .null then .ok () else .error (.planning (.notBoolean place t))

/-- Refuse a side of LIKE that is neither a string nor NULL. -/
def checkLike (side : String) (t : DataType) : Except Error Unit :=
  if t.isString || t = .null then .ok () else .error (.planning (.notString side t))

end DataType

/-- What the type of an expression depends on. -/
structure Typing where
  functions : Registry
  limit : Nat
  deriving Inhabited

namespace Typing

open DataType

/-- The function of a call. -/
def signature (functions : Registry) (name : String) (l : Option Location) : Except Error Signature :=
  match functions.lookup name with
  | some s => .ok s
  | none => .error (.unknownFunction name (l.getD .unknown))

/-- The type of an expression with so many levels left. -/
def inferWithin (t : Typing) (schema : Schema) : Nat → Expr → Except Error DataType
  | 0, _ => .error (.tooDeep t.limit)
  | n + 1, e =>
    let infer := inferWithin t schema n
    match e with
    | .literal _ v => .ok v.dataType
    | .column l c => do
      let (f, _) ← schema.resolve c (l.getD .unknown)
      return f.type
    | .wildcard _ => .error (.planning .strayWildcard)
    | .call l name args _ => do
      let s ← signature t.functions name l
      let types ← args.mapM fun a =>
        if a.isWildcard then
          if s.wildcard && args.length = 1 then .ok .null
          else .error (.planning (.wildcardArgument name))
        else infer a
      s.checkString types
      s.resultType types
    | .unary _ op e => do
      let ty ← infer e
      match op with
      | .not => do
        checkBoolean "NOT" ty
        return .boolean
      | _ =>
        if ty = .null ∨ ty.isNumeric then return ty
        else throw (.planning (.unaryType op ty))
    | .arith _ a op b => do
      let l ← infer a
      let r ← infer b
      match arith? l r with
      | some ty => return ty
      | none => throw (.planning (.operandTypes op l r))
    | .compare _ a _ b => do
      let l ← infer a
      let r ← infer b
      checkComparable l r
      return .boolean
    | .logic _ a op b => do
      checkBoolean op.symbol (← infer a)
      checkBoolean op.symbol (← infer b)
      return .boolean
    | .nullIf _ a b => do
      let l ← infer a
      let r ← infer b
      checkComparable l r
      return l
    | .case _ operand branches otherwise => do
      let subject ← operand.mapM infer
      let results ← branches.mapM fun (w, r) => do
        let wt ← infer w
        match subject with
        | some st => checkComparable st wt
        | none => checkBoolean "CASE WHEN" wt
        infer r
      let last ← otherwise.mapM infer
      caseType (results ++ last.toList)
    | .cast _ e ty => do
      let _ ← infer e
      return ty
    | .isNull _ e _ => do
      let _ ← infer e
      return .boolean
    | .between _ e low high _ => do
      let ty ← infer e
      checkComparable ty (← infer low)
      checkComparable ty (← infer high)
      return .boolean
    | .like _ e p _ => do
      let value ← infer e
      let pattern ← infer p
      checkLike "value" value
      checkLike "pattern" pattern
      return .boolean
    | .inList _ e items _ => do
      let ty ← infer e
      items.forM fun i => do checkComparable ty (← infer i)
      return .boolean

/-- The type of an expression over the rows of a schema. -/
def infer (t : Typing) (schema : Schema) (e : Expr) : Except Error DataType :=
  inferWithin t schema t.limit e

/-- Refuse an expression that is not a condition. -/
def checkPredicate (t : Typing) (schema : Schema) (clause : String) (e : Expr) :
    Except Error Unit := do
  let ty ← t.infer schema e
  if ty = .boolean ∨ ty = .null then return
  else throw (.planning (.predicateType clause ty e))

end Typing

end StreamSql
