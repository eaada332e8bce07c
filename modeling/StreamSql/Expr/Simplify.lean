/-
  Simplification: operators whose operands are constants give way to their value, branches of a
  case that cannot be taken are dropped, and `NULLIF` becomes the case it stands for. What depends
  on a column or a function call stays as it is written. This is the planner's `simplify` with
  `desugar_nullif`, `fold_node`, `fold_logical` and `fold_searched_case`.
-/
import StreamSql.Expr.Fold
import StreamSql.Expr.Traverse

namespace StreamSql.Expr

/-- `NULLIF(first, second)` as `CASE WHEN first = second THEN NULL ELSE first END`. -/
def nullIfCase (first second : Expr) : Expr :=
  searchedCase [(compare none first .eq second, null)] (some first)

/-- A `NULLIF` as the case it stands for, at its position; any other node as it is. -/
def expand : Expr → Expr
  | nullIf l a b => (nullIfCase a b).withLoc l
  | e => e

/-- A connective one of whose sides decides it. `decisive` is the value that settles it alone:
    false for AND, true for OR. -/
def foldLogic (op : LogicOp) (a b : Expr) : Option Expr :=
  let decisive := match op with
    | .and => false
    | .or => true
  let bool? := fun e => match literal? e with
    | some (.boolean v) => some v
    | _ => none
  if bool? a = some decisive ∨ bool? b = some decisive then some (lit (.boolean decisive))
  else if (bool? a).isSome then some b
  else if (bool? b).isSome then some a
  else match literal? a, literal? b with
    | some .null, some .null => some null
    | _, _ => none

/-- A branch is never taken: its condition is the constant false or NULL. -/
def neverTaken (branch : Expr × Expr) : Bool :=
  match literal? branch.1 with
  | some (.boolean false) | some .null => true
  | _ => false

/-- A case without the branches that are never taken. If a constant true comes first among the
    others, its result is the value of the case; if none is left, the value is the one after ELSE.
    -/
def foldCase (branches : List (Expr × Expr)) (otherwise : Option Expr) : Option Expr :=
  let kept := branches.filter fun b => !neverTaken b
  match kept with
  | [] => some (otherwise.getD null)
  | (w, t) :: _ =>
    match literal? w with
    | some (.boolean true) => some t
    | _ => if kept.length < branches.length then some (searchedCase kept otherwise) else none

/-- The value that a node with simplified parts gives way to, if any. -/
def folded? : Expr → Option Expr
  | unary _ op e => do return lit (← Literal.unary op (← literal? e))
  | arith _ a op b => do return lit (← Literal.arith op (← literal? a) (← literal? b))
  | compare _ a op b => do return lit (← Literal.compare op (← literal? a) (← literal? b))
  | logic _ a op b => foldLogic op a b
  | case _ none bs e => foldCase bs e
  | isNull _ e n => do return lit (.boolean ((← literal? e).isNull != n))
  | _ => none

/-- A node with simplified parts. What replaces a node takes its position. -/
def fold (e : Expr) : Expr :=
  match folded? e with
  | some r => r.withLoc e.loc?
  | none => e

/-- Simplify with so many levels left of `limit`. -/
def simplifyWithin (limit : Nat) : Nat → Expr → Except Error Expr
  | 0, _ => .error (.tooDeep limit)
  | n + 1, e => do return fold (← (expand e).mapChildren (simplifyWithin limit n))

/-- Simplify an expression down to a depth of `limit`. -/
def simplify (limit : Nat) (e : Expr) : Except Error Expr :=
  simplifyWithin limit limit e

end StreamSql.Expr
