/-
  Walks over expressions. Every walk has a limit on how deep it goes: the root is at depth one,
  and a node below the limit ends the walk with an error. The remaining depth is what the walks
  recurse on.

  `children`, `map_children`, `accept` and `rewrite_with` of the planner's `Expression` are here, and
  `collect_columns`, which is one of the walks.
-/
import StreamSql.Error

namespace StreamSql.Expr

/-- The direct parts of an expression in the order they are written. -/
def children : Expr → List Expr
  | literal _ _ | column _ _ | wildcard _ => []
  | call _ _ as _ => as
  | unary _ _ e | cast _ e _ | isNull _ e _ => [e]
  | arith _ a _ b | compare _ a _ b | logic _ a _ b | nullIf _ a b => [a, b]
  | case _ o bs e => o.toList ++ bs.flatMap (fun b => [b.1, b.2]) ++ e.toList
  | between _ e lo hi _ => [e, lo, hi]
  | like _ e p _ => [e, p]
  | inList _ e es _ => e :: es

/-- The same node with `f` applied to each of its parts, in the order they are written. -/
def mapChildren {m : Type → Type} [Monad m] (f : Expr → m Expr) : Expr → m Expr
  | literal l v => pure (literal l v)
  | column l c => pure (column l c)
  | wildcard l => pure (wildcard l)
  | call l n as d => do return call l n (← as.mapM f) d
  | unary l op e => do return unary l op (← f e)
  | arith l a op b => do
    let a ← f a
    let b ← f b
    return arith l a op b
  | compare l a op b => do
    let a ← f a
    let b ← f b
    return compare l a op b
  | logic l a op b => do
    let a ← f a
    let b ← f b
    return logic l a op b
  | nullIf l a b => do
    let a ← f a
    let b ← f b
    return nullIf l a b
  | case l o bs e => do
    let o ← o.mapM f
    let bs ← bs.mapM fun (w, t) => do
      let w ← f w
      let t ← f t
      return (w, t)
    let e ← e.mapM f
    return case l o bs e
  | cast l e t => do return cast l (← f e) t
  | isNull l e n => do return isNull l (← f e) n
  | between l e lo hi n => do
    let e ← f e
    let lo ← f lo
    let hi ← f hi
    return between l e lo hi n
  | like l e p n => do
    let e ← f e
    let p ← f p
    return like l e p n
  | inList l e es n => do
    let e ← f e
    let es ← es.mapM f
    return inList l e es n

/-! ## Visiting -/

/-- What to do at a node: `pre` before its parts are visited, with the answer whether to visit them,
    and `post` afterwards. -/
structure Visitor (m : Type → Type) where
  pre : Expr → m Bool
  post : Expr → m Unit

section Visit

variable {m : Type → Type} [Monad m] [MonadExceptOf Error m]

/-- Visit an expression with so many levels left of `limit`. -/
def visitWithin (limit : Nat) (v : Visitor m) : Nat → Expr → m Unit
  | 0, _ => throw (.tooDeep limit)
  | n + 1, e => do
    if ← v.pre e then
      e.children.forM (visitWithin limit v n)
    v.post e

/-- Visit an expression down to a depth of `limit`. -/
def visit (limit : Nat) (v : Visitor m) (e : Expr) : m Unit :=
  visitWithin limit v limit e

end Visit

/-! ## Replacing -/

/-- Replace within so many levels left of `limit`. -/
def replaceWithin (limit : Nat) (f : Expr → Except Error (Option Expr)) : Nat → Expr →
    Except Error Expr
  | 0, _ => .error (.tooDeep limit)
  | n + 1, e => do
    match ← f e with
    | some r => return r
    | none => e.mapChildren (replaceWithin limit f n)

/-- Replace every outermost node for which `f` has a replacement. What is put in is not searched
    again, and a node that stays keeps its position. -/
def replace (limit : Nat) (f : Expr → Except Error (Option Expr)) (e : Expr) : Except Error Expr :=
  replaceWithin limit f limit e

/-! ## Columns -/

/-- The columns of an expression with so many levels left of `limit`. -/
def columnsWithin (limit : Nat) : Nat → Expr → Except Error (List (ColumnRef × Location))
  | 0, _ => .error (.tooDeep limit)
  | n + 1, e => do
    match e with
    | column l c => return [(c, l.getD .unknown)]
    | _ => return (← e.children.mapM (columnsWithin limit n)).flatten

/-- The columns that an expression names, in the order they are written, with their positions. -/
def columns (limit : Nat) (e : Expr) : Except Error (List (ColumnRef × Location)) :=
  columnsWithin limit limit e

/-! ## Height -/

mutual

/-- The number of levels of an expression. -/
def height : Expr → Nat
  | literal _ _ | column _ _ | wildcard _ => 1
  | call _ _ as _ => heightList as + 1
  | unary _ _ e | cast _ e _ | isNull _ e _ => height e + 1
  | arith _ a _ b | compare _ a _ b | logic _ a _ b | nullIf _ a b => max (height a) (height b) + 1
  | case _ o bs e => max (heightOption o) (max (heightBranches bs) (heightOption e)) + 1
  | between _ e lo hi _ => max (height e) (max (height lo) (height hi)) + 1
  | like _ e p _ => max (height e) (height p) + 1
  | inList _ e es _ => max (height e) (heightList es) + 1

def heightList : List Expr → Nat
  | [] => 0
  | e :: es => max (height e) (heightList es)

def heightBranches : List (Expr × Expr) → Nat
  | [] => 0
  | (w, t) :: bs => max (max (height w) (height t)) (heightBranches bs)

def heightOption : Option Expr → Nat
  | none => 0
  | some e => height e

end

end StreamSql.Expr
