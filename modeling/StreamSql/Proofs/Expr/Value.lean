/-
  What an expression means on a row. The operators are interpreted here: NULL makes arithmetic and
  comparisons NULL, an integer result has to fit its width, AND, OR and NOT follow three-valued
  logic, a case without an operand is lazy. What columns hold and what functions, casts, LIKE, IN,
  BETWEEN and a case with an operand make of their operands is left to an `Interpretation`, and so
  is every operator on operands that no rule speaks of. No value means an error.

  Integers are computed as unbounded integers and then checked for their range; nothing here uses
  the arithmetic of the simplifier. Doubles have the operations that the simplifier has.
-/
import Mathlib.Data.String.Basic
import StreamSql.Expr.Fold

namespace StreamSql

/-! ## Values -/

/-- A value of a row: one that a constant can write, or one of a type without constants, such as a
    date. -/
inductive Value (α : Type) where
  | known (v : Literal)
  | other (x : α)

namespace Value

variable {α : Type}

def null : Value α := known .null

def bool (b : Bool) : Value α := known (.boolean b)

def isNull : Value α → Bool
  | known .null => true
  | _ => false

def isTrue : Value α → Bool
  | known (.boolean true) => true
  | _ => false

/-- The truth value of a boolean, none of NULL; other values have no truth value at all. -/
def truth? : Value α → Option (Option Bool)
  | known (.boolean b) => some (some b)
  | known .null => some none
  | _ => none

def ofTruth : Option Bool → Value α
  | some b => bool b
  | none => null

/-- The integer as a value of 32 or of 64 bits, if it fits. -/
def ofInt (narrow : Bool) (i : Int) : Option (Value α) :=
  if narrow then (Literal.narrow? i).map fun x => known (.integer x)
  else (Literal.wide? i).map fun x => known (.bigint x)

end Value

/-! ## Operators -/

/-- Arithmetic on integers; there is no division by zero. -/
def ArithOp.onInts (op : ArithOp) (a b : Int) : Option Int :=
  match op with
  | .add => some (a + b)
  | .subtract => some (a - b)
  | .multiply => some (a * b)
  | .divide => if b = 0 then none else some (a.tdiv b)
  | .modulo => if b = 0 then none else some (a.tmod b)

/-- What a comparison says about two elements of an order. -/
def CompareOp.decides {β : Type} [LinearOrder β] (op : CompareOp) (a b : β) : Bool :=
  match op with
  | .eq => decide (a = b)
  | .ne => decide (a ≠ b)
  | .lt => decide (a < b)
  | .le => decide (a ≤ b)
  | .gt => decide (b < a)
  | .ge => decide (b ≤ a)

/-- Three-valued AND and OR; none is the unknown. -/
def LogicOp.onTruth : LogicOp → Option Bool → Option Bool → Option Bool
  | .and, some false, _ | .and, _, some false => some false
  | .and, some true, some true => some true
  | .or, some true, _ | .or, _, some true => some true
  | .or, some false, some false => some false
  | _, _, _ => none

/-- Arithmetic on two numbers. Two 32-bit integers have a 32-bit result, other integers one of 64
    bits. -/
def ArithOp.onNumbers {α : Type} (op : ArithOp) : Number → Number → Option (Value α)
  | .int x nx, .int y ny => do Value.ofInt (nx && ny) (← op.onInts x.toInt y.toInt)
  | m, n => do return .known (.double (← Literal.arithDouble op m.toDouble n.toDouble))

/-- What a comparison says about two numbers, if they have an order. -/
def CompareOp.onNumbers (op : CompareOp) : Number → Number → Option Bool
  | .int x _, .int y _ => some (op.decides x.toInt y.toInt)
  | m, n => do return Literal.holds op (← m.toDouble.compare? n.toDouble)

/-- What an expression depends on beside its operators: the columns, `*`, and how functions and
    predicates map the values of their operands. The last three are operators on operands that are
    neither numbers nor of one type with an order. -/
structure Interpretation (α : Type) where
  column : ColumnRef → Option (Value α)
  all : Option (Value α)
  call : String → Bool → List (Value α) → Option (Value α)
  cast : DataType → Value α → Option (Value α)
  like : Bool → Value α → Value α → Option (Value α)
  inList : Bool → Value α → List (Value α) → Option (Value α)
  between : Bool → Value α → Value α → Value α → Option (Value α)
  simpleCase : Value α → List (Value α × Value α) → Option (Value α) → Option (Value α)
  sign : UnaryOp → Value α → Option (Value α)
  arith : ArithOp → Value α → Value α → Option (Value α)
  compare : CompareOp → Value α → Value α → Option (Value α)

namespace Interpretation

variable {α : Type} (I : Interpretation α)

/-- The value of a unary operator. -/
def unaryOn (op : UnaryOp) (a : Value α) : Option (Value α) :=
  match op, a with
  | .not, a => do return .ofTruth ((← a.truth?).map (!·))
  | _, .known .null => some .null
  | .minus, .known (.integer i) => Value.ofInt true (-i.toInt)
  | .minus, .known (.bigint i) => Value.ofInt false (-i.toInt)
  | .minus, .known (.double d) => some (.known (.double d.neg))
  | .plus, .known (.integer i) => some (.known (.integer i))
  | .plus, .known (.bigint i) => some (.known (.bigint i))
  | .plus, .known (.double d) => some (.known (.double d))
  | op, a => I.sign op a

/-- The value of an arithmetic operator. The sum of two strings is one after the other. -/
def arithOn (op : ArithOp) (a b : Value α) : Option (Value α) :=
  match a, b with
  | .known .null, _ => some .null
  | _, .known .null => some .null
  | .known (.string s), .known (.string t) =>
    if op = .add then some (.known (.string (s ++ t))) else I.arith op a b
  | .known v, .known w =>
    match v.number?, w.number? with
    | some m, some n => op.onNumbers m n
    | _, _ => I.arith op a b
  | a, b => I.arith op a b

/-- The value of a comparison. -/
def compareOn (op : CompareOp) (a b : Value α) : Option (Value α) :=
  match a, b with
  | .known .null, _ => some .null
  | _, .known .null => some .null
  | .known (.string s), .known (.string t) => some (.bool (op.decides s t))
  | .known (.boolean s), .known (.boolean t) => some (.bool (op.decides s t))
  | .known v, .known w =>
    match v.number?, w.number? with
    | some m, some n =>
      match op.onNumbers m n with
      | some t => some (.bool t)
      | none => I.compare op a b
    | _, _ => I.compare op a b
  | a, b => I.compare op a b

/-- The value of a connective, an error unless both sides are boolean or NULL. -/
def logicOn (op : LogicOp) (a b : Value α) : Option (Value α) := do
  return .ofTruth (op.onTruth (← a.truth?) (← b.truth?))

/-! ## Expressions -/

mutual

/-- The value of an expression. -/
def eval : Expr → Option (Value α)
  | .literal _ v => some (.known v)
  | .column _ c => I.column c
  | .wildcard _ => I.all
  | .call _ name args distinct => do I.call name distinct (← evalList args)
  | .unary _ op e => do I.unaryOn op (← eval e)
  | .arith _ a op b => do I.arithOn op (← eval a) (← eval b)
  | .compare _ a op b => do I.compareOn op (← eval a) (← eval b)
  | .logic _ a op b => do logicOn op (← eval a) (← eval b)
  | .nullIf _ a b => do
    let v ← eval a
    let w ← eval b
    if (← I.compareOn .eq v w).isTrue then return .null else return v
  | .case _ none branches otherwise => evalSearched (evalLast otherwise) branches
  | .case _ (some operand) branches otherwise => do
    I.simpleCase (← eval operand) (← evalBranches branches) (← evalOption otherwise)
  | .cast _ e type => do I.cast type (← eval e)
  | .isNull _ e negated => do return .bool ((← eval e).isNull != negated)
  | .between _ e low high negated => do I.between negated (← eval e) (← eval low) (← eval high)
  | .like _ e pattern negated => do I.like negated (← eval e) (← eval pattern)
  | .inList _ e list negated => do I.inList negated (← eval e) (← evalList list)

/-- The values of all expressions of a list. -/
def evalList : List Expr → Option (List (Value α))
  | [] => some []
  | e :: es => do return (← eval e) :: (← evalList es)

/-- The values of both sides of all branches. -/
def evalBranches : List (Expr × Expr) → Option (List (Value α × Value α))
  | [] => some []
  | (w, t) :: bs => do return (← eval w, ← eval t) :: (← evalBranches bs)

/-- The value of the first branch whose condition is true, or else `last`. Branches after it and
    the results of branches before it are not looked at. -/
def evalSearched (last : Option (Value α)) : List (Expr × Expr) → Option (Value α)
  | [] => last
  | (w, t) :: bs => do if (← eval w).isTrue then eval t else evalSearched last bs

/-- The value after ELSE, NULL where there is none. -/
def evalLast : Option Expr → Option (Value α)
  | none => some .null
  | some e => eval e

/-- The value of a part that may be missing. -/
def evalOption : Option Expr → Option (Option (Value α))
  | none => some none
  | some e => do return some (← eval e)

end

theorem eval_of_literal? {e : Expr} {v : Literal} (h : e.literal? = some v) :
    I.eval e = some (.known v) := by
  cases e <;> cases h
  simp only [eval]

/-- Where a node was written does not change its value. -/
@[simp]
theorem eval_withLoc (l : Option Location) (e : Expr) : I.eval (e.withLoc l) = I.eval e := by
  cases e with
  | case l o bs e => cases o <;> simp only [Expr.withLoc, eval]
  | _ => simp only [Expr.withLoc, eval]

end Interpretation

end StreamSql
