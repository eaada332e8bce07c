/-
  The value of an operator on constants, as far as it is decided before any row is read. NULL makes
  arithmetic and comparisons NULL; a sum that leaves its width, a division by zero and operands of
  unlike types have no value here and stay as they are written. These are `eval_unary`, `eval_arith`
  and `eval_compare` of the planner's simplification.
-/
import StreamSql.Expr.Basic

namespace StreamSql

/-- A number: an integer, and whether it is a narrow one, or a double. -/
inductive Number where
  | int (value : Int64) (narrow : Bool)
  | float (value : Double)
  deriving DecidableEq, Inhabited

def Number.toDouble : Number → Double
  | .int i _ => Double.ofInt64 i
  | .float d => d

namespace Literal

def number? : Literal → Option Number
  | .integer i => some (.int i.toInt64 true)
  | .bigint i => some (.int i false)
  | .double d => some (.float d)
  | _ => none

/-- The 64-bit integer of this value, if there is one. -/
def wide? (v : Int) : Option Int64 :=
  if Int64.minValue.toInt ≤ v ∧ v ≤ Int64.maxValue.toInt then some (Int64.ofInt v) else none

/-- The 32-bit integer of this value, if there is one. -/
def narrow? (v : Int) : Option Int32 :=
  if Int32.minValue.toInt ≤ v ∧ v ≤ Int32.maxValue.toInt then some (Int32.ofInt v) else none

/-- Arithmetic on 64-bit integers that fails where it would leave their range or divide by zero. -/
def arithInt (op : ArithOp) (a b : Int64) : Option Int64 :=
  match op with
  | .add => wide? (a.toInt + b.toInt)
  | .subtract => wide? (a.toInt - b.toInt)
  | .multiply => wide? (a.toInt * b.toInt)
  | .divide => if b = 0 then none else wide? (a.toInt.tdiv b.toInt)
  | .modulo =>
    if b = 0 ∨ (a = Int64.minValue ∧ b = -1) then none else wide? (a.toInt.tmod b.toInt)

/-- Arithmetic on doubles; division by zero is left alone. -/
def arithDouble (op : ArithOp) (a b : Double) : Option Double :=
  match op with
  | .add => some (a.add b)
  | .subtract => some (a.sub b)
  | .multiply => some (a.mul b)
  | .divide => if b.isZero then none else some (a.div b)
  | .modulo => if b.isZero then none else some (a.rem b)

/-- Arithmetic on numbers. Two narrow integers have a narrow result or none. -/
def arithNumber (op : ArithOp) : Number → Number → Option Literal
  | .int a na, .int b nb => do
    let v ← arithInt op a b
    if na && nb then return .integer (← narrow? v.toInt) else return .bigint v
  | a, b => do return .double (← arithDouble op a.toDouble b.toDouble)

/-- The value of an arithmetic operator; the sum of two strings is one after the other. -/
def arith (op : ArithOp) : Literal → Literal → Option Literal
  | .null, _ => some .null
  | _, .null => some .null
  | .string a, .string b => if op = .add then some (.string (a ++ b)) else none
  | a, b => do arithNumber op (← a.number?) (← b.number?)

/-- The order of two texts by their characters. -/
def orderText (a b : String) : Ordering :=
  if a < b then .lt else if a = b then .eq else .gt

/-- The order of two integers. -/
def orderInt (a b : Int) : Ordering :=
  if a < b then .lt else if a = b then .eq else .gt

/-- The order of two constants, none of them NULL. A double that is not a number has no order. -/
def order? : Literal → Literal → Option Ordering
  | .string a, .string b => some (orderText a b)
  | .boolean a, .boolean b => some (orderInt a.toNat b.toNat)
  | a, b => do
    match ← a.number?, ← b.number? with
    | .int x _, .int y _ => return orderInt x.toInt y.toInt
    | x, y => x.toDouble.compare? y.toDouble

/-- What a comparison says about an order. -/
def holds (op : CompareOp) (o : Ordering) : Bool :=
  match op with
  | .eq => o == .eq
  | .ne => o != .eq
  | .lt => o == .lt
  | .le => o != .gt
  | .gt => o == .gt
  | .ge => o != .lt

/-- The value of a comparison. -/
def compare (op : CompareOp) : Literal → Literal → Option Literal
  | .null, _ => some .null
  | _, .null => some .null
  | a, b => do return .boolean (holds op (← order? a b))

/-- The value of a unary operator. -/
def unary : UnaryOp → Literal → Option Literal
  | _, .null => some .null
  | .not, .boolean b => some (.boolean !b)
  | .minus, .integer i => (narrow? (-i.toInt)).map .integer
  | .minus, .bigint i => (wide? (-i.toInt)).map .bigint
  | .minus, .double d => some (.double d.neg)
  | .plus, .integer i => some (.integer i)
  | .plus, .bigint i => some (.bigint i)
  | .plus, .double d => some (.double d)
  | _, _ => none

end Literal

end StreamSql
