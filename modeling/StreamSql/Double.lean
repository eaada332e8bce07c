/-
  Double-precision numbers as literals. A double is known by its 64 bits, so two literals are equal
  when their bits are, and the two zeros are different literals. Arithmetic is the arithmetic of
  the machine; the remainder is computed exactly.
-/
import StreamSql.Decimal.Shortest

namespace StreamSql

/-- A double-precision number, known by its bits. -/
structure Double where
  bits : UInt64
  deriving DecidableEq, Inhabited

namespace Double

/-- The number as a machine float. -/
def toFloat (d : Double) : Float :=
  Float.ofBits d.bits

/-- The number that a machine float holds. -/
def ofFloat (x : Float) : Double :=
  ⟨x.toBits⟩

/-- The sign bit. -/
def isNegative (d : Double) : Bool :=
  d.bits.toNat >>> 63 == 1

/-- The eleven exponent bits. -/
def exponentBits (d : Double) : Nat :=
  (d.bits.toNat >>> 52) % 2048

/-- The 52 fraction bits. -/
def fractionBits (d : Double) : Nat :=
  d.bits.toNat % (1 <<< 52)

/-- Neither infinite nor NaN. -/
def isFinite (d : Double) : Bool :=
  d.exponentBits != 2047

def isNaN (d : Double) : Bool :=
  !d.isFinite && d.fractionBits != 0

/-- Either of the two zeros. -/
def isZero (d : Double) : Bool :=
  d.exponentBits == 0 && d.fractionBits == 0

/-- The double with the given sign, exponent bits and fraction bits. -/
def ofParts (negative : Bool) (exponent fraction : Nat) : Double :=
  ⟨UInt64.ofNat ((if negative then 1 <<< 63 else 0) + (exponent <<< 52) + fraction)⟩

def infinity (negative : Bool) : Double :=
  ofParts negative 2047 0

def zero (negative : Bool) : Double :=
  ofParts negative 0 0

def nan : Double :=
  ofParts false 2047 (1 <<< 51)

/-- The magnitude of a finite double as `m · 2^q`. -/
def toBinary (d : Double) : Decimal.Binary :=
  if d.exponentBits = 0 then ⟨d.fractionBits, -1074, false⟩
  else ⟨(1 <<< 52) + d.fractionBits, d.exponentBits - 1075, d.fractionBits = 0 && 1 < d.exponentBits⟩

/-- The double of magnitude `m · 2^q` for `m < 2^53` and `-1074 ≤ q`, when that number is a
    double. -/
def ofBinary (negative : Bool) (m : Nat) (q : Int) : Double :=
  if m = 0 then zero negative
  else
    -- normalise so that the leading bit is bit 52, unless that leaves the range of exponents
    let shift := min (52 - Nat.log2 m) (q + 1074).toNat
    let m' := m <<< shift
    if m' < 1 <<< 52 then ofParts negative 0 m'
    else ofParts negative (q - shift + 1075).toNat (m' - (1 <<< 52))

/-! ## Arithmetic -/

def add (a b : Double) : Double := ofFloat (a.toFloat + b.toFloat)

def sub (a b : Double) : Double := ofFloat (a.toFloat - b.toFloat)

def mul (a b : Double) : Double := ofFloat (a.toFloat * b.toFloat)

def div (a b : Double) : Double := ofFloat (a.toFloat / b.toFloat)

/-- The number with the other sign. -/
def neg (d : Double) : Double :=
  ⟨d.bits ^^^ 0x8000000000000000⟩

/-- The remainder of the division truncated toward zero, with the sign of the dividend. It is always
    exact, so it is computed on integers over a common power of two. -/
def rem (a b : Double) : Double :=
  if !a.isFinite || b.isNaN || b.isZero then nan
  else if !b.isFinite then a
  else
    let x := a.toBinary
    let y := b.toBinary
    let q := min x.q y.q
    ofBinary a.isNegative ((x.m <<< (x.q - q).toNat) % (y.m <<< (y.q - q).toNat)) q

/-- The order of two numbers; none when one of them is NaN. -/
def compare? (a b : Double) : Option Ordering :=
  if a.toFloat < b.toFloat then some .lt
  else if a.toFloat == b.toFloat then some .eq
  else if b.toFloat < a.toFloat then some .gt
  else none

/-- The nearest double of a 64-bit integer. -/
def ofInt64 (i : Int64) : Double :=
  let magnitude := i.toInt.natAbs.toUInt64.toFloat
  ofFloat (if i < 0 then -magnitude else magnitude)

/-! ## Decimal text -/

/-- The double nearest to `± m · 10^e`. Exponents far outside the range of doubles are decided by
    the magnitude alone. -/
def ofDecimal (negative : Bool) (m : Nat) (e : Int) : Double :=
  let size := e + (Nat.toDigits 10 m).length
  if m = 0 || size < -400 then zero negative
  else if 400 < size then infinity negative
  else
    let x := Float.ofScientific m (e < 0) e.natAbs
    if negative then (ofFloat x).neg else ofFloat x

/-- The value of a list of decimal digits. -/
def digitsValue (cs : List Char) : Nat :=
  cs.foldl (fun n c => 10 * n + (c.toNat - '0'.toNat)) 0

/-- Reads an exponent: nothing, or the mark `e` or `E`, an optional sign and digits. -/
def readExponent? : List Char → Option Int
  | [] => some 0
  | mark :: rest =>
    let (negative, digits) := match rest with
      | '-' :: ds => (true, ds)
      | '+' :: ds => (false, ds)
      | ds => (false, ds)
    if (mark = 'e' || mark = 'E') && !digits.isEmpty && digits.all Char.isDigit then
      some (if negative then -(digitsValue digits : Int) else digitsValue digits)
    else none

/-- Reads a number without sign: digits with at most one point among them, then an exponent. -/
def readMagnitude? (negative : Bool) (cs : List Char) : Option Double :=
  let whole := cs.takeWhile Char.isDigit
  let rest := cs.dropWhile Char.isDigit
  let (fraction, rest) := match rest with
    | '.' :: r => (r.takeWhile Char.isDigit, r.dropWhile Char.isDigit)
    | r => ([], r)
  if whole.isEmpty && fraction.isEmpty then none
  else do
    let e ← readExponent? rest
    return ofDecimal negative (digitsValue (whole ++ fraction)) (e - fraction.length)

/-- Reads a decimal number with an optional sign. -/
def ofText? (s : String) : Option Double :=
  match s.toList with
  | '-' :: cs => readMagnitude? true cs
  | '+' :: cs => readMagnitude? false cs
  | cs => readMagnitude? false cs

/-- How numbers are laid out: positional for exponents of the first digit from `least` to below
    `bound`, with `whole` after a number without fraction digits; with `mark` and the exponent
    otherwise. -/
structure Layout where
  least : Int
  bound : Int
  whole : String
  mark : String

/-- Literals are positional from 0.0001 to below 10^16 and keep a point. -/
def literalLayout : Layout :=
  ⟨-4, 16, ".0", "e"⟩

/-- The text of a positive decimal in a layout. -/
def Layout.text (l : Layout) (s : Decimal.Scaled) : String :=
  let ds := s.letters
  let e := s.magnitude
  if l.least ≤ e && e < l.bound then
    if 0 ≤ s.exponent then
      String.ofList (ds ++ List.replicate s.exponent.toNat '0') ++ l.whole
    else if 0 ≤ e then
      String.ofList (ds.take (e + 1).toNat) ++ "." ++ String.ofList (ds.drop (e + 1).toNat)
    else
      "0." ++ String.ofList (List.replicate (-e - 1).toNat '0' ++ ds)
  else
    let fraction := match ds.drop 1 with
      | [] => ""
      | r => "." ++ String.ofList r
    String.ofList (ds.take 1) ++ fraction ++ l.mark ++ toString e

/-- The text of a double: the shortest digits that read back, in the layout of literals. -/
def text (d : Double) : String :=
  if d.isNaN then "NaN"
  else
    let sign := if d.isNegative then "-" else ""
    if !d.isFinite then sign ++ "inf"
    else if d.isZero then sign ++ "0" ++ literalLayout.whole
    else sign ++ literalLayout.text d.toBinary.shortest

end Double

end StreamSql
