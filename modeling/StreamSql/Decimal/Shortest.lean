/-
  The shortest decimal of a binary number. A positive number `m · 2^q` is the rounding of every real
  in an interval around it; among the decimals in that interval this module takes one with the
  fewest digits, and of two such the nearer, the larger one at a tie.

  All comparisons are between natural numbers: a real is a multiple of a quarter of the last binary
  place, and both sides of a comparison are multiplied up to integers.
-/
namespace StreamSql.Decimal

/-- The positive binary number `m · 2^q`. `tight` says that the neighbour below is only half a place
    away, which is so at a power of two. -/
structure Binary where
  m : Nat
  q : Int
  tight : Bool

/-- The decimal number `digits · 10^exponent`. -/
structure Scaled where
  digits : Nat
  exponent : Int
  deriving DecidableEq

namespace Binary

/-- Multiplies a count of quarter places so that it compares with multiples of `unit`. -/
def lift (b : Binary) (k : Int) (x : Nat) : Nat :=
  (x <<< (b.q - 2).toNat) * Nat.pow 10 (-k).toNat

/-- The step of the decimal grid `10^k` on the scale of `lift`. -/
def unit (b : Binary) (k : Int) : Nat :=
  Nat.pow 10 k.toNat <<< (2 - b.q).toNat

/-- Whether `d · 10^k` rounds to the number: it lies between the two midpoints, which themselves
    round to it when `m` is even. -/
def covers (b : Binary) (k : Int) (d : Nat) : Bool :=
  let low := b.lift k (4 * b.m - if b.tight then 1 else 2)
  let high := b.lift k (4 * b.m + 2)
  let x := d * b.unit k
  if b.m % 2 = 0 then low ≤ x && x ≤ high else low < x && x < high

/-- The best of the two neighbours of the number on the grid `10^k`, if one of them rounds to it. -/
def onGrid? (b : Binary) (k : Int) : Option Nat :=
  let v := b.lift k (4 * b.m)
  let d := v / b.unit k
  match b.covers k d, b.covers k (d + 1) with
  | true, true => some (if 2 * v < (2 * d + 1) * b.unit k then d else d + 1)
  | true, false => some d
  | false, true => some (d + 1)
  | false, false => none

/-- Tries the grids `10^k`, `10^(k-1)`, … in turn, at most `n` of them. -/
def firstGrid (b : Binary) : Nat → Int → Scaled
  | 0, k => ⟨b.m, k⟩
  | n + 1, k =>
    match b.onGrid? k with
    | some d => ⟨d, k⟩
    | none => firstGrid b n (k - 1)

/-- The shortest decimal of the number. The first grid is coarser than the number itself, and the
    grid of seventeen digits always has a hit. -/
def shortest (b : Binary) : Scaled :=
  b.firstGrid 24 (((Nat.log2 b.m : Int) + b.q) * 30103 / 100000 + 2)

end Binary

namespace Scaled

/-- The decimal digits of the coefficient. -/
def letters (s : Scaled) : List Char :=
  Nat.toDigits 10 s.digits

/-- The exponent of the first digit. -/
def magnitude (s : Scaled) : Int :=
  s.exponent + s.letters.length - 1

end Scaled

end StreamSql.Decimal
