/-
  Operators on constants that have no value: an integer result that leaves its range, a division by
  zero, a comparison with NaN (`Undefined`), and arithmetic other than addition on two strings
  (`OnTexts`). An operator on constants whose operands have the types it asks for has a value or is
  one of these (`undefined_of_arith`, `undefined_of_unary`, `undefined_of_compare`), and these have
  none (`folded?_of_undefined`).
-/
import StreamSql.Proofs.Double
import StreamSql.Proofs.Expr.Meaning
import StreamSql.Proofs.Typing.Simplified

namespace StreamSql

open Outcome DataType

/-! ## Operators without a value -/

/-- The integer is no integer of 32 bits, or none of 64 bits. -/
def Overflows (narrow : Bool) (i : Int) : Prop :=
  if narrow then i < Int32.minValue.toInt ∨ Int32.maxValue.toInt < i
  else i < Int64.minValue.toInt ∨ Int64.maxValue.toInt < i

/-- The divisor is zero: as an integer if both numbers are integers, and as a double otherwise. -/
def Number.DividesByZero : Number → Number → Prop
  | .int _ _, .int j _ => j = 0
  | _, n => n.toDouble.isZero = true

namespace Expr

/-- An operator on constants that has no value. The least 64-bit integer modulo -1 is one, though its
    remainder is 0. -/
inductive Undefined : Expr → Prop
  | negation {l l' v i narrow} (number : v.number? = some (.int i narrow))
      (range : Overflows narrow (-i.toInt)) : Undefined (.unary l .minus (.literal l' v))
  | range {l la lb op v w i j ni nj r} (left : v.number? = some (.int i ni))
      (right : w.number? = some (.int j nj)) (value : op.onInts i.toInt j.toInt = some r)
      (range : Overflows (ni && nj) r) : Undefined (.arith l (.literal la v) op (.literal lb w))
  | remainder {l la lb v w ni nj} (left : v.number? = some (.int Int64.minValue ni))
      (right : w.number? = some (.int (-1) nj)) :
      Undefined (.arith l (.literal la v) .modulo (.literal lb w))
  | zero {l la lb op v w m n} (division : op = .divide ∨ op = .modulo)
      (left : v.number? = some m) (right : w.number? = some n) (zero : m.DividesByZero n) :
      Undefined (.arith l (.literal la v) op (.literal lb w))
  | order {l la lb op v w d} (nan : d.isNaN = true) (side : v = .double d ∨ w = .double d)
      (left : v ≠ .null) (right : w ≠ .null) :
      Undefined (.compare l (.literal la v) op (.literal lb w))

/-- Arithmetic on two strings that is no addition. -/
inductive OnTexts : Expr → Prop
  | arith {l la lb op a b} (other : op ≠ .add) :
      OnTexts (.arith l (.literal la (.string a)) op (.literal lb (.string b)))

end Expr

namespace Literal

variable {op : ArithOp} {v w : Literal}

theorem narrow?_eq_none {i : Int} : narrow? i = none ↔ Overflows true i := by
  simp only [narrow?, Overflows, if_true, ite_eq_right_iff, reduceCtorEq, imp_false, not_and_or,
    Int.not_le]

theorem wide?_eq_none {i : Int} : wide? i = none ↔ Overflows false i := by
  simp only [wide?, Overflows, Bool.false_eq_true, if_false, ite_eq_right_iff, reduceCtorEq,
    imp_false, not_and_or, Int.not_le]

/-- What leaves 64 bits leaves 32 bits. -/
theorem overflows_of_wide {i : Int} (narrow : Bool) (h : Overflows false i) : Overflows narrow i := by
  cases narrow with
  | false => exact h
  | true =>
      have h64 : Int64.minValue.toInt = -9223372036854775808 ∧
        Int64.maxValue.toInt = 9223372036854775807 := ⟨rfl, rfl⟩
      have h32 : Int32.minValue.toInt = -2147483648 ∧ Int32.maxValue.toInt = 2147483647 := ⟨rfl, rfl⟩
      simp only [Overflows, Bool.false_eq_true, if_false, if_true] at *
      omega

/-- Why arithmetic on 64-bit integers has no value. -/
theorem arithInt_eq_none {i j : Int64} (h : arithInt op i j = none) :
    ((op = .divide ∨ op = .modulo) ∧ j = 0) ∨
    (op = .modulo ∧ i = Int64.minValue ∧ j = -1) ∨
    ∃ r, op.onInts i.toInt j.toInt = some r ∧ Overflows false r := by
  have zero : j = 0 ↔ j.toInt = 0 := by
    rw [← Int64.toInt_inj]
    rfl
  cases op with
  | add | subtract | multiply => exact Or.inr (Or.inr ⟨_, rfl, wide?_eq_none.mp h⟩)
  | divide =>
      simp only [arithInt] at h
      split at h
      · exact Or.inl ⟨Or.inl rfl, ‹_›⟩
      · rename_i hj
        exact Or.inr (Or.inr ⟨_, if_neg (zero.not.mp hj), wide?_eq_none.mp h⟩)
  | modulo =>
      simp only [arithInt] at h
      split at h
      · rename_i hj
        rcases hj with hj | hj
        · exact Or.inl ⟨Or.inr rfl, hj⟩
        · exact Or.inr (Or.inl ⟨rfl, hj⟩)
      · rename_i hj
        rw [not_or] at hj
        exact Or.inr (Or.inr ⟨_, if_neg (zero.not.mp hj.1), wide?_eq_none.mp h⟩)

/-- The constants of a numeric type are numbers. -/
theorem exists_number? (h : v.dataType.isNumeric = true) : ∃ m, v.number? = some m := by
  cases v with
  | integer | bigint | double => exact ⟨_, rfl⟩
  | _ => cases h

theorem arith_of_numbers {m n : Number} (hm : v.number? = some m) (hn : w.number? = some n) :
    arith op v w = arithNumber op m n := by
  unfold arith
  split
  · cases hm
  · cases hn
  · cases hm
  · simp [hm, hn]

/-- A number that is NaN as a double is a double. -/
theorem exists_nan {m : Number} (hm : v.number? = some m) (hnan : m.toDouble.isNaN = true) :
    ∃ d, v = .double d ∧ d.isNaN = true := by
  cases v with
  | integer i | bigint i =>
      cases hm
      rw [Number.toDouble, Double.isNaN_ofInt64] at hnan
      cases hnan
  | double d =>
      cases hm
      exact ⟨d, rfl, hnan⟩
  | _ => cases hm

/-- Two numbers without an order: one of them is NaN. -/
theorem nan_of_order? {m n : Number} (hm : v.number? = some m) (hn : w.number? = some n)
    (h : order? v w = none) : ∃ d, (v = .double d ∨ w = .double d) ∧ d.isNaN = true := by
  have hcompare : m.toDouble.compare? n.toDouble = none := by
    unfold order? at h
    split at h
    · cases h
    · cases h
    · simp only [hm, hn, Option.bind_eq_bind, Option.bind_some] at h
      split at h
      · cases h
      · exact h
  rcases Double.compare?_eq_none.mp hcompare with hnan | hnan
  · obtain ⟨d, rfl, hd⟩ := exists_nan hm hnan
    exact ⟨d, Or.inl rfl, hd⟩
  · obtain ⟨d, rfl, hd⟩ := exists_nan hn hnan
    exact ⟨d, Or.inr rfl, hd⟩

end Literal

namespace Expr

open Literal

variable {l la lb : Option Location} {v w : Literal} {type : DataType}

/-- Arithmetic on two numbers that has no value. -/
theorem undefined_of_arithNumber {op : ArithOp} {m n : Number} (hv : v.number? = some m)
    (hw : w.number? = some n) (h : arithNumber op m n = none) :
    Undefined (.arith l (.literal la v) op (.literal lb w)) := by
  unfold arithNumber at h
  split at h
  · rename_i i ni j nj
    cases hx : arithInt op i j with
    | none =>
        rcases arithInt_eq_none hx with ⟨hop, rfl⟩ | ⟨rfl, rfl, rfl⟩ | ⟨r, hr, hover⟩
        · exact .zero hop hv hw rfl
        · exact .remainder hv hw
        · exact .range hv hw hr (overflows_of_wide _ hover)
    | some x =>
        have h := Option.bind_eq_none_iff.mp h x hx
        split at h
        · rename_i narrow
          have hnone : narrow? x.toInt = none := by
            cases hy : narrow? x.toInt with
            | none => rfl
            | some y => simp [hy] at h
          refine .range hv hw (onInts_of_arithInt hx) ?_
          rw [narrow]
          exact narrow?_eq_none.mp hnone
        · cases h
  · rename_i hints
    have hzero : m.DividesByZero n ↔ n.toDouble.isZero = true := by
      unfold Number.DividesByZero
      split
      · exact absurd rfl (hints _ _ _ _ rfl)
      · rfl
    have hnone : arithDouble op m.toDouble n.toDouble = none := by
      cases hd : arithDouble op m.toDouble n.toDouble with
      | none => rfl
      | some d => simp [hd] at h
    cases op with
    | add | subtract | multiply => cases hnone
    | divide =>
        simp only [arithDouble] at hnone
        split at hnone
        · exact .zero (Or.inl rfl) hv hw (hzero.mpr ‹_›)
        · cases hnone
    | modulo =>
        simp only [arithDouble] at hnone
        split at hnone
        · exact .zero (Or.inr rfl) hv hw (hzero.mpr ‹_›)
        · cases hnone

/-- Arithmetic on constants that has a type and no value. -/
theorem undefined_of_arith {op : ArithOp} (htype : arith? v.dataType w.dataType = some type)
    (h : Literal.arith op v w = none) :
    Undefined (.arith l (.literal la v) op (.literal lb w)) ∨
      OnTexts (.arith l (.literal la v) op (.literal lb w)) := by
  have hnumbers : v.dataType.isNumeric = true → w.dataType.isNumeric = true →
      Undefined (.arith l (.literal la v) op (.literal lb w)) := by
    intro hv hw
    obtain ⟨m, hm⟩ := exists_number? hv
    obtain ⟨n, hn⟩ := exists_number? hw
    exact undefined_of_arithNumber hm hn ((arith_of_numbers hm hn).symm.trans h)
  rcases arith?_cases htype with ⟨hnull, _⟩ | ⟨hnull, _⟩ | ⟨hv, hw, _⟩ | ⟨hv, hw, _⟩
  · rw [dataType_eq_null.mp hnull] at h
    cases h
  · rw [dataType_eq_null.mp hnull] at h
    cases v <;> cases h
  · cases v with
    | string a =>
        cases w with
        | string b =>
            refine Or.inr (.arith fun hadd => ?_)
            rw [hadd] at h
            cases h
        | _ => cases hw
    | _ => cases hv
  · exact Or.inl (hnumbers hv hw)

/-- A sign or a negation that has a type and no value. -/
theorem undefined_of_unary {op : UnaryOp} (htype : Typing.unaryType op v.dataType type)
    (h : Literal.unary op v = none) : Undefined (.unary l op (.literal la v)) := by
  cases op with
  | not =>
      rcases htype.1 with hv | hv
      · cases v with
        | boolean => cases h
        | _ => cases hv
      · rw [dataType_eq_null.mp hv] at h
        cases h
  | minus =>
      cases v with
      | integer i =>
          refine .negation rfl (narrow?_eq_none.mp ?_)
          rw [Int32.toInt_toInt64]
          exact Option.map_eq_none_iff.mp h
      | bigint i => exact .negation rfl (wide?_eq_none.mp (Option.map_eq_none_iff.mp h))
      | null | double => cases h
      | boolean | string => rcases htype.1 with hv | hv <;> cases hv
  | plus =>
      cases v with
      | null | integer | bigint | double => cases h
      | boolean | string => rcases htype.1 with hv | hv <;> cases hv

/-- A comparison that has a type and no value. -/
theorem undefined_of_compare {op : CompareOp} (htype : v.dataType.comparable w.dataType = true)
    (h : Literal.compare op v w = none) :
    Undefined (.compare l (.literal la v) op (.literal lb w)) := by
  have hv : v ≠ .null := by
    rintro rfl
    cases h
  have hw : w ≠ .null := by
    rintro rfl
    cases v <;> cases h
  have horder : order? v w = none := by
    unfold Literal.compare at h
    split at h
    · cases h
    · cases h
    · cases ho : order? v w with
      | none => rfl
      | some o => simp [ho] at h
  have hnumbers : v.dataType.isNumeric = true → w.dataType.isNumeric = true →
      Undefined (.compare l (.literal la v) op (.literal lb w)) := by
    intro hnv hnw
    obtain ⟨m, hm⟩ := exists_number? hnv
    obtain ⟨n, hn⟩ := exists_number? hnw
    obtain ⟨d, hside, hnan⟩ := nan_of_order? hm hn horder
    exact .order hnan hside hv hw
  have htexts : v.dataType.isString = true → w.dataType.isString = true →
      Undefined (.compare l (.literal la v) op (.literal lb w)) := by
    intro hsv hsw
    cases v with
    | string a =>
        cases w with
        | string b => cases horder
        | _ => cases hsw
    | _ => cases hsv
  rcases comparable_iff.mp htype with heq | ⟨hnv, hnw⟩ | ⟨hsv, hsw⟩ | hnull | hnull
  · cases v with
    | null => exact absurd rfl hv
    | boolean x =>
        cases w with
        | boolean y => cases horder
        | _ => cases heq
    | string => exact htexts rfl (heq ▸ rfl)
    | integer | bigint | double => exact hnumbers rfl (heq ▸ rfl)
  · exact hnumbers hnv hnw
  · exact htexts hsv hsw
  · exact absurd (dataType_eq_null.mp hnull) hv
  · exact absurd (dataType_eq_null.mp hnull) hw

/-- Integers whose result leaves its range have no value. -/
theorem arithNumber_of_overflows {op : ArithOp} {i j : Int64} {ni nj : Bool} {r : Int}
    (hr : op.onInts i.toInt j.toInt = some r) (hover : Overflows (ni && nj) r) :
    arithNumber op (.int i ni) (.int j nj) = none := by
  rw [Option.eq_none_iff_forall_ne_some]
  intro u hu
  obtain ⟨x, hx, hu⟩ := Option.bind_eq_some_iff.mp hu
  rw [onInts_of_arithInt hx] at hr
  cases hr
  cases hnarrow : ni && nj with
  | true =>
      rw [hnarrow] at hover hu
      simp [narrow?_eq_none.mpr hover] at hu
  | false =>
      rw [hnarrow, ← wide?_eq_none, wide?_toInt] at hover
      cases hover

theorem arithNumber_of_zero {op : ArithOp} {m n : Number} (hop : op = .divide ∨ op = .modulo)
    (hzero : m.DividesByZero n) : arithNumber op m n = none := by
  unfold Number.DividesByZero at hzero
  split at hzero
  · subst hzero
    rcases hop with rfl | rfl <;> rfl
  · rename_i hints
    have hnone : arithDouble op m.toDouble n.toDouble = none := by
      rcases hop with rfl | rfl <;> simp [arithDouble, hzero]
    unfold arithNumber
    split
    · exact absurd rfl (hints _ _ _ _ rfl)
    · simp [hnone]

/-- A double is compared with any other number as a double. -/
theorem order?_double_left (d : Double) (w : Literal) :
    order? (.double d) w = w.number?.bind fun n => d.compare? n.toDouble := by
  cases w <;> rfl

theorem order?_double_right (v : Literal) (d : Double) :
    order? v (.double d) = v.number?.bind fun m => m.toDouble.compare? d := by
  cases v <;> rfl

theorem order?_of_nan {d : Double} (hnan : d.isNaN = true) (hside : v = .double d ∨ w = .double d) :
    order? v w = none := by
  rcases hside with rfl | rfl
  · rw [order?_double_left, Option.bind_eq_none_iff]
    exact fun n _ => Double.compare?_eq_none.mpr (Or.inl hnan)
  · rw [order?_double_right, Option.bind_eq_none_iff]
    exact fun m _ => Double.compare?_eq_none.mpr (Or.inr hnan)

/-- What is undefined has no value. -/
theorem folded?_of_undefined {x : Expr} (h : Undefined x) : x.folded? = none := by
  have harith : ∀ {l la lb op v w m n}, v.number? = some m → w.number? = some n →
      arithNumber op m n = none → folded? (.arith l (.literal la v) op (.literal lb w)) = none := by
    intro l la lb op v w m n hv hw hnone
    simp [folded?, literal?, arith_of_numbers hv hw, hnone]
  cases h with
  | @negation l l' v i narrow number range =>
      have hunary : Literal.unary .minus v = none := by
        cases v with
        | integer i =>
            cases number
            rw [Int32.toInt_toInt64] at range
            exact Option.map_eq_none_iff.mpr (narrow?_eq_none.mpr range)
        | bigint i =>
            cases number
            exact Option.map_eq_none_iff.mpr (wide?_eq_none.mpr range)
        | _ => cases number
      simp [folded?, literal?, hunary]
  | range left right value range => exact harith left right (arithNumber_of_overflows value range)
  | remainder left right => exact harith left right rfl
  | zero division left right zero => exact harith left right (arithNumber_of_zero division zero)
  | @order l la lb op v w d nan side left right =>
      have hcompare : Literal.compare op v w = none := by
        unfold Literal.compare
        split
        · exact absurd rfl left
        · exact absurd rfl right
        · simp [order?_of_nan nan side]
      simp [folded?, literal?, hcompare]

theorem folded?_of_onTexts {x : Expr} (h : OnTexts x) : x.folded? = none := by
  cases h with
  | arith other => simp [folded?, literal?, Literal.arith, other]

end Expr

end StreamSql
