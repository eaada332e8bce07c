/-
  The order of doubles. A double has no order with another exactly if one of the two is NaN
  (`compare?_eq_none`), and no integer is NaN as a double (`isNaN_ofInt64`). The operations on
  doubles are those of the machine, whose meaning is that of the unpacked form: a double is read from
  its bits by unpacking, and what is packed is NaN only if it was so before.
-/
import StreamSql.Double

namespace StreamSql.Double

open Float.Model (UnpackedFloat Format)
open Float.Model.UnpackedFloat

/-! ## Packing -/

theorem unpack_eq_notANumber {spec : Format} {b : BitVec spec.numBits} :
    unpack spec b = .notANumber ↔ unpackExponent b = -1#_ ∧ unpackMantissa b ≠ 0#_ := by
  unfold unpack
  dsimp only
  by_cases he : unpackExponent b = -1#_
  · rw [if_pos he]
    by_cases hm : unpackMantissa b = 0#_
    · rw [if_pos hm]
      exact iff_of_false UnpackedFloat.noConfusion fun h => h.2 hm
    · rw [if_neg hm]
      exact iff_of_true rfl ⟨he, hm⟩
  · rw [if_neg he]
    refine iff_of_false (fun h => ?_) fun h => he h.1
    by_cases hz : unpackExponent b = 0#_
    · rw [if_pos hz] at h
      by_cases hm : unpackMantissa b = 0#_
      · rw [dif_pos hm] at h
        cases h
      · rw [dif_neg hm] at h
        cases h
    · rw [if_neg hz] at h
      cases h

theorem unpack_pack_eq_notANumber {f : UnpackedFloat} :
    unpack .binary64 (pack .binary64 f) = .notANumber ↔ f = .notANumber := by
  rw [unpack_eq_notANumber]
  cases f with
  | notANumber =>
      unfold pack packedNaN
      simp
  | infinity s =>
      unfold pack
      simp [packedInfinity]
  | zero s =>
      unfold pack
      simp [packedZero]
  | finite s m e hm =>
      refine iff_of_false ?_ UnpackedFloat.noConfusion
      unfold pack
      dsimp only
      split
      · simp [packedInfinity]
      · rename_i hexponent
        split
        · -- the exponent of a normal number is below that of NaN
          generalize (e + Format.binary64.exponentBias + (52 : Nat)).toNat = k at hexponent
          have hk : k % 2048 ≠ 2047 := by omega
          simp [← BitVec.toNat_inj, hk]
        · simp

theorem isNaN_iff (d : Double) :
    d.isNaN = true ↔ unpack .binary64 d.bits.toBitVec = .notANumber := by
  have hexponent : @unpackExponent .binary64 d.bits.toBitVec = -1#_ ↔
      d.exponentBits = 2047 := by
    rw [← BitVec.toNat_inj]
    simp [unpackExponent, exponentBits]
  have hmantissa : @unpackMantissa .binary64 d.bits.toBitVec = 0#_ ↔
      d.fractionBits = 0 := by
    rw [← BitVec.toNat_inj]
    simp [unpackMantissa, fractionBits]
  rw [unpack_eq_notANumber, ne_eq, hexponent, hmantissa]
  simp [isNaN, isFinite]

/-! ## Order -/

theorem compare_eq_none {a b : UnpackedFloat} :
    a.compare b = none ↔ a = .notANumber ∨ b = .notANumber := by
  have hsome : ∀ {a b : UnpackedFloat} {o : Ordering}, a ≠ .notANumber → b ≠ .notANumber →
      a.compare b = some o → (a.compare b = none ↔ a = .notANumber ∨ b = .notANumber) := by
    intro a b o ha hb h
    rw [h]
    exact iff_of_false (Option.some_ne_none o) (not_or.mpr ⟨ha, hb⟩)
  cases a with
  | notANumber => exact iff_of_true rfl (Or.inl rfl)
  | infinity s | zero s | finite s =>
      cases b with
      | notANumber => exact iff_of_true (by cases s <;> rfl) (Or.inr rfl)
      | infinity s' | zero s' | finite s' =>
          cases s <;> cases s' <;>
            exact hsome UnpackedFloat.noConfusion UnpackedFloat.noConfusion rfl

theorem compare_swap (a b : UnpackedFloat) : b.compare a = (a.compare b).map Ordering.swap := by
  cases a with
  | notANumber => cases b <;> rfl
  | infinity s | zero s =>
      cases b with
      | notANumber => cases s <;> rfl
      | infinity s' | zero s' | finite s' => cases s <;> cases s' <;> rfl
  | finite s m e hm =>
      cases b with
      | notANumber => cases s <;> rfl
      | infinity s' | zero s' => cases s <;> cases s' <;> rfl
      | finite s' m' e' hm' =>
          have hthen : (compare e' e).then (compare m' m) =
              ((compare e e').then (compare m m')).swap := by
            rw [Ordering.swap_then, Int.compare_swap, Nat.compare_swap]
          cases s <;> cases s'
          case positive.positive => exact congrArg some hthen
          case negative.negative => exact congrArg (fun o => some o.swap) hthen
          all_goals rfl

/-- The order of two doubles is that of their unpacked forms. -/
theorem compare?_eq (a b : Double) :
    a.compare? b = a.toFloat.toModel.unpack.compare b.toFloat.toModel.unpack := by
  have hlt : ∀ x y : Float, x < y ↔ x.toModel.unpack.compare y.toModel.unpack = some .lt :=
    fun _ _ => decide_eq_true_iff.trans beq_iff_eq
  have heq : ∀ x y : Float, (x == y) = true ↔
      x.toModel.unpack.compare y.toModel.unpack = some .eq := by
    intro x y
    change (x.toModel.unpack.compare y.toModel.unpack == some .eq) = true ↔ _
    exact beq_iff_eq
  unfold compare?
  simp only [hlt, heq]
  rw [compare_swap a.toFloat.toModel.unpack]
  cases a.toFloat.toModel.unpack.compare b.toFloat.toModel.unpack with
  | none => rfl
  | some o => cases o <;> rfl

theorem unpack_toFloat_eq_notANumber {d : Double} :
    d.toFloat.toModel.unpack = .notANumber ↔ d.isNaN = true := by
  rw [isNaN_iff]
  exact unpack_pack_eq_notANumber

/-- Two doubles have no order exactly if one of them is NaN. -/
theorem compare?_eq_none {a b : Double} :
    a.compare? b = none ↔ a.isNaN = true ∨ b.isNaN = true := by
  rw [compare?_eq, compare_eq_none, unpack_toFloat_eq_notANumber, unpack_toFloat_eq_notANumber]

/-! ## Integers -/

theorem round_ne_notANumber (s : Sign) (m : Nat) (e : Int) :
    UnpackedFloat.round .binary64 s m e ≠ .notANumber := by
  have hbranch : ∀ {p : Prop} [Decidable p] {f : p → UnpackedFloat} {g : ¬p → UnpackedFloat},
      (∀ h, f h ≠ .notANumber) → (∀ h, g h ≠ .notANumber) → dite p f g ≠ .notANumber := by
    intro p _ f g hf hg
    by_cases h : p
    · rw [dif_pos h]
      exact hf h
    · rw [dif_neg h]
      exact hg h
  exact hbranch (fun _ => UnpackedFloat.noConfusion) fun _ => UnpackedFloat.noConfusion

theorem normalize_ne_notANumber (m e : Int) (s : Sign) :
    UnpackedFloat.normalize .binary64 m e s ≠ .notANumber := by
  unfold UnpackedFloat.normalize
  split
  · exact round_ne_notANumber _ _ _
  · simp
  · exact round_ne_notANumber _ _ _

/-- A double that was packed is NaN only if it was so before. -/
theorem isNaN_pack {f : UnpackedFloat} (hf : f ≠ .notANumber) :
    (⟨(Float.Model.pack f).toBits⟩ : Double).isNaN = false := by
  rw [Bool.eq_false_iff, ne_eq, isNaN_iff]
  exact mt unpack_pack_eq_notANumber.mp hf

theorem neg_eq_notANumber {f : UnpackedFloat} : f.neg = .notANumber ↔ f = .notANumber := by
  cases f with
  | notANumber => exact iff_of_true rfl rfl
  | _ => exact iff_of_false UnpackedFloat.noConfusion UnpackedFloat.noConfusion

/-- An integer is a number as a double. -/
theorem isNaN_ofInt64 (i : Int64) : (ofInt64 i).isNaN = false := by
  have hmagnitude := normalize_ne_notANumber i.toInt.natAbs.toUInt64.toNat 0 .positive
  unfold ofInt64
  simp only
  split
  · exact isNaN_pack (mt (fun h => unpack_pack_eq_notANumber.mp (neg_eq_notANumber.mp h)) hmagnitude)
  · exact isNaN_pack hmagnitude

end StreamSql.Double
