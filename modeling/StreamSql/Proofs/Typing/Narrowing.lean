/-
  Types that get narrower. `Narrows a b` says that a value of type `a` may stand where one of type
  `b` was promised: the types are equal, or `a` is NULL, or both are numbers and `a` is not the wider
  one, or both are strings.

  The rules of typing follow: over narrower operands an operator still has a type, and a narrower
  one. There is one exception. A string and NULL have no arithmetic, while two strings have, and so
  have two NULLs.
-/
import Mathlib.Order.MinMax
import StreamSql.Proofs.Typing.Rules

namespace StreamSql

open Outcome

namespace DataType

variable {a b c a' b' : DataType}

/-- A value of the first type may stand where one of the second was promised. -/
inductive Narrows : DataType → DataType → Prop
  | same (a : DataType) : Narrows a a
  | null (a : DataType) : Narrows .null a
  | number {a b : DataType} {m n : Nat} (first : a.numericRank? = some m)
      (second : b.numericRank? = some n) (le : m ≤ n) : Narrows a b
  | string {a b : DataType} (first : a.isString = true) (second : b.isString = true) : Narrows a b

/-! ## Kinds of types -/

theorem isNumeric_iff : a.isNumeric = true ↔ ∃ n, a.numericRank? = some n :=
  Option.isSome_iff_exists

theorem not_isString_of_isNumeric (h : a.isNumeric = true) : a.isString = false := by
  cases a <;> first | rfl | cases h

theorem not_isNumeric_of_isString (h : a.isString = true) : a.isNumeric = false := by
  cases a <;> first | rfl | cases h

namespace Narrows

theorem eq_null (h : Narrows a .null) : a = .null := by
  cases h with
  | same | null => rfl
  | number _ second => cases second
  | string _ second => cases second

/-- What is narrower than a truth value is one. -/
theorem truth (h : Narrows a b) (hb : b = .boolean ∨ b = .null) : a = .boolean ∨ a = .null := by
  cases h with
  | same => exact hb
  | null => exact Or.inr rfl
  | number _ second => rcases hb with rfl | rfl <;> cases second
  | string _ second => rcases hb with rfl | rfl <;> cases second

theorem isNumeric (h : Narrows a b) (hb : b.isNumeric = true) : a = .null ∨ a.isNumeric = true := by
  cases h with
  | same => exact Or.inr hb
  | null => exact Or.inl rfl
  | number first => exact Or.inr (isNumeric_iff.mpr ⟨_, first⟩)
  | string _ second => simp [not_isNumeric_of_isString second] at hb

theorem isString (h : Narrows a b) (hb : b.isString = true) : a = .null ∨ a.isString = true := by
  cases h with
  | same => exact Or.inr hb
  | null => exact Or.inl rfl
  | number _ second =>
      simp [not_isString_of_isNumeric (isNumeric_iff.mpr ⟨_, second⟩)] at hb
  | string first => exact Or.inr first

/-- What is narrower than a string or NULL is one of the two. -/
theorem text (h : Narrows a b) (hb : b.isString = true ∨ b = .null) :
    a.isString = true ∨ a = .null := by
  rcases hb with hb | rfl
  · exact (h.isString hb).symm
  · exact Or.inr h.eq_null

/-- Only numbers are narrower than numbers, up to NULL, and only strings than strings. -/
theorem isNumeric_right (h : Narrows a b) (ha : a.isNumeric = true) : b.isNumeric = true := by
  cases h with
  | same => exact ha
  | null => cases ha
  | number _ second => exact isNumeric_iff.mpr ⟨_, second⟩
  | string first => simp [not_isNumeric_of_isString first] at ha

theorem isString_right (h : Narrows a b) (ha : a.isString = true) : b.isString = true := by
  cases h with
  | same => exact ha
  | null => cases ha
  | number first => simp [not_isString_of_isNumeric (isNumeric_iff.mpr ⟨_, first⟩)] at ha
  | string _ second => exact second

theorem rank_le {m n : Nat} (h : Narrows a b) (ha : a.numericRank? = some m)
    (hb : b.numericRank? = some n) : m ≤ n := by
  cases h with
  | same =>
      rw [ha] at hb
      exact Nat.le_of_eq (Option.some.inj hb)
  | null => cases ha
  | number first second le =>
      rw [ha] at first
      rw [hb] at second
      cases first
      cases second
      exact le
  | string first =>
      have hn := isNumeric_iff.mpr ⟨_, ha⟩
      simp [not_isNumeric_of_isString first] at hn

theorem trans (h : Narrows a b) (h' : Narrows b c) : Narrows a c := by
  cases h with
  | same => exact h'
  | null => exact .null c
  | number first second le =>
      obtain ⟨k, hk⟩ := isNumeric_iff.mp (h'.isNumeric_right (isNumeric_iff.mpr ⟨_, second⟩))
      exact .number first hk (Nat.le_trans le (h'.rank_le second hk))
  | string first second => exact .string first (h'.isString_right second)

end Narrows

/-! ## Comparison -/

theorem comparable_iff : a.comparable b = true ↔
    a = b ∨ (a.isNumeric = true ∧ b.isNumeric = true) ∨ (a.isString = true ∧ b.isString = true) ∨
      a = .null ∨ b = .null := by
  simp [comparable, matchesForEquality, or_assoc]

theorem comparable_of_narrows (h : a.comparable b = true) (ha : Narrows a' a)
    (hb : Narrows b' b) : a'.comparable b' = true := by
  rw [comparable_iff] at *
  rcases h with rfl | ⟨hna, hnb⟩ | ⟨hsa, hsb⟩ | rfl | rfl
  · -- both sides of one type, whatever it is
    cases ha with
    | same =>
        cases hb with
        | same => exact Or.inl rfl
        | null => simp
        | number first second => simp [isNumeric_iff.mpr ⟨_, first⟩, isNumeric_iff.mpr ⟨_, second⟩]
        | string first second => simp [first, second]
    | null => simp
    | number first second =>
        rcases hb.isNumeric (isNumeric_iff.mpr ⟨_, second⟩) with rfl | hb
        · simp
        · simp [isNumeric_iff.mpr ⟨_, first⟩, hb]
    | string first second =>
        rcases hb.isString second with rfl | hb
        · simp
        · simp [first, hb]
  · rcases ha.isNumeric hna with rfl | ha
    · simp
    · rcases hb.isNumeric hnb with rfl | hb
      · simp
      · simp [ha, hb]
  · rcases ha.isString hsa with rfl | ha
    · simp
    · rcases hb.isString hsb with rfl | hb
      · simp
      · simp [ha, hb]
  · simp [ha.eq_null]
  · simp [hb.eq_null]

/-! ## Arithmetic -/

/-- The wider of two numbers is one of them, and at least as wide as both. -/
theorem wider?_eq_some {type : DataType} (h : wider? a b = some type) :
    ∃ m n, a.numericRank? = some m ∧ b.numericRank? = some n ∧
      type.numericRank? = some (max m n) ∧ (type = a ∨ type = b) := by
  simp only [wider?, Option.bind_eq_bind, Option.bind_eq_some_iff] at h
  obtain ⟨m, hm, n, hn, h⟩ := h
  refine ⟨m, n, hm, hn, ?_⟩
  cases h
  split
  · rename_i hle
    exact ⟨by rw [hm, max_eq_left hle], Or.inl rfl⟩
  · rename_i hle
    exact ⟨by rw [hn, max_eq_right (by omega)], Or.inr rfl⟩

theorem exists_wider? (ha : a.isNumeric = true) (hb : b.isNumeric = true) :
    ∃ type, wider? a b = some type := by
  obtain ⟨m, hm⟩ := isNumeric_iff.mp ha
  obtain ⟨n, hn⟩ := isNumeric_iff.mp hb
  simp [wider?, hm, hn]

/-- One operand is a string and the other is NULL. -/
def Mixed (a b : DataType) : Prop :=
  (a.isString = true ∧ b = .null) ∨ (a = .null ∧ b.isString = true)

theorem arith?_null_left (h : b = .null ∨ b.isNumeric = true) : arith? .null b = some b := by
  rcases h with rfl | h
  · rfl
  · simp [arith?, h]

theorem arith?_null_right (h : a = .null ∨ a.isNumeric = true) : arith? a .null = some a := by
  rcases h with rfl | h
  · rfl
  · have hna : a ≠ .null := by
      rintro rfl
      cases h
    simp [arith?, h, hna]

theorem arith?_strings (ha : a.isString = true) (hb : b.isString = true) :
    arith? a b = some .utf8 := by
  cases a <;> cases ha <;> cases b <;> cases hb <;> rfl

theorem arith?_numbers (ha : a.isNumeric = true) (hb : b.isNumeric = true) :
    arith? a b = wider? a b := by
  have hna : a ≠ .null := by
    rintro rfl
    cases ha
  have hnb : b ≠ .null := by
    rintro rfl
    cases hb
  simp [arith?, hna, hnb, not_isString_of_isNumeric ha]

/-- Operands that have arithmetic: NULL and a number, two NULLs, two strings, or two numbers. -/
theorem arith?_cases {type : DataType} (h : arith? a b = some type) :
    (a = .null ∧ (b = .null ∨ b.isNumeric = true) ∧ type = b) ∨
      (b = .null ∧ a.isNumeric = true ∧ type = a) ∨
      (a.isString = true ∧ b.isString = true ∧ type = .utf8) ∨
      (a.isNumeric = true ∧ b.isNumeric = true ∧ wider? a b = some type) := by
  unfold arith? at h
  split at h
  · rename_i hab
    cases h
    exact Or.inl ⟨hab.1, Or.inr hab.2, rfl⟩
  · split at h
    · rename_i hab
      cases h
      exact Or.inr (Or.inl ⟨hab.1, hab.2, rfl⟩)
    · split at h
      · rename_i hab
        cases h
        exact Or.inl ⟨hab.1, Or.inl hab.2, hab.2.symm⟩
      · split at h
        · rename_i hab
          cases h
          rw [Bool.and_eq_true] at hab
          exact Or.inr (Or.inr (Or.inl ⟨hab.1, hab.2, rfl⟩))
        · obtain ⟨m, n, hm, hn, _⟩ := wider?_eq_some h
          exact Or.inr (Or.inr (Or.inr ⟨isNumeric_iff.mpr ⟨m, hm⟩, isNumeric_iff.mpr ⟨n, hn⟩, h⟩))

theorem not_mixed_of_arith? {type : DataType} (h : arith? a b = some type) : ¬Mixed a b := by
  rintro (⟨hs, rfl⟩ | ⟨rfl, hs⟩)
  · rcases arith?_cases h with ⟨rfl, _⟩ | ⟨_, hn, _⟩ | ⟨_, hb, _⟩ | ⟨_, hb, _⟩
    · cases hs
    · simp [not_isString_of_isNumeric hn] at hs
    · cases hb
    · cases hb
  · rcases arith?_cases h with ⟨_, rfl | hn, _⟩ | ⟨rfl, _⟩ | ⟨ha, _⟩ | ⟨ha, _⟩
    · cases hs
    · simp [not_isString_of_isNumeric hn] at hs
    · cases hs
    · cases ha
    · cases ha

/-- The wider of two numbers narrows with them. -/
theorem wider?_of_narrows {type : DataType} (h : wider? a b = some type) (ha : Narrows a' a)
    (hb : Narrows b' b) (hna : a'.isNumeric = true) (hnb : b'.isNumeric = true) :
    ∃ type', wider? a' b' = some type' ∧ Narrows type' type := by
  obtain ⟨type', h'⟩ := exists_wider? hna hnb
  obtain ⟨m, n, hm, hn, hmax, _⟩ := wider?_eq_some h
  obtain ⟨m', n', hm', hn', hmax', _⟩ := wider?_eq_some h'
  exact ⟨type', h', .number hmax' hmax (max_le_max (ha.rank_le hm' hm) (hb.rank_le hn' hn))⟩

theorem narrows_wider? {type : DataType} (h : wider? a b = some type) :
    Narrows a type ∧ Narrows b type := by
  obtain ⟨m, n, hm, hn, hmax, _⟩ := wider?_eq_some h
  exact ⟨.number hm hmax (le_max_left m n), .number hn hmax (le_max_right m n)⟩

/-- Arithmetic on narrower operands has a narrower type, unless they are a string and NULL. -/
theorem arith?_of_narrows {type : DataType} (h : arith? a b = some type) (ha : Narrows a' a)
    (hb : Narrows b' b) :
    (∃ type', arith? a' b' = some type' ∧ Narrows type' type) ∨ Mixed a' b' := by
  rcases arith?_cases h with ⟨rfl, hcases, rfl⟩ | ⟨rfl, hn, rfl⟩ | ⟨hsa, hsb, rfl⟩ | ⟨hna, hnb, hw⟩
  · have hb' : b' = .null ∨ b'.isNumeric = true := by
      rcases hcases with rfl | hn
      · exact Or.inl hb.eq_null
      · exact hb.isNumeric hn
    rw [ha.eq_null]
    exact Or.inl ⟨b', arith?_null_left hb', hb⟩
  · rw [hb.eq_null]
    exact Or.inl ⟨a', arith?_null_right (ha.isNumeric hn), ha⟩
  · rcases ha.isString hsa with rfl | ha'
    · rcases hb.isString hsb with rfl | hb'
      · exact Or.inl ⟨.null, rfl, .null _⟩
      · exact Or.inr (Or.inr ⟨rfl, hb'⟩)
    · rcases hb.isString hsb with rfl | hb'
      · exact Or.inr (Or.inl ⟨ha', rfl⟩)
      · exact Or.inl ⟨.utf8, arith?_strings ha' hb', .same _⟩
  · obtain ⟨hwa, hwb⟩ := narrows_wider? hw
    rcases ha.isNumeric hna with rfl | ha'
    · exact Or.inl ⟨b', arith?_null_left (hb.isNumeric hnb), hb.trans hwb⟩
    · rcases hb.isNumeric hnb with rfl | hb'
      · exact Or.inl ⟨a', arith?_null_right (Or.inr ha'), ha.trans hwa⟩
      · rw [arith?_numbers ha' hb']
        exact Or.inl (wider?_of_narrows hw ha hb ha' hb')

/-! ## Branches of a case -/

/-- The common type of two branches: one of theirs, unless they are different strings. -/
theorem unify_eq_ok {type : DataType} (h : unify a b = .ok type) :
    Narrows a type ∧ Narrows b type ∧
      (type = a ∨ type = b ∨ type = .utf8 ∧ a ≠ b ∧ a.isString = true ∧ b.isString = true) := by
  unfold unify at h
  split at h
  · rename_i hab
    cases h
    cases hab
    exact ⟨.same a, .same a, Or.inl rfl⟩
  · rename_i hab
    split at h
    · rename_i hs
      cases h
      rw [Bool.and_eq_true] at hs
      exact ⟨.string hs.1 rfl, .string hs.2 rfl, Or.inr (Or.inr ⟨rfl, hab, hs⟩)⟩
    · split at h
      · rename_i hw
        cases h
        obtain ⟨_, _, _, _, _, htype⟩ := wider?_eq_some hw
        exact ⟨(narrows_wider? hw).1, (narrows_wider? hw).2, htype.imp_right Or.inl⟩
      · cases h

/-- Two types that are narrower than one, and not NULL, have a common type that is. -/
theorem exists_unify (ha : Narrows a c) (hb : Narrows b c) (hna : a ≠ .null) (hnb : b ≠ .null) :
    ∃ type, unify a b = .ok type ∧ Narrows type c ∧ type ≠ .null := by
  unfold unify
  by_cases hab : a = b
  · exact ⟨a, if_pos hab, ha, hna⟩
  · rw [if_neg hab]
    by_cases hs : (a.isString && b.isString) = true
    · rw [if_pos hs]
      rw [Bool.and_eq_true] at hs
      exact ⟨.utf8, rfl, .string rfl (ha.isString_right hs.1), by simp⟩
    · rw [if_neg hs]
      have hnum : a.isNumeric = true ∧ b.isNumeric = true := by
        cases ha with
        | same =>
            cases hb with
            | same => exact absurd rfl hab
            | null => exact absurd rfl hnb
            | number first second =>
                exact ⟨isNumeric_iff.mpr ⟨_, second⟩, isNumeric_iff.mpr ⟨_, first⟩⟩
            | string first second => simp [first, second] at hs
        | null => exact absurd rfl hna
        | number first second =>
            refine ⟨isNumeric_iff.mpr ⟨_, first⟩, ?_⟩
            exact (hb.isNumeric (isNumeric_iff.mpr ⟨_, second⟩)).resolve_left hnb
        | string first second =>
            have hbs := (hb.isString second).resolve_left hnb
            simp [first, hbs] at hs
      obtain ⟨type, hw⟩ := exists_wider? hnum.1 hnum.2
      obtain ⟨_, _, _, _, _, htype⟩ := wider?_eq_some hw
      rw [hw]
      rcases htype with rfl | rfl
      · exact ⟨type, rfl, ha, hna⟩
      · exact ⟨type, rfl, hb, hnb⟩

/-- The type is one of these, or NULL, or the type of strings where there are different ones. -/
def StemsFrom (types : List DataType) (type : DataType) : Prop :=
  type ∈ types ∨ type = .null ∨ type = .utf8 ∧
    ∃ x ∈ types, ∃ y ∈ types, x ≠ y ∧ x.isString = true ∧ y.isString = true

theorem StemsFrom.mono {types types' : List DataType} {type : DataType} (h : StemsFrom types type)
    (hsub : types ⊆ types') : StemsFrom types' type := by
  rcases h with h | h | ⟨h, x, hx, y, hy, hxy⟩
  · exact Or.inl (hsub h)
  · exact Or.inr (Or.inl h)
  · exact Or.inr (Or.inr ⟨h, x, hsub hx, y, hsub hy, hxy⟩)

/-- What is known of the type of a case: the types of its results are narrower, and it stems from
    them. -/
def CommonType (types : List DataType) (type : DataType) : Prop :=
  (∀ x ∈ types, Narrows x type) ∧ StemsFrom types type

theorem commonType_of_foldlM {first : DataType} {types : List DataType} {type : DataType}
    (h : types.foldlM unify first = .ok type) : CommonType (first :: types) type := by
  induction types generalizing first with
  | nil =>
      cases h
      exact ⟨by simp [Narrows.same], Or.inl List.mem_cons_self⟩
  | cons x types ih =>
      rw [List.foldlM_cons, bind_eq_ok] at h
      obtain ⟨joined, hjoined, h⟩ := h
      obtain ⟨hall, hone⟩ := ih h
      obtain ⟨hfirst, hx, hwhich⟩ := unify_eq_ok hjoined
      rw [List.forall_mem_cons] at hall
      refine ⟨?_, ?_⟩
      · rw [List.forall_mem_cons, List.forall_mem_cons]
        exact ⟨hfirst.trans hall.1, hx.trans hall.1, hall.2⟩
      · rcases hwhich with rfl | rfl | ⟨rfl, hne, hsf, hsx⟩
        · refine hone.mono ?_
          simp only [List.subset_def, List.mem_cons]
          tauto
        · refine hone.mono ?_
          simp only [List.subset_def, List.mem_cons]
          tauto
        · -- two different strings were joined, and may have become the type of the case
          have hutf8 : type = .utf8 → StemsFrom (first :: x :: types) type := fun h =>
            Or.inr (Or.inr ⟨h, first, by simp, x, by simp, hne, hsf, hsx⟩)
          rcases hone with hmem | hnull | ⟨h, _⟩
          · rcases List.mem_cons.mp hmem with h | h
            · exact hutf8 h
            · exact Or.inl (by simp [h])
          · exact Or.inr (Or.inl hnull)
          · exact hutf8 h

theorem commonType_of_caseType {types : List DataType} {type : DataType}
    (h : caseType types = .ok type) : CommonType types type := by
  have hall : ∀ {rest}, types.filter (· ≠ .null) = rest → (∀ x ∈ rest, Narrows x type) →
      ∀ x ∈ types, Narrows x type := by
    rintro rest rfl hrest x hx
    by_cases hnx : x = .null
    · rw [hnx]
      exact .null type
    · exact hrest x (List.mem_filter.mpr ⟨hx, by simpa using hnx⟩)
  unfold caseType at h
  split at h
  · rename_i hnil
    cases h
    exact ⟨hall hnil (by simp), Or.inr (Or.inl rfl)⟩
  · rename_i first rest hcons
    obtain ⟨hrest, hone⟩ := commonType_of_foldlM h
    refine ⟨hall hcons hrest, hone.mono ?_⟩
    rw [← hcons]
    exact List.filter_subset_self types

/-- Types that are all narrower than one have a common type. -/
theorem exists_caseType {types : List DataType} {bound : DataType}
    (h : ∀ x ∈ types, Narrows x bound) : ∃ type, caseType types = .ok type := by
  have hfold : ∀ (rest : List DataType) (first : DataType), Narrows first bound → first ≠ .null →
      (∀ x ∈ rest, Narrows x bound ∧ x ≠ .null) → ∃ type, rest.foldlM unify first = .ok type := by
    intro rest
    induction rest with
    | nil => exact fun first _ _ _ => ⟨first, rfl⟩
    | cons x rest ih =>
        intro first hf hnf hrest
        rw [List.forall_mem_cons] at hrest
        obtain ⟨joined, hjoined, hbound, hnull⟩ := exists_unify hf hrest.1.1 hnf hrest.1.2
        obtain ⟨type, htype⟩ := ih joined hbound hnull hrest.2
        exact ⟨type, by rw [List.foldlM_cons, bind_eq_ok]; exact ⟨joined, hjoined, htype⟩⟩
  unfold caseType
  split
  · exact ⟨.null, rfl⟩
  · rename_i first rest hcons
    have hall : ∀ x ∈ first :: rest, Narrows x bound ∧ x ≠ .null := by
      intro x hx
      rw [← hcons, List.mem_filter] at hx
      exact ⟨h x hx.1, by simpa using hx.2⟩
    rw [List.forall_mem_cons] at hall
    exact hfold rest first hall.1.1 hall.1.2 hall.2

/-- A case over narrower results, or over fewer of them, has a narrower type. -/
theorem caseType_of_narrows {types types' : List DataType} {type : DataType}
    (h : caseType types = .ok type) (hnarrows : ∀ x' ∈ types', ∃ x ∈ types, Narrows x' x) :
    ∃ type', caseType types' = .ok type' ∧ Narrows type' type := by
  obtain ⟨hall, _⟩ := commonType_of_caseType h
  have hbound : ∀ x' ∈ types', Narrows x' type := by
    intro x' hx'
    obtain ⟨x, hx, hn⟩ := hnarrows x' hx'
    exact hn.trans (hall x hx)
  obtain ⟨type', h'⟩ := exists_caseType hbound
  refine ⟨type', h', ?_⟩
  rcases (commonType_of_caseType h').2 with hmem | rfl | ⟨rfl, x, hx, _, _, _, hs, _⟩
  · exact hbound type' hmem
  · exact .null type
  · exact .string rfl ((hbound x hx).isString_right hs)

end DataType

/-! ## Functions -/

/-- The type of a result, from that of the first argument or NULL: a number is widened to a double
    if it is one of the two kinds of floats. -/
def ReturnType.Gives (returns : ReturnType) (first type : DataType) : Prop :=
  match returns with
  | .fixed result => type = result
  | .firstArg => type = first
  | .widened => first = .null ∧ type = .null ∨
      ∃ n, first.numericRank? = some n ∧ type = if 5 ≤ n then .float64 else .int64

namespace Signature

open DataType

variable {f : Signature} {types types' : List DataType} {type : DataType}

theorem checkString_of_narrows (h : f.checkString types = .ok ())
    (hn : List.Forall₂ Narrows types' types) : f.checkString types' = .ok () := by
  cases hn with
  | nil => rfl
  | @cons x' x _ _ hx _ =>
      unfold checkString at h ⊢
      simp only at h ⊢
      split at h
      · cases h
      · rename_i hcheck
        refine if_neg fun hcheck' => hcheck ?_
        obtain ⟨hname, hstring, hnull⟩ := hcheck'
        refine ⟨hname, ?_, ?_⟩
        · by_contra hs
          rcases hx.isString (by simpa using hs) with rfl | hs'
          · exact hnull rfl
          · simp [hs'] at hstring
        · rintro rfl
          exact hnull hx.eq_null

theorem resultType_eq_ok :
    f.resultType types = .ok type ↔
      f.takes types.length = true ∧ f.returns.Gives (types.head?.getD .null) type := by
  unfold resultType
  by_cases htakes : f.takes types.length = true
  · rw [if_neg (by simp [htakes])]
    cases f.returns with
    | fixed result => simp [ReturnType.Gives, htakes, eq_comm]
    | firstArg => simp [ReturnType.Gives, htakes, eq_comm]
    | widened =>
        cases types.head? with
        | none => simp [ReturnType.Gives, htakes, numericRank?, eq_comm]
        | some first =>
            cases first <;> simp [ReturnType.Gives, htakes, numericRank?, isNumeric, eq_comm]
  · simp [htakes]

theorem resultType_of_narrows (h : f.resultType types = .ok type)
    (hn : List.Forall₂ Narrows types' types) :
    ∃ type', f.resultType types' = .ok type' ∧ Narrows type' type := by
  simp only [resultType_eq_ok] at h ⊢
  obtain ⟨htakes, hgives⟩ := h
  have hfirst : Narrows (types'.head?.getD .null) (types.head?.getD .null) := by
    cases hn with
    | nil => exact .same _
    | cons hx _ => exact hx
  rw [← hn.length_eq] at htakes
  cases hreturns : f.returns with
  | fixed result =>
      rw [hreturns] at hgives
      exact ⟨type, ⟨htakes, hgives⟩, .same type⟩
  | firstArg =>
      rw [hreturns] at hgives
      cases hgives
      exact ⟨_, ⟨htakes, rfl⟩, hfirst⟩
  | widened =>
      rw [hreturns] at hgives
      rcases hgives with ⟨hnull, rfl⟩ | ⟨n, hrank, rfl⟩
      · rw [hnull] at hfirst
        exact ⟨.null, ⟨htakes, Or.inl ⟨hfirst.eq_null, rfl⟩⟩, .same _⟩
      · rcases hfirst.isNumeric (isNumeric_iff.mpr ⟨n, hrank⟩) with hnull | hnum
        · exact ⟨.null, ⟨htakes, Or.inl ⟨hnull, rfl⟩⟩, .null _⟩
        · obtain ⟨m, hm⟩ := isNumeric_iff.mp hnum
          have hle := hfirst.rank_le hm hrank
          refine ⟨_, ⟨htakes, Or.inr ⟨m, hm, rfl⟩⟩, ?_⟩
          by_cases h5 : 5 ≤ m
          · rw [if_pos h5, if_pos (by omega)]
            exact .same _
          · rw [if_neg h5]
            split
            · exact .number rfl rfl (by decide)
            · exact .same _

end Signature

end StreamSql
