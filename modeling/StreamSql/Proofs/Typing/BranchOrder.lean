/-
  The type of a case, whatever the order of its branches. NULLs among the types of the results do
  not count. The others have a common type exactly if they are all equal, all numbers or all strings
  (`exists_caseType_iff`). `CaseRule` says which one it is: equal types give that type, different
  strings the type of strings, and numbers the first of those with the highest rank. There is no
  other case (`caseType_eq_ok_iff`).

  So the order decides only which of several types of one rank is taken, and types of one rank
  differ in having a sign or not (`signed_eq_iff`). In particular a case keeps its type up to the
  sign when its branches change places (`infer_case_perm`).
-/
import Mathlib.Data.List.MinMax
import Mathlib.Data.List.Perm.Basic
import StreamSql.Proofs.Typing.Narrowing

namespace StreamSql

open Outcome

namespace DataType

variable {a b first type : DataType} {types types' rest : List DataType}

/-! ## Types of one rank -/

/-- The place of a number in the order of widening; other types stand below all numbers. -/
def rank (t : DataType) : Nat :=
  t.numericRank?.getD 0

theorem rank_eq {n : Nat} (h : a.numericRank? = some n) : a.rank = n := by
  rw [rank, h, Option.getD_some]

theorem numericRank?_eq_rank (h : a.isNumeric = true) : a.numericRank? = some a.rank := by
  obtain ⟨n, hn⟩ := isNumeric_iff.mp h
  rw [hn, rank_eq hn]

/-- The type without regard to the sign: the signed integers stand for the unsigned ones of their
    width. -/
def signed : DataType → DataType
  | .uint8 => .int8
  | .uint16 => .int16
  | .uint32 => .int32
  | .uint64 => .int64
  | t => t

theorem numericRank?_signed (a : DataType) : a.signed.numericRank? = a.numericRank? := by
  cases a <;> rfl

theorem signed_of_not_isNumeric (h : a.isNumeric = false) : a.signed = a := by
  cases a <;> first | rfl | cases h

/-- Up to the sign there is one number of each rank. -/
theorem signed_eq_of_rank {n : Nat} (ha : a.numericRank? = some n) (hb : b.numericRank? = some n) :
    a.signed = b.signed := by
  cases a <;> cases ha <;> cases b <;> first | rfl | cases hb

theorem signed_eq_iff : a.signed = b.signed ↔
    a = b ∨ ∃ n, a.numericRank? = some n ∧ b.numericRank? = some n := by
  constructor
  · intro h
    have hrank : a.numericRank? = b.numericRank? := by
      rw [← numericRank?_signed a, h, numericRank?_signed]
    cases hb : b.numericRank? with
    | some n => exact Or.inr ⟨n, hrank.trans hb, rfl⟩
    | none =>
        have hna : a.isNumeric = false := by rw [isNumeric, hrank, hb, Option.isSome_none]
        have hnb : b.isNumeric = false := by rw [isNumeric, hb, Option.isSome_none]
        rw [signed_of_not_isNumeric hna, signed_of_not_isNumeric hnb] at h
        exact Or.inl h
  · rintro (rfl | ⟨n, ha, hb⟩)
    · rfl
    · exact signed_eq_of_rank ha hb

/-! ## One step -/

theorem unify_self (a : DataType) : unify a a = .ok a :=
  if_pos rfl

theorem unify_strings (ha : a.isString = true) (hb : b.isString = true) :
    unify a b = .ok (if a = b then a else .utf8) := by
  unfold unify
  split
  · rfl
  · simp [ha, hb]

theorem unify_numbers (ha : a.isNumeric = true) (hb : b.isNumeric = true) :
    unify a b = .ok (if a.rank < b.rank then b else a) := by
  unfold unify
  split
  · rename_i hab
    rw [hab, ite_self]
  · simp only [not_isString_of_isNumeric ha, Bool.false_and, Bool.false_eq_true, if_false, wider?,
      numericRank?_eq_rank ha, numericRank?_eq_rank hb, Option.bind_eq_bind, Option.bind_some]
    rw [← ite_not]
    simp only [not_le]
    rfl

/-! ## All steps -/

theorem foldlM_unify_equal (h : ∀ x ∈ rest, x = first) : rest.foldlM unify first = .ok first := by
  induction rest with
  | nil => rfl
  | cons x rest ih =>
      rw [List.forall_mem_cons] at h
      rw [List.foldlM_cons, h.1, unify_self]
      exact ih h.2

/-- Once two strings differ, the type of strings stays whatever strings follow. -/
theorem foldlM_unify_strings (hfirst : first.isString = true)
    (h : ∀ x ∈ rest, x.isString = true) (hdiffer : ∃ x ∈ rest, x ≠ first) :
    rest.foldlM unify first = .ok .utf8 := by
  induction rest generalizing first with
  | nil => simp at hdiffer
  | cons x rest ih =>
      rw [List.forall_mem_cons] at h
      rw [List.foldlM_cons, unify_strings hfirst h.1]
      change rest.foldlM unify (if first = x then first else .utf8) = _
      by_cases hx : first = x
      · rw [if_pos hx]
        refine ih hfirst h.2 ?_
        obtain ⟨y, hy, hne⟩ := hdiffer
        rcases List.mem_cons.mp hy with rfl | hy
        · exact absurd hx.symm hne
        · exact ⟨y, hy, hne⟩
      · rw [if_neg hx]
        by_cases hall : ∀ y ∈ rest, y = .utf8
        · exact foldlM_unify_equal hall
        · simp only [not_forall] at hall
          obtain ⟨y, hy, hne⟩ := hall
          exact ih rfl h.2 ⟨y, hy, hne⟩

/-- Over numbers the type so far is the first one of the highest rank so far. -/
theorem foldlM_unify_numbers (h : ∀ x ∈ first :: rest, x.isNumeric = true) :
    ∃ type, rest.foldlM unify first = .ok type ∧ (first :: rest).argmax rank = some type := by
  -- from the end: the rank to beat is that of everything before
  induction rest using List.reverseRecOn with
  | nil => exact ⟨first, rfl, rfl⟩
  | append_singleton rest x ih =>
      rw [← List.cons_append, List.forall_mem_append] at h
      obtain ⟨type, htype, hmax⟩ := ih h.1
      have hnum : type.isNumeric = true := h.1 type (List.argmax_mem hmax)
      refine ⟨if type.rank < x.rank then x else type, ?_, ?_⟩
      · rw [List.foldlM_append, bind_eq_ok]
        refine ⟨type, htype, ?_⟩
        rw [List.foldlM_cons, unify_numbers hnum (h.2 x List.mem_cons_self)]
        rfl
      · rw [← List.cons_append, List.argmax_concat, hmax]
        exact (apply_ite some _ _ _).symm

/-! ## The type of a case -/

/-- The type of a case over results of these types, none of them NULL. -/
inductive CaseRule : List DataType → DataType → Prop
  | none : CaseRule [] .null
  | equal {types : List DataType} {type : DataType} (mem : type ∈ types)
      (all : ∀ x ∈ types, x = type) : CaseRule types type
  | strings {types : List DataType} (all : ∀ x ∈ types, x.isString = true)
      (differ : ∃ x ∈ types, ∃ y ∈ types, x ≠ y) : CaseRule types .utf8
  | numbers {types : List DataType} {type : DataType} (all : ∀ x ∈ types, x.isNumeric = true)
      (highest : types.argmax rank = some type) : CaseRule types type

theorem foldlM_of_rule (h : CaseRule (first :: rest) type) :
    rest.foldlM unify first = .ok type := by
  cases h with
  | equal _ all =>
      rw [List.forall_mem_cons] at all
      obtain ⟨rfl, all⟩ := all
      exact foldlM_unify_equal all
  | strings all differ =>
      obtain ⟨hfirst, hrest⟩ := List.forall_mem_cons.mp all
      refine foldlM_unify_strings hfirst hrest ?_
      by_contra hall
      have hall : ∀ x ∈ first :: rest, x = first := by simpa using hall
      obtain ⟨x, hx, y, hy, hne⟩ := differ
      exact hne ((hall x hx).trans (hall y hy).symm)
  | numbers all highest =>
      obtain ⟨_, h, highest'⟩ := foldlM_unify_numbers all
      cases highest.symm.trans highest'
      exact h

/-- The types that count for the type of a case. -/
def nonNull (types : List DataType) : List DataType :=
  types.filter (· ≠ .null)

theorem mem_nonNull : a ∈ nonNull types ↔ a ∈ types ∧ a ≠ .null := by
  simp [nonNull]

theorem caseType_of_rule (h : CaseRule (nonNull types) type) : caseType types = .ok type := by
  unfold caseType
  split
  · rename_i hnil
    rw [nonNull, hnil] at h
    cases h with
    | none => rfl
    | equal mem => cases mem
    | strings _ differ => simp at differ
    | numbers _ highest => cases highest
  · rename_i first rest hcons
    rw [nonNull, hcons] at h
    exact foldlM_of_rule h

/-- The types are all equal, or all numbers, or all strings. -/
def Unifiable (types : List DataType) : Prop :=
  (∀ x ∈ types, ∀ y ∈ types, x = y) ∨ (∀ x ∈ types, x.isNumeric = true) ∨
    ∀ x ∈ types, x.isString = true

instance (types : List DataType) : Decidable (Unifiable types) :=
  inferInstanceAs (Decidable (_ ∨ _ ∨ _))

theorem exists_argmax (h : types ≠ []) : ∃ type, types.argmax rank = some type :=
  Option.ne_none_iff_exists'.mp (mt List.argmax_eq_none.mp h)

theorem exists_rule (h : Unifiable types) : ∃ type, CaseRule types type := by
  by_cases heq : ∀ x ∈ types, ∀ y ∈ types, x = y
  · cases types with
    | nil => exact ⟨.null, .none⟩
    | cons x types => exact ⟨x, .equal List.mem_cons_self fun y hy => heq y hy x List.mem_cons_self⟩
  · have differ : ∃ x ∈ types, ∃ y ∈ types, x ≠ y := by simpa using heq
    rcases h with h | hnum | hstr
    · exact absurd h heq
    · obtain ⟨x, hx, _⟩ := differ
      obtain ⟨type, highest⟩ := exists_argmax (List.ne_nil_of_mem hx)
      exact ⟨type, .numbers hnum highest⟩
    · exact ⟨.utf8, .strings hstr differ⟩

/-- Apart from numbers and strings only NULL is narrower than another type. -/
theorem Narrows.eq_of_other (h : Narrows a b) (hnull : a ≠ .null) (hnum : b.isNumeric = false)
    (hstr : b.isString = false) : a = b := by
  cases h with
  | same => rfl
  | null => exact absurd rfl hnull
  | number _ second => simp [isNumeric_iff.mpr ⟨_, second⟩] at hnum
  | string _ second => simp [second] at hstr

theorem unifiable_of_caseType (h : caseType types = .ok type) : Unifiable (nonNull types) := by
  obtain ⟨hnarrows, _⟩ := commonType_of_caseType h
  have hall : ∀ x ∈ nonNull types, Narrows x type ∧ x ≠ .null := fun x hx =>
    ⟨hnarrows x (mem_nonNull.mp hx).1, (mem_nonNull.mp hx).2⟩
  cases hnum : type.isNumeric with
  | true =>
      refine Or.inr (Or.inl fun x hx => ?_)
      exact ((hall x hx).1.isNumeric hnum).resolve_left (hall x hx).2
  | false =>
      cases hstr : type.isString with
      | true =>
          refine Or.inr (Or.inr fun x hx => ?_)
          exact ((hall x hx).1.isString hstr).resolve_left (hall x hx).2
      | false =>
          have heq : ∀ x ∈ nonNull types, x = type := fun x hx =>
            (hall x hx).1.eq_of_other (hall x hx).2 hnum hstr
          exact Or.inl fun x hx y hy => (heq x hx).trans (heq y hy).symm

theorem exists_caseType_iff : (∃ type, caseType types = .ok type) ↔ Unifiable (nonNull types) := by
  constructor
  · rintro ⟨type, h⟩
    exact unifiable_of_caseType h
  · intro h
    obtain ⟨type, hrule⟩ := exists_rule h
    exact ⟨type, caseType_of_rule hrule⟩

theorem caseType_eq_ok_iff : caseType types = .ok type ↔ CaseRule (nonNull types) type := by
  refine ⟨fun h => ?_, caseType_of_rule⟩
  -- some rule applies, and the type it gives can only be this one
  obtain ⟨_, hrule⟩ := exists_rule (unifiable_of_caseType h)
  cases h.symm.trans (caseType_of_rule hrule)
  exact hrule

/-! ## The order of the branches -/

theorem unifiable_perm (h : types.Perm types') : Unifiable types ↔ Unifiable types' := by
  simp only [Unifiable, h.mem_iff]

/-- In another order the same rule applies. Only the rule for numbers depends on the order, and
    then the two types have the same rank. -/
theorem CaseRule.perm (h : CaseRule types type) (hperm : types.Perm types') :
    ∃ type', CaseRule types' type' ∧ type.signed = type'.signed := by
  have hmem : ∀ {x}, x ∈ types' ↔ x ∈ types := hperm.symm.mem_iff
  cases h with
  | none =>
      rw [hperm.nil_eq.symm]
      exact ⟨.null, .none, rfl⟩
  | equal mem all => exact ⟨type, .equal (hmem.mpr mem) fun x hx => all x (hmem.mp hx), rfl⟩
  | strings all differ =>
      refine ⟨.utf8, .strings (fun x hx => all x (hmem.mp hx)) ?_, rfl⟩
      simpa only [hmem] using differ
  | numbers all highest =>
      have hin : type ∈ types := List.argmax_mem highest
      obtain ⟨type', highest'⟩ := exists_argmax (List.ne_nil_of_mem (hmem.mpr hin))
      have hin' : type' ∈ types := hmem.mp (List.argmax_mem highest')
      -- each is among the types of which the other has the highest rank
      have hrank : type.rank = type'.rank :=
        Nat.le_antisymm (List.le_of_mem_argmax (hmem.mpr hin) highest')
          (List.le_of_mem_argmax hin' highest)
      refine ⟨type', .numbers (fun x hx => all x (hmem.mp hx)) highest', ?_⟩
      refine signed_eq_of_rank (numericRank?_eq_rank (all type hin)) ?_
      rw [hrank]
      exact numericRank?_eq_rank (all type' hin')

theorem caseType_perm (hperm : types.Perm types') (h : caseType types = .ok type) :
    ∃ type', caseType types' = .ok type' ∧ type.signed = type'.signed := by
  simp only [caseType_eq_ok_iff] at h ⊢
  exact h.perm (hperm.filter _)

/-- Which types have a common type, what it is, and what the order of the types has to do with it. -/
theorem caseType_any_order (types : List DataType) :
    ((∃ type, caseType types = .ok type) ↔ Unifiable (nonNull types)) ∧
    (nonNull types = [] → caseType types = .ok .null) ∧
    (∀ type ∈ nonNull types, (∀ x ∈ nonNull types, x = type) → caseType types = .ok type) ∧
    ((∀ x ∈ nonNull types, x.isString = true) →
      (∃ x ∈ nonNull types, ∃ y ∈ nonNull types, x ≠ y) → caseType types = .ok .utf8) ∧
    ((∀ x ∈ nonNull types, x.isNumeric = true) → nonNull types ≠ [] →
      ∃ type n, caseType types = .ok type ∧ type ∈ types ∧ type.numericRank? = some n ∧
        ∀ x ∈ types, ∀ m, x.numericRank? = some m → m ≤ n) ∧
    ∀ types', types.Perm types' →
      ((∃ type, caseType types = .ok type) ↔ ∃ type, caseType types' = .ok type) ∧
      ∀ type type', caseType types = .ok type → caseType types' = .ok type' →
        (type = type' ∨ ∃ n, type.numericRank? = some n ∧ type'.numericRank? = some n) ∧
        type.signed = type'.signed := by
  refine ⟨exists_caseType_iff, ?_, ?_, ?_, ?_, ?_⟩
  · intro hnil
    exact caseType_of_rule (hnil ▸ .none)
  · intro type mem all
    exact caseType_of_rule (.equal mem all)
  · intro all differ
    exact caseType_of_rule (.strings all differ)
  · intro all hne
    obtain ⟨type, highest⟩ := exists_argmax hne
    have hmem : type ∈ nonNull types := List.argmax_mem highest
    refine ⟨type, type.rank, caseType_of_rule (.numbers all highest), (mem_nonNull.mp hmem).1,
      numericRank?_eq_rank (all type hmem), fun x hx m hm => ?_⟩
    have hx : x ∈ nonNull types := mem_nonNull.mpr ⟨hx, by rintro rfl; cases hm⟩
    rw [← rank_eq hm]
    exact List.le_of_mem_argmax hx highest
  · intro types' hperm
    constructor
    · rw [exists_caseType_iff, exists_caseType_iff]
      exact unifiable_perm (hperm.filter _)
    · intro type type' h h'
      obtain ⟨_, h'', hsigned⟩ := caseType_perm hperm h
      cases h''.symm.trans h'
      exact ⟨signed_eq_iff.mp hsigned, hsigned⟩

/-- The widest numbers here are one with a sign and one without, and the first of them is taken. -/
theorem caseType_any_order_widths :
    (∃ type n, caseType [null, uint32, int8, int32] = .ok type ∧
      type ∈ [null, uint32, int8, int32] ∧ type.numericRank? = some n ∧
      ∀ x ∈ [null, uint32, int8, int32], ∀ m, x.numericRank? = some m → m ≤ n) ∧
    caseType [null, uint32, int8, int32] = .ok uint32 ∧
    caseType [int32, int8, null, uint32] = .ok int32 ∧
    (uint32 = int32 ∨ ∃ n, uint32.numericRank? = some n ∧ int32.numericRank? = some n) ∧
    uint32.signed = int32.signed ∧
    caseType [largeUtf8, null, utf8] = .ok utf8 ∧
    caseType [date32, null, date32] = .ok date32 ∧
    caseType [null, null] = .ok null ∧
    ¬∃ type, caseType [int32, null, utf8] = .ok type := by
  have hperm : List.Perm [null, uint32, int8, int32] [int32, int8, null, uint32] := by decide
  have hfirst : caseType [null, uint32, int8, int32] = .ok uint32 := rfl
  have hsecond : caseType [int32, int8, null, uint32] = .ok int32 := rfl
  obtain ⟨_, _, _, _, hnumbers, horder⟩ := caseType_any_order [null, uint32, int8, int32]
  obtain ⟨_, _, _, hstrings, _⟩ := caseType_any_order [largeUtf8, null, utf8]
  obtain ⟨_, _, hequal, _⟩ := caseType_any_order [date32, null, date32]
  obtain ⟨_, hnone, _⟩ := caseType_any_order [null, null]
  obtain ⟨hmixed, _⟩ := caseType_any_order [int32, null, utf8]
  obtain ⟨hrank, hsigned⟩ := (horder _ hperm).2 _ _ hfirst hsecond
  refine ⟨hnumbers (by decide) (by decide), hfirst, hsecond, hrank, hsigned, ?_, ?_, ?_, ?_⟩
  · exact hstrings (by decide) (by decide)
  · exact hequal date32 (by decide) (by decide)
  · exact hnone rfl
  · exact hmixed.not.mpr (by decide)

end DataType

namespace Typing

variable {t : Typing} {s : Schema} {type : DataType}

/-- A case whose branches change places keeps its type, up to the sign. -/
theorem infer_case_perm {l : Option Location} {o e : Option Expr} {bs bs' : List (Expr × Expr)}
    (hperm : bs.Perm bs') (h : t.infer s (.case l o bs e) = .ok type) :
    ∃ type', t.infer s (.case l o bs' e) = .ok type' ∧ type.signed = type'.signed := by
  unfold infer at h ⊢
  generalize t.limit = levels at h ⊢
  cases levels with
  | zero => cases h
  | succ n =>
      simp only [inferWithin, bind_eq_ok, mapM_eq_ok] at h ⊢
      obtain ⟨subject, hsubject, results, hresults, last, hlast, h⟩ := h
      obtain ⟨results', hresults', hperm'⟩ := List.perm_comp_forall₂ hperm.symm hresults
      obtain ⟨type', h', hsigned⟩ :=
        DataType.caseType_perm (hperm'.symm.append_right last.toList) h
      exact ⟨type', ⟨subject, hsubject, results', hresults', last, hlast, h'⟩, hsigned⟩

end Typing

end StreamSql
