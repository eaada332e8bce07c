/-
  Looking a column up in a schema. A look-up succeeds exactly when one field answers to the column
  (`resolve_eq_ok`); the check of the qualifier that comes first decides nothing about success, only
  which error a failure gives. So a field that is known to answer is the field that was found, in
  this schema and in every schema that has it at the same place (`eq_of_resolve`). In particular a
  column of a join is found on its own side (`resolve_of_join_left`, `resolve_of_join_right`).
-/
import StreamSql.Proofs.Outcome
import StreamSql.Schema

namespace StreamSql.Schema

theorem mem_candidates {s : Schema} {c : ColumnRef} {f : Field} {i : Nat} :
    (f, i) ∈ s.candidates c ↔ s.fields[i]? = some f ∧ f.answers c = true := by
  unfold candidates
  rw [List.mem_filter, List.mem_zipIdx_iff_getElem?]

/-- A field that answers to a qualified column makes its qualifier known. -/
theorem hasQualifier_of_answers {s : Schema} {c : ColumnRef} {f : Field} {q : String}
    (hf : f ∈ s.fields) (ha : f.answers c = true) (hq : c.qualifier = some q) :
    s.hasQualifier q = true := by
  unfold Field.answers at ha
  rw [hq, Bool.and_eq_true] at ha
  exact List.any_eq_true.mpr ⟨f, hf, ha.2⟩

theorem resolve_eq_ok {s : Schema} {c : ColumnRef} {l : Location} {found : Field × Nat} :
    s.resolve c l = .ok found ↔ s.candidates c = [found] := by
  unfold resolve
  constructor
  · intro h
    split at h
    · cases h
    · split at h
      · cases h
      · rename_i hc
        cases h
        exact hc
      · cases h
  · intro h
    have hmem : found ∈ s.candidates c := by
      rw [h]
      exact List.mem_singleton.mpr rfl
    obtain ⟨hat, ha⟩ := mem_candidates.mp hmem
    have hq : (c.qualifier.filter fun q => !s.hasQualifier q) = none := by
      cases hq : c.qualifier with
      | none => rfl
      | some q =>
          have := hasQualifier_of_answers (List.mem_of_getElem? hat) ha hq
          simp [this]
    rw [hq, h]

/-- A look-up finds the same wherever the column was read. -/
theorem resolve_of_resolve {s : Schema} {c : ColumnRef} {l : Location} {found : Field × Nat}
    (h : s.resolve c l = .ok found) (l' : Location) : s.resolve c l' = .ok found :=
  resolve_eq_ok.mpr (resolve_eq_ok.mp h)

/-- What a look-up found stands at its place and answers to the column. -/
theorem found_of_resolve {s : Schema} {c : ColumnRef} {l : Location} {f : Field} {i : Nat}
    (h : s.resolve c l = .ok (f, i)) : s.fields[i]? = some f ∧ f.answers c = true := by
  apply mem_candidates.mp
  rw [resolve_eq_ok.mp h]
  exact List.mem_singleton.mpr rfl

/-- A field that answers to the column is the one that a look-up found. -/
theorem eq_of_resolve {s : Schema} {c : ColumnRef} {l : Location} {found : Field × Nat} {f : Field}
    {i : Nat} (h : s.resolve c l = .ok found) (hat : s.fields[i]? = some f)
    (ha : f.answers c = true) : found = (f, i) := by
  have hmem := mem_candidates.mpr ⟨hat, ha⟩
  rw [resolve_eq_ok.mp h] at hmem
  exact (List.mem_singleton.mp hmem).symm

/-- The only field that answers to a column is found. -/
theorem resolve_of_unique {s : Schema} {c : ColumnRef} {l : Location} {f : Field} {i : Nat}
    (hat : s.fields[i]? = some f) (ha : f.answers c = true)
    (hone : ∀ j g, s.fields[j]? = some g → g.answers c = true → j = i) :
    s.resolve c l = .ok (f, i) := by
  have hmem : (f, i) ∈ s.candidates c := mem_candidates.mpr ⟨hat, ha⟩
  have hplace : ∀ found ∈ s.candidates c, found.2 = i := fun ⟨g, j⟩ hg =>
    hone j g (mem_candidates.mp hg).1 (mem_candidates.mp hg).2
  have hnodup : ((s.candidates c).map Prod.snd).Nodup := by
    refine List.Nodup.sublist (List.filter_sublist.map Prod.snd) ?_
    rw [List.zipIdx_map_snd]
    exact List.nodup_range'
  rw [resolve_eq_ok]
  match h : s.candidates c with
  | [] => simp [h] at hmem
  | [found] => simpa [h, eq_comm] using hmem
  | x :: y :: rest =>
      rw [h] at hplace hnodup
      have hx := hplace x (by simp)
      have hy := hplace y (by simp)
      simp [hx, hy] at hnodup

/-- A column that some field of a schema answers to means the same field after more are appended. -/
theorem resolve_of_append {fields more : List Field} {c : ColumnRef} {l l' : Location}
    {found : Field × Nat} (h : (⟨fields ++ more⟩ : Schema).resolve c l = .ok found)
    (hc : ∃ f ∈ fields, f.answers c = true) : (⟨fields⟩ : Schema).resolve c l' = .ok found := by
  obtain ⟨f, hf, ha⟩ := hc
  obtain ⟨i, hi⟩ := List.mem_iff_getElem?.mp hf
  have hmem : (f, i) ∈ (⟨fields⟩ : Schema).candidates c := mem_candidates.mpr ⟨hi, ha⟩
  rw [resolve_eq_ok] at h ⊢
  unfold candidates at h hmem ⊢
  rw [List.zipIdx_append, List.filter_append, List.append_eq_singleton_iff] at h
  rcases h with ⟨hnil, _⟩ | ⟨h, _⟩
  · rw [hnil] at hmem
    cases hmem
  · exact h

/-! ## The sides of a join -/

/-- A column that means a field of the left side of a join means it there. -/
theorem resolve_of_join_left {s t : Schema} {c : ColumnRef} {l l' : Location} {f : Field} {i : Nat}
    (h : (s.join t).resolve c l = .ok (f, i)) (hi : i < s.width) : s.resolve c l' = .ok (f, i) := by
  obtain ⟨hat, ha⟩ := found_of_resolve h
  rw [join, List.getElem?_append_left hi] at hat
  exact resolve_of_append h ⟨f, List.mem_of_getElem? hat, ha⟩

/-- A column that means a field of the right side of a join means it there, at the place that is
    left when the left side is taken off. -/
theorem resolve_of_join_right {s t : Schema} {c : ColumnRef} {l l' : Location} {f : Field} {i : Nat}
    (h : (s.join t).resolve c l = .ok (f, i)) (hi : s.width ≤ i) :
    t.resolve c l' = .ok (f, i - s.width) := by
  obtain ⟨hat, ha⟩ := found_of_resolve h
  have hright : ∀ j, (s.join t).fields[s.width + j]? = t.fields[j]? := by
    intro j
    rw [join, width, List.getElem?_append_right (Nat.le_add_right _ _), Nat.add_sub_cancel_left]
  have hplace : s.width + (i - s.width) = i := Nat.add_sub_cancel' hi
  refine resolve_of_unique ?_ ha fun j g hj hg => ?_
  · rw [← hright, hplace, hat]
  · have hfound := eq_of_resolve h ((hright j).trans hj) hg
    simp only [Prod.mk.injEq] at hfound
    omega

/-- The expression is a column, and the schema has it at this place. -/
def Finds (s : Schema) (e : Expr) (f : Field) (i : Nat) : Prop :=
  ∃ l c, e = .column l c ∧ ∀ place, s.resolve c place = .ok (f, i)

theorem Finds.isSome_column? {s : Schema} {e : Expr} {f : Field} {i : Nat} (h : s.Finds e f i) :
    e.column?.isSome = true := by
  obtain ⟨l, c, rfl, _⟩ := h
  rfl

theorem Finds.join_left {s t : Schema} {e : Expr} {f : Field} {i : Nat} (h : (s.join t).Finds e f i)
    (hi : i < s.width) : s.Finds e f i := by
  obtain ⟨l, c, rfl, hc⟩ := h
  exact ⟨l, c, rfl, fun _ => resolve_of_join_left (hc .unknown) hi⟩

theorem Finds.join_right {s t : Schema} {e : Expr} {f : Field} {i : Nat}
    (h : (s.join t).Finds e f i) (hi : s.width ≤ i) : t.Finds e f (i - s.width) := by
  obtain ⟨l, c, rfl, hc⟩ := h
  exact ⟨l, c, rfl, fun _ => resolve_of_join_right (hc .unknown) hi⟩

end StreamSql.Schema
