/-
  What it takes for an expression to have a type. A node has one only if each of its parts has,
  apart from a `*` among the arguments of a call (`inferWithin_children`); hence every column that
  occurs in an expression with a type is found in the schema (`resolve_of_infer`).

  The type of a node depends on its parts through their types alone (`inferWithin_congruent`). So it
  does not matter how many levels were left, as long as they were enough, nor where anything was
  written.
-/
import StreamSql.Proofs.Expr.Replace
import StreamSql.Proofs.Expr.Same
import StreamSql.Proofs.Schema
import StreamSql.Typing

namespace StreamSql.Typing

open Outcome

/-- The parts of a node that has a type have types one level down. -/
theorem inferWithin_children {t : Typing} {schema : Schema} {n : Nat} {e : Expr} {type : DataType}
    (h : t.inferWithin schema (n + 1) e = .ok type) {c : Expr} (hc : c ∈ e.children) :
    c.isWildcard = true ∨ ∃ type', t.inferWithin schema n c = .ok type' := by
  cases e with
  | literal | column | wildcard => simp [Expr.children] at hc
  | call l name args d =>
      simp only [inferWithin, bind_eq_ok] at h
      obtain ⟨s, _, types, htypes, _⟩ := h
      obtain ⟨type', _, ha⟩ := exists_right (mapM_eq_ok.mp htypes) hc
      by_cases hw : c.isWildcard = true
      · exact Or.inl hw
      · rw [if_neg hw] at ha
        exact Or.inr ⟨type', ha⟩
  | unary | cast | isNull =>
      simp only [inferWithin, bind_eq_ok] at h
      obtain ⟨type', ha, _⟩ := h
      rw [List.mem_singleton.mp hc]
      exact Or.inr ⟨type', ha⟩
  | arith | compare | nullIf | like =>
      simp only [inferWithin, bind_eq_ok] at h
      obtain ⟨ta, ha, tb, hb, _⟩ := h
      simp only [Expr.children, List.mem_cons, List.not_mem_nil, or_false] at hc
      rcases hc with rfl | rfl
      · exact Or.inr ⟨ta, ha⟩
      · exact Or.inr ⟨tb, hb⟩
  | logic l a op b =>
      simp only [inferWithin, bind_eq_ok] at h
      obtain ⟨ta, ha, _, _, tb, hb, _⟩ := h
      simp only [Expr.children, List.mem_cons, List.not_mem_nil, or_false] at hc
      rcases hc with rfl | rfl
      · exact Or.inr ⟨ta, ha⟩
      · exact Or.inr ⟨tb, hb⟩
  | case l o bs e =>
      simp only [inferWithin, bind_eq_ok] at h
      obtain ⟨subject, ho, results, hbs, last, he, _⟩ := h
      simp only [Expr.children, List.mem_append, Option.mem_toList] at hc
      rcases hc with (hc | hc) | hc
      · subst hc
        obtain ⟨hw⟩ := option_mapM_eq_ok.mp ho
        exact Or.inr ⟨_, hw⟩
      · obtain ⟨⟨w, r⟩, hb, hc⟩ := List.mem_flatMap.mp hc
        obtain ⟨tr, _, hb⟩ := exists_right (mapM_eq_ok.mp hbs) hb
        simp only [bind_eq_ok] at hb
        obtain ⟨tw, hw, hr⟩ := hb
        have hr : t.inferWithin schema n r = .ok tr := by
          cases subject with
          | none => exact (bind_eq_ok.mp hr).choose_spec.2
          | some st => exact (bind_eq_ok.mp hr).choose_spec.2
        simp only [List.mem_cons, List.not_mem_nil, or_false] at hc
        rcases hc with rfl | rfl
        · exact Or.inr ⟨tw, hw⟩
        · exact Or.inr ⟨tr, hr⟩
      · subst hc
        obtain ⟨hw⟩ := option_mapM_eq_ok.mp he
        exact Or.inr ⟨_, hw⟩
  | between l a lo hi neg =>
      simp only [inferWithin, bind_eq_ok] at h
      obtain ⟨ta, ha, tl, hl, _, _, th, hh, _⟩ := h
      simp only [Expr.children, List.mem_cons, List.not_mem_nil, or_false] at hc
      rcases hc with rfl | rfl | rfl
      · exact Or.inr ⟨ta, ha⟩
      · exact Or.inr ⟨tl, hl⟩
      · exact Or.inr ⟨th, hh⟩
  | inList l a items neg =>
      simp only [inferWithin, bind_eq_ok] at h
      obtain ⟨ta, ha, _, hitems, _⟩ := h
      simp only [Expr.children, List.mem_cons] at hc
      rcases hc with rfl | hc
      · exact Or.inr ⟨ta, ha⟩
      · have hitem := forM_eq_ok.mp hitems c hc
        simp only [bind_eq_ok] at hitem
        obtain ⟨ti, hi, _⟩ := hitem
        exact Or.inr ⟨ti, hi⟩

/-- An expression with a type names only columns that the schema finds. -/
theorem resolve_of_inferWithin {t : Typing} {schema : Schema} {n : Nat} {e : Expr} {type : DataType}
    (h : t.inferWithin schema n e = .ok type) {l : Option Location} {c : ColumnRef}
    (hc : Expr.Within (.column l c) e) : ∃ found, schema.resolve c (l.getD .unknown) = .ok found := by
  induction n generalizing e type with
  | zero => cases h
  | succ n ih =>
      cases hc with
      | self =>
          simp only [inferWithin, bind_eq_ok] at h
          obtain ⟨found, hfound, _⟩ := h
          exact ⟨found, hfound⟩
      | part hmem hc =>
          rcases inferWithin_children h hmem with hw | ⟨type', h'⟩
          · -- a `*` has no parts for the column to occur in
            rename_i part
            cases part <;> simp only [Expr.isWildcard, Bool.false_eq_true] at hw
            cases hc with
            | part hmem => simp [Expr.children] at hmem
          · exact ih h' hc

theorem resolve_of_infer {t : Typing} {schema : Schema} {e : Expr} {type : DataType}
    (h : t.infer schema e = .ok type) {l : Option Location} {c : ColumnRef}
    (hc : Expr.Within (.column l c) e) : ∃ found, schema.resolve c (l.getD .unknown) = .ok found :=
  resolve_of_inferWithin h hc

/-- A condition is of type boolean, or NULL. -/
theorem checkPredicate_eq_ok {t : Typing} {schema : Schema} {clause : String} {e : Expr} :
    t.checkPredicate schema clause e = .ok () ↔
      ∃ type, t.infer schema e = .ok type ∧ (type = .boolean ∨ type = .null) := by
  unfold checkPredicate
  rw [bind_eq_ok]
  refine exists_congr fun type => and_congr_right fun _ => ?_
  split
  · simp_all
  · simp_all

theorem resolve_of_checkPredicate {t : Typing} {schema : Schema} {clause : String} {e : Expr}
    (h : t.checkPredicate schema clause e = .ok ()) {l : Option Location} {c : ColumnRef}
    (hc : Expr.Within (.column l c) e) : ∃ found, schema.resolve c (l.getD .unknown) = .ok found := by
  simp only [checkPredicate, bind_eq_ok] at h
  obtain ⟨type, htype, _⟩ := h
  exact resolve_of_infer htype hc

/-! ## Other parts of the same types -/

variable {t : Typing} {s s' : Schema} {m n : Nat} {e e' : Expr} {type : DataType}

/-- Whatever type the second expression has over the second schema, the first has over the first.
    Only a `*` stands for a `*`. -/
def Carries (t : Typing) (s : Schema) (m : Nat) (s' : Schema) (n : Nat) (e e' : Expr) : Prop :=
  e.isWildcard = e'.isWildcard ∧
    ∀ type, t.inferWithin s' n e' = .ok type → t.inferWithin s m e = .ok type

/-- The type of a node depends on its parts through their types alone. -/
theorem inferWithin_congruent (hparts : Expr.Congruent (Carries t s m s' n) e e')
    (hcolumn : ∀ l c, e ≠ .column l c) (h : t.inferWithin s' (n + 1) e' = .ok type) :
    t.inferWithin s (m + 1) e = .ok type := by
  have option : ∀ {o o' types}, Option.Rel (Carries t s m s' n) o o' →
      o'.mapM (t.inferWithin s' n) = .ok types → o.mapM (t.inferWithin s m) = .ok types := by
    intro o o' types ho hs
    cases ho with
    | none => exact hs
    | some ho =>
        rw [option_mapM_eq_ok] at hs ⊢
        cases hs with
        | some hs => exact .some (ho.2 _ hs)
  cases hparts with
  | literal l v => exact h
  | column l c => exact absurd rfl (hcolumn l c)
  | wildcard l => exact h
  | call l name d hargs =>
      simp only [inferWithin, bind_eq_ok, mapM_eq_ok] at h ⊢
      obtain ⟨signature, hs, types, htypes, h⟩ := h
      refine ⟨signature, hs, types, forall₂_comp hargs htypes ?_, h⟩
      intro a _ a' type ha h
      rw [ha.1, hargs.length_eq]
      split at h
      · rwa [if_pos ‹_›]
      · rw [if_neg ‹_›]
        exact ha.2 type h
  | case l ho hbs he =>
      simp only [inferWithin, bind_eq_ok, mapM_eq_ok] at h ⊢
      obtain ⟨subject, hsubject, results, hresults, last, hlast, h⟩ := h
      refine ⟨subject, option ho hsubject, results, forall₂_comp hbs hresults ?_, last,
        option he hlast, h⟩
      rintro ⟨w, r⟩ _ ⟨w', r'⟩ type ⟨hw, hr⟩ h
      obtain ⟨tw, htw, h⟩ := h
      refine ⟨tw, hw.2 tw htw, ?_⟩
      cases subject with
      | none =>
          simp only [bind_eq_ok] at h ⊢
          obtain ⟨u, hu, h⟩ := h
          exact ⟨u, hu, hr.2 type h⟩
      | some st =>
          simp only [bind_eq_ok] at h ⊢
          obtain ⟨u, hu, h⟩ := h
          exact ⟨u, hu, hr.2 type h⟩
  | unary l op he | cast l ty he | isNull l neg he =>
      simp only [inferWithin, bind_eq_ok] at h ⊢
      obtain ⟨ty, hty, h⟩ := h
      exact ⟨ty, he.2 ty hty, h⟩
  | arith l op ha hb | compare l op ha hb | nullIf l ha hb | like l neg ha hb =>
      simp only [inferWithin, bind_eq_ok] at h ⊢
      obtain ⟨ta, hta, tb, htb, h⟩ := h
      exact ⟨ta, ha.2 ta hta, tb, hb.2 tb htb, h⟩
  | logic l op ha hb =>
      simp only [inferWithin, bind_eq_ok] at h ⊢
      obtain ⟨ta, hta, u, hu, tb, htb, h⟩ := h
      exact ⟨ta, ha.2 ta hta, u, hu, tb, hb.2 tb htb, h⟩
  | between l neg he hlo hhi =>
      simp only [inferWithin, bind_eq_ok] at h ⊢
      obtain ⟨ty, hty, tl, htl, u, hu, th, hth, h⟩ := h
      exact ⟨ty, he.2 ty hty, tl, hlo.2 tl htl, u, hu, th, hhi.2 th hth, h⟩
  | inList l neg he hes =>
      simp only [inferWithin, bind_eq_ok, forM_eq_ok] at h ⊢
      obtain ⟨ty, hty, u, hitems, h⟩ := h
      refine ⟨ty, he.2 ty hty, u, fun i hi => ?_, h⟩
      obtain ⟨i', hi', hc⟩ := exists_right hes hi
      obtain ⟨ti, hti, hcheck⟩ := hitems i' hi'
      exact ⟨ti, hc.2 ti hti, hcheck⟩

/-- More levels than the expression is high change nothing. -/
theorem inferWithin_of_height (h : t.inferWithin s n e = .ok type) (hm : e.height ≤ m) :
    t.inferWithin s m e = .ok type := by
  induction m generalizing n e type with
  | zero =>
      have := Expr.height_pos e
      omega
  | succ m ih =>
      cases n with
      | zero => cases h
      | succ n =>
          have hself : Expr.Congruent (Carries t s m s n) e e :=
            Expr.congruent_self fun c hc =>
              ⟨rfl, fun type htype => ih htype (Expr.height_le_succ.mp hm c hc)⟩
          cases e with
          | column l c => exact h
          | _ => exact inferWithin_congruent hself (by simp) h

/-- Where a node was written does not change its type. -/
theorem inferWithin_withLoc (l : Option Location) :
    t.inferWithin s n (e.withLoc l) = .ok type ↔ t.inferWithin s n e = .ok type := by
  cases n with
  | zero => simp [inferWithin]
  | succ n =>
      cases e with
      | column l' c => simp [Expr.withLoc, inferWithin, Schema.resolve_eq_ok]
      | call l' name args d =>
          simp only [Expr.withLoc, inferWithin, signature]
          cases t.functions.lookup name with
          | none => simp
          | some _ => rfl
      | _ => rfl

theorem inferWithin_unplaced :
    t.inferWithin s n e.unplaced = .ok type ↔ t.inferWithin s n e = .ok type := by
  induction n generalizing e type with
  | zero => exact iff_of_false (fun h => by cases h) (fun h => by cases h)
  | succ n ih =>
      rw [Expr.unplaced_eq, inferWithin_withLoc]
      have hparts : Expr.Congruent (fun c c' => c' = c.unplaced) e (e.onParts Expr.unplaced) :=
        Expr.congruent_onParts fun c _ => rfl
      have hnode : (∀ l c, e ≠ .column l c) → (∀ l c, e.onParts Expr.unplaced ≠ .column l c) →
          (t.inferWithin s (n + 1) (e.onParts Expr.unplaced) = .ok type ↔
            t.inferWithin s (n + 1) e = .ok type) := by
        intro hne hne'
        constructor
        · refine inferWithin_congruent (hparts.imp ?_) hne
          rintro c _ rfl
          exact ⟨c.isWildcard_unplaced.symm, fun _ => ih.mp⟩
        · refine inferWithin_congruent (hparts.flip.imp ?_) hne'
          rintro _ c rfl
          exact ⟨c.isWildcard_unplaced, fun _ => ih.mpr⟩
      cases e with
      | column l c => rfl
      | case l o bs e => exact hnode (by simp) (by simp [Expr.onParts_case])
      | _ => exact hnode (by simp) (by simp [Expr.onParts, Expr.mapChildren])

/-- Same expressions have the same type. -/
theorem inferWithin_of_same (hsame : e.same e' = true) (h : t.inferWithin s n e = .ok type) :
    t.inferWithin s n e' = .ok type := by
  rw [← inferWithin_unplaced] at h ⊢
  rwa [← (Expr.same_iff e e').mp hsame]

end StreamSql.Typing
