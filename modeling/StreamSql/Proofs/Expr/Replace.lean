/-
  What replacing does to an expression. At each node there is a replacement, or the node is built
  again over what became of its parts (`replaceWithin_eq_ok`); no other statement opens the walk.

  The height of an expression is the number of levels that a walk needs. A walk that ends went over
  at most so many levels as it had, so what it gives is no higher than that as long as replacements
  are single nodes (`height_of_replaceWithin`).
-/
import StreamSql.Proofs.Expr.Parts

namespace StreamSql.Expr

open Outcome

/-! ## Height -/

theorem heightList_le {es : List Expr} {n : Nat} :
    heightList es ≤ n ↔ ∀ c ∈ es, c.height ≤ n := by
  induction es with
  | nil => simp [heightList]
  | cons e es ih => rw [heightList, List.forall_mem_cons, ← ih, Nat.max_le]

theorem heightBranches_le {bs : List (Expr × Expr)} {n : Nat} :
    heightBranches bs ≤ n ↔ ∀ c ∈ bs.flatMap fun b => [b.1, b.2], c.height ≤ n := by
  induction bs with
  | nil => simp [heightBranches]
  | cons b bs ih =>
      obtain ⟨w, t⟩ := b
      simp only [heightBranches, List.flatMap_cons, List.cons_append, List.nil_append,
        List.forall_mem_cons, ← ih]
      omega

theorem heightOption_le {o : Option Expr} {n : Nat} :
    heightOption o ≤ n ↔ ∀ c ∈ o.toList, c.height ≤ n := by
  cases o with
  | none => simp [heightOption]
  | some e => simp [heightOption]

/-- A node is one level higher than its highest part. -/
theorem height_le_succ {e : Expr} {n : Nat} :
    e.height ≤ n + 1 ↔ ∀ c ∈ e.children, c.height ≤ n := by
  cases e with
  | literal | column | wildcard => simp [height, children]
  | call l name as d => simp [height, children, heightList_le]
  | unary | cast | isNull => simp [height, children]
  | arith | compare | logic | nullIf | like | between =>
      simp only [height, children, List.forall_mem_cons, List.not_mem_nil, false_imp_iff, implies_true,
        and_true]
      omega
  | case l o bs e =>
      simp only [height, children, List.forall_mem_append, ← heightOption_le, ← heightBranches_le]
      omega
  | inList l e es neg =>
      simp only [height, children, List.forall_mem_cons, ← heightList_le]
      omega

/-! ## Replacing -/

variable {limit n : Nat} {f g : Expr → Except Error (Option Expr)} {e e' : Expr}

/-- A node has a replacement, or it stays and its parts are gone over. -/
theorem replaceWithin_eq_ok :
    replaceWithin limit f (n + 1) e = .ok e' ↔
      f e = .ok (some e') ∨
        f e = .ok none ∧ Congruent (fun c c' => replaceWithin limit f n c = .ok c') e e' := by
  rw [replaceWithin, bind_eq_ok, ← mapChildren_eq_ok]
  constructor
  · rintro ⟨r, hr, h⟩
    cases r with
    | some r =>
        cases h
        exact Or.inl hr
    | none => exact Or.inr ⟨hr, h⟩
  · rintro (hr | ⟨hr, h⟩)
    · exact ⟨_, hr, rfl⟩
    · exact ⟨_, hr, h⟩

/-- What is put in counts as one level. -/
theorem height_of_replaceWithin (hf : ∀ c r, f c = .ok (some r) → r.height ≤ 1)
    (h : replaceWithin limit f n e = .ok e') : e'.height ≤ n := by
  induction n generalizing e e' with
  | zero => cases h
  | succ n ih =>
      rcases replaceWithin_eq_ok.mp h with hr | ⟨_, hparts⟩
      · have := hf e e' hr
        omega
      · rw [height_le_succ]
        intro c' hc'
        obtain ⟨c, _, hc⟩ := exists_left hparts.children hc'
        exact ih hc

/-- Replacing by a rule that answers wherever another one does. -/
theorem replaceWithin_mono (hfg : ∀ c r, f c = .ok r → g c = .ok r)
    (h : replaceWithin limit f n e = .ok e') : replaceWithin limit g n e = .ok e' := by
  induction n generalizing e e' with
  | zero => cases h
  | succ n ih =>
      refine replaceWithin_eq_ok.mpr ?_
      rcases replaceWithin_eq_ok.mp h with hr | ⟨hr, hparts⟩
      · exact Or.inl (hfg e _ hr)
      · exact Or.inr ⟨hfg e _ hr, hparts.imp fun c c' hc => ih hc⟩

/-- An expression in which nothing is replaced by anything else stays. -/
theorem replaceWithin_self (hf : ∀ c, Within c e → f c = .ok none ∨ f c = .ok (some c))
    (hn : e.height ≤ n) : replaceWithin limit f n e = .ok e := by
  induction n generalizing e with
  | zero =>
      have := height_pos e
      omega
  | succ n ih =>
      rw [replaceWithin_eq_ok]
      rcases hf e .self with h | h
      · refine Or.inr ⟨h, congruent_self fun c hc => ?_⟩
        exact ih (fun d hd => hf d (.part hc hd)) (height_le_succ.mp hn c hc)
      · exact Or.inl h

end StreamSql.Expr
