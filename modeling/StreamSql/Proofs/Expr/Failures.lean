/-
  What walks over expressions fail with. Every walk counts levels of its own and fails with `tooDeep`
  when it has none left; all its other errors are about the expression itself, and none of them is
  tied to a statement. So a property of errors holds of whatever a walk fails with if it holds of the
  ordinary errors, and if the expression is no higher than the levels that the walk has or the
  property holds of `tooDeep` too. Each lemma says so of one walk: replacing (`fails_replaceWithin`),
  collecting columns (`fails_columnsWithin`), simplifying (`fails_simplifyWithin`), searching for
  aggregate calls (`fails_scanWithin`) and typing (`fails_inferWithin`).
-/
import StreamSql.Aggregation
import StreamSql.Expr.Simplify
import StreamSql.Proofs.Expr.Replace
import StreamSql.Typing

namespace StreamSql

open Outcome

/-! ## Errors -/

/-- The error is neither about depth nor tied to a statement. -/
def Error.isOrdinary : Error → Bool
  | .tooDeep _ | .within _ _ => false
  | _ => true

/-- The property holds of all ordinary errors. -/
def Error.Ordinarily (P : Error → Prop) : Prop :=
  ∀ err : Error, err.isOrdinary = true → P err

/-- The expression has at most `n` levels, unless `P` holds of the error otherwise. -/
def Expr.Spared (P : Error → Prop) (limit n : Nat) (e : Expr) : Prop :=
  e.height ≤ n ∨ P (.tooDeep limit)

variable {P : Error → Prop} {limit n : Nat} {e : Expr}

theorem Error.Ordinarily.error {α : Type} {err : Error} (hP : Error.Ordinarily P)
    (h : err.isOrdinary = true) : Fails P (.error err : Except Error α) :=
  .error (hP err h)

namespace Expr

theorem Spared.child (h : e.Spared P limit (n + 1)) {c : Expr} (hc : c ∈ e.children) :
    c.Spared P limit n :=
  h.imp_left fun hn => height_le_succ.mp hn c hc

/-- With no level left the property has to hold of the error. -/
theorem Spared.fails {α : Type} (h : e.Spared P limit 0) :
    Fails P (.error (.tooDeep limit) : Except Error α) := by
  rcases h with h | h
  · have := height_pos e
    omega
  · exact .error h

/-! ## Walks -/

/-- Building a node again fails only where one of its parts does. -/
theorem fails_mapChildren {ε : Type} {P : ε → Prop} {f : Expr → Except ε Expr}
    (h : ∀ c ∈ e.children, Fails P (f c)) : Fails P (e.mapChildren f) := by
  cases e with
  | literal | column | wildcard => exact .ok
  | call l name as d => exact .bind (.mapM h) fun _ => .ok
  | unary | cast | isNull => exact .bind (h _ List.mem_cons_self) fun _ => .ok
  | arith | compare | logic | nullIf | like =>
      refine .bind (h _ ?_) fun _ => .bind (h _ ?_) fun _ => .ok
      all_goals simp [children]
  | case l o bs e =>
      simp only [children, List.forall_mem_append] at h
      obtain ⟨⟨ho, hbs⟩, he⟩ := h
      refine .bind (.option_mapM ho) fun _ => .bind (.mapM fun b hb => ?_) fun _ =>
        .bind (.option_mapM he) fun _ => .ok
      have hb : ∀ c ∈ [b.1, b.2], Fails P (f c) := fun c hc =>
        hbs c (List.mem_flatMap.mpr ⟨b, hb, hc⟩)
      exact .bind (hb _ (by simp)) fun _ => .bind (hb _ (by simp)) fun _ => .ok
  | between l e lo hi neg =>
      refine .bind (h _ ?_) fun _ => .bind (h _ ?_) fun _ => .bind (h _ ?_) fun _ => .ok
      all_goals simp [children]
  | inList l e es neg =>
      rw [children, List.forall_mem_cons] at h
      exact .bind h.1 fun _ => .bind (.mapM h.2) fun _ => .ok

theorem fails_replaceWithin {f : Expr → Except Error (Option Expr)} (hf : ∀ c, Fails P (f c))
    (h : e.Spared P limit n) : Fails P (e.replaceWithin limit f n) := by
  induction n generalizing e with
  | zero => exact h.fails
  | succ n ih =>
      refine .bind (hf e) fun r => ?_
      cases r with
      | some r => exact .ok
      | none => exact fails_mapChildren fun c hc => ih (h.child hc)

theorem fails_columnsWithin (h : e.Spared P limit n) : Fails P (e.columnsWithin limit n) := by
  induction n generalizing e with
  | zero => exact h.fails
  | succ n ih =>
      unfold columnsWithin
      split
      · exact .ok
      · exact .bind (.mapM fun c hc => ih (h.child hc)) fun _ => .ok

/-- Simplifying writes some expressions higher than they were, so it may fail on any. -/
theorem fails_simplifyWithin (h : P (.tooDeep limit)) : Fails P (simplifyWithin limit n e) := by
  induction n generalizing e with
  | zero => exact .error h
  | succ n ih => exact .bind (fails_mapChildren fun _ _ => ih) fun _ => .ok

end Expr

/-! ## Searches for a name -/

variable (hP : Error.Ordinarily P)

include hP

theorem Schema.fails_resolve (s : Schema) (c : ColumnRef) (l : Location) :
    Fails P (s.resolve c l) := by
  unfold Schema.resolve
  split
  · exact hP.error rfl
  · split
    · exact hP.error rfl
    · exact .ok
    · exact hP.error rfl

namespace Aggregation

variable {functions : Registry}

theorem fails_isCall : Fails P (isCall functions e) := by
  unfold isCall
  split
  · split
    · exact .ok
    · exact hP.error rfl
  · exact .ok

theorem fails_scanWithin (h : e.Spared P limit n) : Fails P (scanWithin functions limit n e) := by
  induction n generalizing e with
  | zero => exact h.fails
  | succ n ih =>
      refine .bind (fails_isCall hP) fun aggregate => .ite .ok ?_
      exact .bind (.mapM fun c hc => ih (h.child hc)) fun _ => .ok

end Aggregation

/-! ## Types -/

namespace DataType

theorem fails_unify (l r : DataType) : Fails P (unify l r) := by
  unfold unify
  refine .ite .ok (.ite .ok ?_)
  split
  · exact .ok
  · exact hP.error rfl

theorem fails_caseType (types : List DataType) : Fails P (caseType types) := by
  unfold caseType
  split
  · exact .ok
  · exact .foldlM fun t _ common => fails_unify hP common t

theorem fails_checkComparable (l r : DataType) : Fails P (checkComparable l r) :=
  .ite .ok (hP.error rfl)

theorem fails_checkBoolean (place : String) (t : DataType) : Fails P (checkBoolean place t) :=
  .ite .ok (hP.error rfl)

theorem fails_checkLike (side : String) (t : DataType) : Fails P (checkLike side t) :=
  .ite .ok (hP.error rfl)

end DataType

namespace Signature

theorem fails_checkString (s : Signature) (args : List DataType) :
    Fails P (s.checkString args) := by
  unfold checkString
  split
  · exact .ite (hP.error rfl) .ok
  · exact .ok

theorem fails_resultType (s : Signature) (args : List DataType) :
    Fails P (s.resultType args) := by
  unfold resultType
  refine .ite (hP.error rfl) ?_
  split
  all_goals first | exact .ok | exact .ite .ok (hP.error rfl)

end Signature

namespace Typing

open DataType

variable {t : Typing} {schema : Schema}

theorem fails_signature (functions : Registry) (name : String) (l : Option Location) :
    Fails P (signature functions name l) := by
  unfold signature
  split
  · exact .ok
  · exact hP.error rfl

theorem fails_inferWithin (h : e.Spared P t.limit n) : Fails P (t.inferWithin schema n e) := by
  induction n generalizing e with
  | zero => exact h.fails
  | succ n ih =>
      have hparts : ∀ c ∈ e.children, Fails P (t.inferWithin schema n c) := fun c hc =>
        ih (h.child hc)
      clear ih h
      cases e with
      | literal l v => exact .ok
      | column l c => exact .bind (schema.fails_resolve hP _ _) fun _ => .ok
      | wildcard l => exact hP.error rfl
      | call l name args d =>
          refine .bind (fails_signature hP _ _ _) fun s => .bind (.mapM fun a ha => ?_) fun types =>
            .bind (s.fails_checkString hP types) fun _ => s.fails_resultType hP types
          exact .ite (.ite .ok (hP.error rfl)) (hparts a ha)
      | unary l op e =>
          refine .bind (hparts e List.mem_cons_self) fun type => ?_
          cases op with
          | not => exact .bind (fails_checkBoolean hP _ _) fun _ => .ok
          | _ => exact .ite .ok (hP.error rfl)
      | arith l a op b =>
          refine .bind (hparts a (by simp [Expr.children])) fun ta =>
            .bind (hparts b (by simp [Expr.children])) fun tb => ?_
          cases arith? ta tb with
          | some type => exact .ok
          | none => exact hP.error rfl
      | compare l a op b =>
          exact .bind (hparts a (by simp [Expr.children])) fun ta =>
            .bind (hparts b (by simp [Expr.children])) fun tb =>
            .bind (fails_checkComparable hP ta tb) fun _ => .ok
      | logic l a op b =>
          exact .bind (hparts a (by simp [Expr.children])) fun ta =>
            .bind (fails_checkBoolean hP _ ta) fun _ =>
            .bind (hparts b (by simp [Expr.children])) fun tb =>
            .bind (fails_checkBoolean hP _ tb) fun _ => .ok
      | nullIf l a b =>
          exact .bind (hparts a (by simp [Expr.children])) fun ta =>
            .bind (hparts b (by simp [Expr.children])) fun tb =>
            .bind (fails_checkComparable hP ta tb) fun _ => .ok
      | case l operand branches otherwise =>
          simp only [Expr.children, List.forall_mem_append] at hparts
          obtain ⟨⟨hoperand, hbranches⟩, hotherwise⟩ := hparts
          refine .bind (.option_mapM hoperand) fun subject => .bind (.mapM fun b hb => ?_) fun _ =>
            .bind (.option_mapM hotherwise) fun _ => fails_caseType hP _
          have hb : ∀ c ∈ [b.1, b.2], Fails P (t.inferWithin schema n c) := fun c hc =>
            hbranches c (List.mem_flatMap.mpr ⟨b, hb, hc⟩)
          refine .bind (hb b.1 (by simp)) fun tw => ?_
          cases subject with
          | none => exact .bind (fails_checkBoolean hP _ _) fun _ => hb b.2 (by simp)
          | some st => exact .bind (fails_checkComparable hP _ _) fun _ => hb b.2 (by simp)
      | cast l e type => exact .bind (hparts e List.mem_cons_self) fun _ => .ok
      | isNull l e neg => exact .bind (hparts e List.mem_cons_self) fun _ => .ok
      | between l e low high neg =>
          exact .bind (hparts e (by simp [Expr.children])) fun ty =>
            .bind (hparts low (by simp [Expr.children])) fun tl =>
            .bind (fails_checkComparable hP ty tl) fun _ =>
            .bind (hparts high (by simp [Expr.children])) fun th =>
            .bind (fails_checkComparable hP ty th) fun _ => .ok
      | like l e p neg =>
          exact .bind (hparts e (by simp [Expr.children])) fun value =>
            .bind (hparts p (by simp [Expr.children])) fun pattern =>
            .bind (fails_checkLike hP _ value) fun _ =>
            .bind (fails_checkLike hP _ pattern) fun _ => .ok
      | inList l e items neg =>
          rw [Expr.children, List.forall_mem_cons] at hparts
          refine .bind hparts.1 fun ty => .bind (.forM fun i hi => ?_) fun _ => .ok
          exact .bind (hparts.2 i hi) fun _ => fails_checkComparable hP _ _

theorem fails_infer (h : e.Spared P t.limit t.limit) : Fails P (t.infer schema e) :=
  fails_inferWithin hP h

theorem fails_checkPredicate {clause : String} (h : e.Spared P t.limit t.limit) :
    Fails P (t.checkPredicate schema clause e) :=
  .bind (fails_infer hP h) fun _ => .ite .ok (hP.error rfl)

end Typing

end StreamSql
