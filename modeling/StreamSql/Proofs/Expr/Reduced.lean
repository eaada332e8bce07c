/-
  What simplification leaves. An expression is `Reduced` if no node of it gives way to a value and no
  NULLIF is left in it. A pass gives a reduced expression (`reduced_of_simplifyWithin`), because what
  folding puts in the place of a node over reduced parts is a constant, one of those parts, or a node
  that folds no further; and a reduced expression is one that a pass leaves alone
  (`simplify_eq_self_iff`). So one pass is enough (`simplify_reduced`).

  A pass writes the first side of a NULLIF twice and drops what is not needed, but it makes up no
  column (`column_of_simplifyWithin`).
-/
import StreamSql.Proofs.Expr.Folding

namespace StreamSql.Expr

open Outcome

variable {limit n : Nat} {e e' r : Expr} {c : ColumnRef} {l l' : Option Location}

/-! ## Reduced expressions -/

/-- No node of the expression gives way to a value, and none is a NULLIF. -/
def Reduced (e : Expr) : Prop :=
  ∀ s, Within s e → s.folded? = none ∧ ∀ l a b, s ≠ .nullIf l a b

theorem reduced_node :
    Reduced e ↔ (e.folded? = none ∧ ∀ l a b, e ≠ .nullIf l a b) ∧ ∀ c ∈ e.children, Reduced c := by
  constructor
  · intro h
    exact ⟨h e .self, fun c hc s hs => h s (.part hc hs)⟩
  · rintro ⟨hnode, hparts⟩ s hs
    cases hs with
    | self => exact hnode
    | part member inner => exact hparts _ member s inner

theorem folded?_withLoc (l : Option Location) (e : Expr) : (e.withLoc l).folded? = e.folded? := by
  cases e with
  | case l' o bs els => cases o <;> rfl
  | _ => rfl

theorem Reduced.withLoc (h : Reduced e) (l : Option Location) : Reduced (e.withLoc l) := by
  rw [reduced_node] at h ⊢
  obtain ⟨⟨hfolded, hnode⟩, hparts⟩ := h
  rw [folded?_withLoc, children_withLoc]
  refine ⟨⟨hfolded, fun l' a b hmoved => ?_⟩, hparts⟩
  cases e with
  | nullIf l a b => exact hnode l a b rfl
  | _ => cases hmoved

/-- Over reduced parts, folding gives a reduced expression. -/
theorem reduced_of_folds (h : Folds e r) (hnode : ∀ l a b, e ≠ .nullIf l a b)
    (hparts : ∀ c ∈ e.children, Reduced c) : Reduced r := by
  rcases outcome_of_folds h with ⟨l, v, rfl⟩ | ⟨c, hc, l, rfl⟩ | ⟨hfolded, hr, hsub⟩
  · rw [reduced_node]
    simp [folded?, children]
  · exact (hparts c hc).withLoc l
  · refine reduced_node.mpr ⟨⟨hfolded, ?_⟩, fun c hc => hparts c (hsub c hc)⟩
    rcases hr with rfl | ⟨l, bs, els, rfl⟩
    · exact hnode
    · simp

/-! ## One pass -/

/-- A pass gives a reduced expression. -/
theorem reduced_of_simplifyWithin (h : simplifyWithin limit n e = .ok e') : Reduced e' := by
  induction n generalizing e e' with
  | zero => cases h
  | succ n ih =>
      obtain ⟨r, hparts, rfl⟩ := simplifyWithin_eq_ok.mp h
      refine reduced_of_folds (folds_fold r) ?_ fun c' hc' => ?_
      · -- the node was written out before its parts were simplified
        rintro l a b rfl
        generalize hx : e.expand = x at hparts
        cases hparts
        exact expand_ne_nullIf hx
      · obtain ⟨c, _, hc⟩ := exists_left hparts.children hc'
        exact ih hc

/-- A pass leaves a reduced expression alone. -/
theorem simplifyWithin_of_reduced (h : Reduced e) (hn : e.height ≤ n) :
    simplifyWithin limit n e = .ok e := by
  induction n generalizing e with
  | zero =>
      have := height_pos e
      omega
  | succ n ih =>
      obtain ⟨⟨hfolded, hnode⟩, hparts⟩ := reduced_node.mp h
      have hexpand : e.expand = e := by
        cases e with
        | nullIf l a b => exact absurd rfl (hnode l a b)
        | _ => rfl
      have hfold : e = e.fold := by
        unfold fold
        rw [hfolded]
      refine simplifyWithin_eq_ok.mpr ⟨e, ?_, hfold⟩
      rw [hexpand]
      exact congruent_self fun c hc => ih (hparts c hc) (height_le_succ.mp hn c hc)

/-- The expressions that simplification leaves alone. -/
theorem simplify_eq_self_iff : e.simplify limit = .ok e ↔ Reduced e ∧ e.height ≤ limit := by
  constructor
  · intro h
    exact ⟨reduced_of_simplifyWithin h, height_of_simplifyWithin h⟩
  · rintro ⟨hreduced, hheight⟩
    exact simplifyWithin_of_reduced hreduced hheight

theorem simplify_again (h : e.simplify limit = .ok e') : e'.simplify limit = .ok e' :=
  simplify_eq_self_iff.mpr ⟨reduced_of_simplifyWithin h, height_of_simplifyWithin h⟩

/-! ## Columns -/

theorem column_of_withLoc (h : Within (.column l c) (e.withLoc l')) :
    ∃ l', Within (.column l' c) e := by
  generalize hx : e.withLoc l' = x at h
  cases h with
  | self =>
      cases e with
      | column l d =>
          cases hx
          exact ⟨l, .self⟩
      | _ => cases hx
  | part member inner =>
      rw [← hx, children_withLoc] at member
      exact ⟨l, .part member inner⟩

theorem column_of_folds (h : Folds e r) (hc : Within (.column l c) r) :
    ∃ l', Within (.column l' c) e := by
  rcases outcome_of_folds h with ⟨l', v, rfl⟩ | ⟨d, hd, l', rfl⟩ | ⟨_, hr, hsub⟩
  · cases hc with
    | part member => simp [children] at member
  · obtain ⟨l', hc⟩ := column_of_withLoc hc
    exact ⟨l', .part hd hc⟩
  · cases hc with
    | self =>
        rcases hr with rfl | ⟨_, _, _, hr⟩
        · exact ⟨l, .self⟩
        · cases hr
    | part member inner => exact ⟨l, .part (hsub _ member) inner⟩

/-- The columns of a simplified expression are columns of the expression. -/
theorem column_of_simplifyWithin (h : simplifyWithin limit n e = .ok e')
    (hc : Within (.column l c) e') : ∃ l', Within (.column l' c) e := by
  induction n generalizing e e' l with
  | zero => cases h
  | succ n ih =>
      obtain ⟨r, hparts, rfl⟩ := simplifyWithin_eq_ok.mp h
      obtain ⟨l, hc⟩ := column_of_folds (folds_fold r) hc
      have hexpand : ∃ l', Within (.column l' c) e.expand := by
        cases hc with
        | self =>
            generalize e.expand = x at hparts
            cases hparts
            exact ⟨l, .self⟩
        | part member inner =>
            obtain ⟨d, hd, hs⟩ := exists_left hparts.children member
            obtain ⟨l', hc⟩ := ih hs inner
            exact ⟨l', .part hd hc⟩
      -- writing out a NULLIF adds nodes, none of them a column
      obtain ⟨l', hc⟩ := hexpand
      rcases within_expand hc with hc | ⟨_, _, _, hc | hc | hc⟩
      · exact ⟨l', hc⟩
      all_goals cases hc

/-! ## The normal form -/

/-- **Simplification takes one pass.** Its result has no NULLIF, is within the limit, names only
    columns of the expression, and is what simplifying it again gives. -/
theorem simplify_reduced (h : e.simplify limit = .ok e') :
    (∀ l a b, ¬Within (.nullIf l a b) e') ∧ e'.height ≤ limit ∧
      (∀ l c, Within (.column l c) e' → ∃ l', Within (.column l' c) e) ∧
      e'.simplify limit = .ok e' := by
  refine ⟨fun l a b hw => ?_, height_of_simplifyWithin h, fun l c => column_of_simplifyWithin h,
    simplify_again h⟩
  exact (reduced_of_simplifyWithin h _ hw).2 l a b rfl

/-- `CASE WHEN NULLIF(level, 1 + 1) > 0 AND TRUE THEN sensor WHEN 1 = 2 THEN tag END` -/
def alarm : Expr :=
  .searchedCase
    [(.logic none (.compare none
        (.nullIf none (.col "level") (.arith none (.lit (.integer 1)) .add (.lit (.integer 1))))
        .gt (.lit (.integer 0))) .and (.lit (.boolean true)), .col "sensor"),
      (.compare none (.lit (.integer 1)) .eq (.lit (.integer 2)), .col "tag")] none

/-- `CASE WHEN CASE WHEN level = 2 THEN NULL ELSE level END > 0 THEN sensor END` -/
def alarmReduced : Expr :=
  .searchedCase
    [(.compare none (.searchedCase
        [(.compare none (.col "level") .eq (.lit (.integer 2)), .null)] (some (.col "level")))
        .gt (.lit (.integer 0)), .col "sensor")] none

theorem simplify_reduced_alarm :
    alarm.simplify 7 = .ok alarmReduced ∧ (∀ l a b, ¬Within (.nullIf l a b) alarmReduced) ∧
      alarmReduced.height ≤ 7 ∧ (∀ l c, Within (.column l c) alarmReduced →
        ∃ l', Within (.column l' c) alarm) ∧
      alarmReduced.simplify 7 = .ok alarmReduced := by
  have hsimplify : alarm.simplify 7 = .ok alarmReduced := rfl
  exact ⟨hsimplify, simplify_reduced hsimplify⟩

end StreamSql.Expr
