/-
  Simplification keeps the meaning of an expression: on every row and under every interpretation of
  functions and predicates, a simplified expression has the value that the expression had
  (`eval_simplify`). The converse fails: `FALSE AND 1 / 0` is an error and simplifies to FALSE, so
  everything is stated as refinement, value for value.

  A pass over a node has three steps, and each refines: NULLIF becomes a case (`eval_expand`), the
  parts are simplified (`refines_of_congruent`), and the node is folded (`refines_fold`).
-/
import StreamSql.Proofs.Expr.Folding
import StreamSql.Proofs.Expr.Value

namespace StreamSql

open Outcome

/-! ## Operators on constants -/

namespace Literal

theorem toInt_of_wide? {i : Int} {x : Int64} (h : wide? i = some x) : x.toInt = i := by
  unfold wide? at h
  split at h
  · rename_i hi
    cases h
    rw [Int64.toInt_minValue, Int64.toInt_maxValue] at hi
    exact Int64.toInt_ofInt_of_le hi.1 (by omega)
  · cases h

theorem wide?_toInt (x : Int64) : wide? x.toInt = some x := by
  unfold wide?
  rw [if_pos ⟨x.minValue_le_toInt, x.toInt_le⟩, Int64.ofInt_toInt]

/-- What the arithmetic of 64-bit integers gives is the result on unbounded integers. -/
theorem onInts_of_arithInt {op : ArithOp} {a b x : Int64} (h : arithInt op a b = some x) :
    op.onInts a.toInt b.toInt = some x.toInt := by
  have zero : b = 0 ↔ b.toInt = 0 := by
    rw [← Int64.toInt_inj]
    rfl
  cases op with
  | add | subtract | multiply =>
      simp only [arithInt] at h
      simp only [ArithOp.onInts, toInt_of_wide? h]
  | divide =>
      simp only [arithInt] at h
      split at h
      · cases h
      · rename_i hb
        simp only [ArithOp.onInts, toInt_of_wide? h, if_neg (zero.not.mp hb)]
  | modulo =>
      simp only [arithInt] at h
      split at h
      · cases h
      · rename_i hb
        have hb : b ≠ 0 := fun hz => hb (Or.inl hz)
        simp only [ArithOp.onInts, toInt_of_wide? h, if_neg (zero.not.mp hb)]

/-- Reading a comparison off the order of two elements is deciding it. -/
theorem holds_order {β : Type} [LinearOrder β] (op : CompareOp) (a b : β) :
    holds op (if a < b then .lt else if a = b then .eq else .gt) = op.decides a b := by
  rcases lt_trichotomy a b with h | rfl | h
  · rw [if_pos h]
    cases op <;> simp [holds, CompareOp.decides, h, h.ne, h.le, h.not_gt, h.not_ge]
  · rw [if_neg (lt_irrefl a), if_pos rfl]
    cases op <;> simp [holds, CompareOp.decides]
  · rw [if_neg h.not_gt, if_neg h.ne']
    cases op <;> simp [holds, CompareOp.decides, h, h.ne', h.le, h.not_gt, h.not_ge]

end Literal

namespace Interpretation

open StreamSql.Expr (bool? decisive foldLogic_eq)

variable {α : Type} (I : Interpretation α)

theorem unaryOn_known {op : UnaryOp} {v u : Literal} (h : Literal.unary op v = some u) :
    I.unaryOn op (.known v) = some (.known u) := by
  cases v with
  | null =>
      cases h
      cases op <;> rfl
  | boolean b =>
      cases op with
      | not =>
          cases h
          rfl
      | minus | plus => cases h
  | integer i =>
      cases op with
      | minus =>
          obtain ⟨x, hx, rfl⟩ := Option.map_eq_some_iff.mp h
          simp [unaryOn, Value.ofInt, hx]
      | plus =>
          cases h
          rfl
      | not => cases h
  | bigint i =>
      cases op with
      | minus =>
          obtain ⟨x, hx, rfl⟩ := Option.map_eq_some_iff.mp h
          simp [unaryOn, Value.ofInt, hx]
      | plus =>
          cases h
          rfl
      | not => cases h
  | double d =>
      cases op with
      | minus | plus =>
          cases h
          rfl
      | not => cases h
  | string s => cases op <;> cases h

theorem onNumbers_of_arithNumber {op : ArithOp} {m n : Number} {u : Literal}
    (h : Literal.arithNumber op m n = some u) :
    op.onNumbers m n = some (.known u : Value α) := by
  unfold Literal.arithNumber at h
  unfold ArithOp.onNumbers
  split at h
  · obtain ⟨x, hx, h⟩ := Option.bind_eq_some_iff.mp h
    simp only [Literal.onInts_of_arithInt hx, Option.bind_eq_bind, Option.bind_some, Value.ofInt]
    split at h
    · rename_i narrow
      obtain ⟨y, hy, h⟩ := Option.bind_eq_some_iff.mp h
      cases h
      rw [if_pos narrow, hy]
      rfl
    · rename_i narrow
      cases h
      rw [if_neg narrow, Literal.wide?_toInt]
      rfl
  · obtain ⟨d, hd, h⟩ := Option.bind_eq_some_iff.mp h
    cases h
    simp [hd]

theorem arithOn_known {op : ArithOp} {v w u : Literal} (h : Literal.arith op v w = some u) :
    I.arithOn op (.known v) (.known w) = some (.known u) := by
  unfold Literal.arith at h
  split at h
  · cases h
    rfl
  · cases h
    cases v <;> rfl
  · split at h
    · rename_i hop
      cases h
      simp [arithOn, hop]
    · cases h
  · obtain ⟨m, hm, h⟩ := Option.bind_eq_some_iff.mp h
    obtain ⟨n, hn, h⟩ := Option.bind_eq_some_iff.mp h
    simp only [arithOn, hm, hn, onNumbers_of_arithNumber h]

theorem decides_toNat (op : CompareOp) (a b : Bool) :
    op.decides (a.toNat : Int) (b.toNat : Int) = op.decides a b := by
  cases op <;> cases a <;> cases b <;> rfl

theorem compareOn_known {op : CompareOp} {v w u : Literal} (h : Literal.compare op v w = some u) :
    I.compareOn op (.known v) (.known w) = some (.known u) := by
  unfold Literal.compare at h
  split at h
  · cases h
    rfl
  · cases h
    cases v <;> rfl
  · obtain ⟨o, ho, h⟩ := Option.bind_eq_some_iff.mp h
    cases h
    unfold Literal.order? at ho
    split at ho
    · cases ho
      simp only [compareOn, Literal.orderText, Literal.holds_order, Value.bool]
    · cases ho
      simp only [compareOn, Literal.orderInt, Literal.holds_order, decides_toNat, Value.bool]
    · obtain ⟨m, hm, ho⟩ := Option.bind_eq_some_iff.mp ho
      obtain ⟨n, hn, ho⟩ := Option.bind_eq_some_iff.mp ho
      have ht : op.onNumbers m n = some (Literal.holds op o) := by
        unfold CompareOp.onNumbers
        split at ho
        · cases ho
          simp only [Literal.orderInt, Literal.holds_order]
        · simp [ho]
      simp only [compareOn, hm, hn, ht, Value.bool]

/-! ## The steps of a pass -/

/-- The second expression has every value that the first one has. -/
def Refines (e e' : Expr) : Prop :=
  ∀ v, I.eval e = some v → I.eval e' = some v

/-- NULLIF means what its case means. -/
theorem eval_expand (e : Expr) : I.eval e.expand = I.eval e := by
  cases e with
  | nullIf l a b =>
      simp only [Expr.expand, eval_withLoc, Expr.nullIfCase, Expr.searchedCase, Expr.null, Expr.lit,
        eval, evalSearched, evalLast]
      cases ha : I.eval a with
      | none => rfl
      | some v =>
          cases hb : I.eval b with
          | none => rfl
          | some w => rfl
  | _ => rfl

theorem evalList_refines {es es' : List Expr} (h : List.Forall₂ I.Refines es es')
    {vs : List (Value α)} (hv : I.evalList es = some vs) : I.evalList es' = some vs := by
  induction h generalizing vs with
  | nil => exact hv
  | cons he _ ih =>
      simp only [evalList, Option.bind_eq_bind, Option.bind_eq_some_iff] at hv
      obtain ⟨v, hv, vs', hvs, h⟩ := hv
      simp only [evalList, he v hv, ih hvs, Option.bind_eq_bind, Option.bind_some]
      exact h

theorem evalBranches_refines {bs bs' : List (Expr × Expr)}
    (h : List.Forall₂ (Expr.BranchRel I.Refines) bs bs') {vs : List (Value α × Value α)}
    (hv : I.evalBranches bs = some vs) : I.evalBranches bs' = some vs := by
  induction h generalizing vs with
  | nil => exact hv
  | @cons b b' _ _ hb _ ih =>
      simp only [evalBranches, Option.bind_eq_bind, Option.bind_eq_some_iff] at hv
      obtain ⟨w, hw, t, ht, vs', hvs, h⟩ := hv
      simp only [evalBranches, hb.1 w hw, hb.2 t ht, ih hvs, Option.bind_eq_bind, Option.bind_some]
      exact h

/-- A case stays lazy: the branch that was taken still is, and those before it still are not. -/
theorem evalSearched_refines {bs bs' : List (Expr × Expr)}
    (h : List.Forall₂ (Expr.BranchRel I.Refines) bs bs') {last last' : Option (Value α)}
    (hl : ∀ v, last = some v → last' = some v) {v : Value α}
    (hv : I.evalSearched last bs = some v) : I.evalSearched last' bs' = some v := by
  induction h with
  | nil => exact hl v hv
  | @cons b b' _ _ hb _ ih =>
      simp only [evalSearched, Option.bind_eq_bind, Option.bind_eq_some_iff] at hv
      obtain ⟨w, hw, hv⟩ := hv
      simp only [evalSearched, hb.1 w hw, Option.bind_eq_bind, Option.bind_some]
      split at hv
      · rename_i hw
        rw [if_pos hw]
        exact hb.2 v hv
      · rename_i hw
        rw [if_neg hw]
        exact ih hv

theorem evalLast_refines {o o' : Option Expr} (h : Option.Rel I.Refines o o') (v : Value α)
    (hv : I.evalLast o = some v) : I.evalLast o' = some v := by
  cases h with
  | none => exact hv
  | some he => exact he v hv

theorem evalOption_refines {o o' : Option Expr} (h : Option.Rel I.Refines o o')
    {v : Option (Value α)} (hv : I.evalOption o = some v) : I.evalOption o' = some v := by
  cases h with
  | none => exact hv
  | some he =>
      simp only [evalOption, Option.bind_eq_bind, Option.bind_eq_some_iff] at hv
      obtain ⟨w, hw, hv⟩ := hv
      simp only [evalOption, he w hw, Option.bind_eq_bind, Option.bind_some]
      exact hv

/-- A node over refined parts refines the node. -/
theorem refines_of_congruent {e e' : Expr} (h : Expr.Congruent I.Refines e e') :
    I.Refines e e' := by
  intro v hv
  cases h with
  | literal | column | wildcard => exact hv
  | call l n d has =>
      simp only [eval, Option.bind_eq_bind, Option.bind_eq_some_iff] at hv
      obtain ⟨vs, hvs, hv⟩ := hv
      simp only [eval, I.evalList_refines has hvs, Option.bind_eq_bind, Option.bind_some, hv]
  | unary _ _ he | cast _ _ he | isNull _ _ he =>
      simp only [eval, Option.bind_eq_bind, Option.bind_eq_some_iff] at hv
      obtain ⟨w, hw, hv⟩ := hv
      simp only [eval, he w hw, Option.bind_eq_bind, Option.bind_some, hv]
  | arith _ _ ha hb | compare _ _ ha hb | logic _ _ ha hb | like _ _ ha hb =>
      simp only [eval, Option.bind_eq_bind, Option.bind_eq_some_iff] at hv
      obtain ⟨x, hx, y, hy, hv⟩ := hv
      simp only [eval, ha x hx, hb y hy, Option.bind_eq_bind, Option.bind_some, hv]
  | nullIf _ ha hb =>
      simp only [eval, Option.bind_eq_bind, Option.bind_eq_some_iff] at hv
      obtain ⟨x, hx, y, hy, t, ht, hv⟩ := hv
      simp only [eval, ha x hx, hb y hy, ht, Option.bind_eq_bind, Option.bind_some, hv]
  | between _ _ ha hb hc =>
      simp only [eval, Option.bind_eq_bind, Option.bind_eq_some_iff] at hv
      obtain ⟨x, hx, y, hy, z, hz, hv⟩ := hv
      simp only [eval, ha x hx, hb y hy, hc z hz, Option.bind_eq_bind, Option.bind_some, hv]
  | inList _ _ he hes =>
      simp only [eval, Option.bind_eq_bind, Option.bind_eq_some_iff] at hv
      obtain ⟨x, hx, vs, hvs, hv⟩ := hv
      simp only [eval, he x hx, I.evalList_refines hes hvs, Option.bind_eq_bind, Option.bind_some, hv]
  | case l ho hbs he =>
      cases ho with
      | none =>
          simp only [eval] at hv ⊢
          exact I.evalSearched_refines hbs (I.evalLast_refines he) hv
      | some ho =>
          simp only [eval, Option.bind_eq_bind, Option.bind_eq_some_iff] at hv
          obtain ⟨x, hx, vs, hvs, y, hy, hv⟩ := hv
          simp only [eval, ho x hx, I.evalBranches_refines hbs hvs, I.evalOption_refines he hy,
            Option.bind_eq_bind, Option.bind_some, hv]

/-! ## Folding -/

theorem ofTruth_of_truth? {a : Value α} {t : Option Bool} (h : a.truth? = some t) :
    Value.ofTruth t = a := by
  unfold Value.truth? at h
  split at h <;> cases h <;> rfl

/-- A connective whose value is known has a truth value on each side. -/
theorem logic_inv {l : Option Location} {a b : Expr} {op : LogicOp} {v : Value α}
    (h : I.eval (.logic l a op b) = some v) :
    ∃ s t, I.eval a = some (.ofTruth s) ∧ I.eval b = some (.ofTruth t) ∧
      v = .ofTruth (op.onTruth s t) := by
  simp only [eval, logicOn, Option.bind_eq_bind, Option.bind_eq_some_iff] at h
  obtain ⟨x, hx, y, hy, s, hs, t, ht, h⟩ := h
  cases h
  refine ⟨s, t, ?_, ?_, rfl⟩
  · rw [ofTruth_of_truth? hs, hx]
  · rw [ofTruth_of_truth? ht, hy]

theorem eval_of_bool? {e : Expr} {t : Bool} (h : bool? e = some t) :
    I.eval e = some (.ofTruth (some t)) := by
  unfold bool? at h
  split at h
  · rename_i hl
    cases h
    exact I.eval_of_literal? hl
  · cases h

theorem ofTruth_inj {s t : Option Bool} (h : (Value.ofTruth s : Value α) = .ofTruth t) : s = t := by
  cases s <;> cases t <;> simp_all [Value.ofTruth, Value.null, Value.bool]

theorem onTruth_decisive_left (op : LogicOp) (t : Option Bool) :
    op.onTruth (some (decisive op)) t = some (decisive op) := by
  cases op <;> rfl

theorem onTruth_decisive_right (op : LogicOp) (s : Option Bool) :
    op.onTruth s (some (decisive op)) = some (decisive op) := by
  cases op <;> rcases s with _ | _ | _ <;> rfl

theorem onTruth_idle_left {op : LogicOp} {b : Bool} (h : b ≠ decisive op) (t : Option Bool) :
    op.onTruth (some b) t = t := by
  cases op <;> cases b <;> rcases t with _ | _ | _ <;> first | rfl | exact absurd rfl h

theorem onTruth_idle_right {op : LogicOp} {b : Bool} (h : b ≠ decisive op) (s : Option Bool) :
    op.onTruth s (some b) = s := by
  cases op <;> cases b <;> rcases s with _ | _ | _ <;> first | rfl | exact absurd rfl h

theorem refines_foldLogic {l : Option Location} {a b r : Expr} {op : LogicOp}
    (h : Expr.foldLogic op a b = some r) : I.Refines (.logic l a op b) r := by
  intro v hv
  obtain ⟨s, t, ha, hb, rfl⟩ := I.logic_inv hv
  have left {u : Bool} (hu : bool? a = some u) : s = some u :=
    ofTruth_inj (Option.some.inj (ha.symm.trans (I.eval_of_bool? hu)))
  have right {u : Bool} (hu : bool? b = some u) : t = some u :=
    ofTruth_inj (Option.some.inj (hb.symm.trans (I.eval_of_bool? hu)))
  rw [foldLogic_eq] at h
  split at h
  · rename_i hd
    cases h
    rcases hd with hd | hd
    · rw [left hd, onTruth_decisive_left]
      rfl
    · rw [right hd, onTruth_decisive_right]
      rfl
  · rename_i hd
    split at h
    · rename_i hu
      cases h
      obtain ⟨u, hu⟩ := Option.isSome_iff_exists.mp hu
      have hne : u ≠ decisive op := fun he => hd (Or.inl (he ▸ hu))
      rw [left hu, onTruth_idle_left hne, hb]
    · split at h
      · rename_i hu
        cases h
        obtain ⟨u, hu⟩ := Option.isSome_iff_exists.mp hu
        have hne : u ≠ decisive op := fun he => hd (Or.inr (he ▸ hu))
        rw [right hu, onTruth_idle_right hne, ha]
      · split at h
        · rename_i hna hnb
          cases h
          have hs : s = none :=
            ofTruth_inj (Option.some.inj (ha.symm.trans (I.eval_of_literal? hna)))
          have ht : t = none :=
            ofTruth_inj (Option.some.inj (hb.symm.trans (I.eval_of_literal? hnb)))
          rw [hs, ht]
          cases op <;> rfl
        · cases h

/-- A branch that is never taken can be left out. -/
theorem evalSearched_filter (last : Option (Value α)) (bs : List (Expr × Expr)) :
    I.evalSearched last (bs.filter fun b => !Expr.neverTaken b) = I.evalSearched last bs := by
  induction bs with
  | nil => rfl
  | cons b bs ih =>
      by_cases hb : Expr.neverTaken b = true
      · rw [List.filter_cons_of_neg (by simp [hb]), ih]
        unfold Expr.neverTaken at hb
        split at hb
        · rename_i hw
          simp [evalSearched, I.eval_of_literal? hw, Value.isTrue]
        · rename_i hw
          simp [evalSearched, I.eval_of_literal? hw, Value.isTrue]
        · cases hb
      · rw [List.filter_cons_of_pos (by simp [hb])]
        simp only [evalSearched, ih]

theorem refines_foldCase {l : Option Location} {bs : List (Expr × Expr)} {e : Option Expr}
    {r : Expr} (h : Expr.foldCase bs e = some r) : I.Refines (.case l none bs e) r := by
  intro v hv
  simp only [eval] at hv
  rw [← evalSearched_filter] at hv
  unfold Expr.foldCase at h
  simp only at h
  split at h
  · rename_i hk
    cases h
    rw [hk] at hv
    cases e with
    | none => exact hv
    | some e => exact hv
  · rename_i w t _ hk
    split at h
    · rename_i hw
      cases h
      rw [hk] at hv
      simpa [evalSearched, I.eval_of_literal? hw, Value.isTrue] using hv
    · split at h
      · cases h
        simpa only [Expr.searchedCase, eval] using hv
      · cases h

/-- Folding a node refines it. -/
theorem refines_fold (e : Expr) : I.Refines e e.fold := by
  intro v hv
  unfold Expr.fold
  split
  · rename_i r hr
    rw [eval_withLoc]
    cases e with
    | unary l op a =>
        obtain ⟨w, hw, hr⟩ := Option.bind_eq_some_iff.mp hr
        obtain ⟨u, hu, hr⟩ := Option.bind_eq_some_iff.mp hr
        cases hr
        simp only [eval, I.eval_of_literal? hw, Option.bind_eq_bind, Option.bind_some,
          I.unaryOn_known hu] at hv
        exact hv
    | arith l a op b =>
        obtain ⟨x, hx, hr⟩ := Option.bind_eq_some_iff.mp hr
        obtain ⟨y, hy, hr⟩ := Option.bind_eq_some_iff.mp hr
        obtain ⟨u, hu, hr⟩ := Option.bind_eq_some_iff.mp hr
        cases hr
        simp only [eval, I.eval_of_literal? hx, I.eval_of_literal? hy, Option.bind_eq_bind,
          Option.bind_some, I.arithOn_known hu] at hv
        exact hv
    | compare l a op b =>
        obtain ⟨x, hx, hr⟩ := Option.bind_eq_some_iff.mp hr
        obtain ⟨y, hy, hr⟩ := Option.bind_eq_some_iff.mp hr
        obtain ⟨u, hu, hr⟩ := Option.bind_eq_some_iff.mp hr
        cases hr
        simp only [eval, I.eval_of_literal? hx, I.eval_of_literal? hy, Option.bind_eq_bind,
          Option.bind_some, I.compareOn_known hu] at hv
        exact hv
    | logic l a op b => exact I.refines_foldLogic hr v hv
    | case l o bs e =>
        cases o with
        | none => exact I.refines_foldCase hr v hv
        | some o => cases hr
    | isNull l a n =>
        obtain ⟨x, hx, hr⟩ := Option.bind_eq_some_iff.mp hr
        cases hr
        simp only [eval, I.eval_of_literal? hx, Option.bind_eq_bind, Option.bind_some] at hv
        cases hv
        cases x <;> rfl
    | _ => cases hr
  · exact hv

/-! ## The whole pass -/

theorem refines_simplifyWithin {limit n : Nat} {e e' : Expr}
    (h : Expr.simplifyWithin limit n e = .ok e') : I.Refines e e' := by
  -- the levels that are left are what the pass recurses on
  induction n generalizing e e' with
  | zero => cases h
  | succ n ih =>
      simp only [Expr.simplifyWithin, bind_eq_ok, pure_eq_ok] at h
      obtain ⟨r, hr, rfl⟩ := h
      intro v hv
      rw [← I.eval_expand] at hv
      have hc : Expr.Congruent I.Refines e.expand r :=
        (Expr.mapChildren_eq_ok.mp hr).imp fun _ _ hc => ih hc
      exact I.refines_fold r v (I.refines_of_congruent hc v hv)

/-- **Simplification keeps the meaning.** Whatever columns hold and functions do, an expression that
    has a value still has it after simplification, at every limit that simplification stays within. -/
theorem eval_simplify {limit : Nat} {e e' : Expr} {v : Value α} (hs : e.simplify limit = .ok e')
    (hv : I.eval e = some v) : I.eval e' = some v :=
  I.refines_simplifyWithin hs v hv

/-- Every column holds 5, and nothing else has a value. -/
def fives : Interpretation Empty where
  column _ := some (.known (.integer 5))
  all := none
  call _ _ _ := none
  cast _ _ := none
  like _ _ _ := none
  inList _ _ _ := none
  between _ _ _ _ := none
  simpleCase _ _ _ := none
  sign _ _ := none
  arith _ _ _ := none
  compare _ _ _ := none

/-- `CASE WHEN FALSE THEN 1 / 0 WHEN x < 6 AND NOT NULL IS NULL THEN NULLIF(2 * 3, x) END`: a branch
    that is dropped, a side that is not constant, and a NULLIF whose first part is. -/
def layered : Expr :=
  .searchedCase
    [(.lit (.boolean false), .arith none (.lit (.integer 1)) .divide (.lit (.integer 0))),
      (.logic none (.compare none (.col "x") .lt (.lit (.integer 6))) .and
        (.isNull none (.unary none .not .null) false),
        .nullIf none (.arith none (.lit (.integer 2)) .multiply (.lit (.integer 3))) (.col "x"))]
    none

/-- `CASE WHEN x < 6 THEN CASE WHEN 6 = x THEN NULL ELSE 6 END END`. -/
def layeredSimplified : Expr :=
  .searchedCase
    [(.compare none (.col "x") .lt (.lit (.integer 6)),
      .searchedCase [(.compare none (.lit (.integer 6)) .eq (.col "x"), .null)]
        (some (.lit (.integer 6))))]
    none

theorem eval_simplify_layered :
    layered.simplify 5 = .ok layeredSimplified ∧ fives.eval layered = some (.known (.integer 6)) ∧
      fives.eval layeredSimplified = some (.known (.integer 6)) := by
  have hs : layered.simplify 5 = .ok layeredSimplified := by rfl
  have hv : fives.eval layered = some (.known (.integer 6)) := by rfl
  exact ⟨hs, hv, fives.eval_simplify hs hv⟩

end Interpretation

end StreamSql
