/-
  What a pass of simplification does at a node, said once. A NULLIF becomes its case, the parts are
  simplified, and the node is folded (`simplifyWithin_eq_ok`). Folding has a dozen outcomes, the
  constructors of `Folds`; what is known of the types and the shape of a simplified expression
  follows by going through them. For its nodes they come down to three (`outcome_of_folds`).

  A pass has to go down as many levels as an expression has once each NULLIF is written as its case
  (`exists_simplify_iff`), and what it gives is no higher than that.
-/
import StreamSql.Expr.Simplify
import StreamSql.Proofs.Expr.Replace

namespace StreamSql.Expr

open Outcome

/-! ## Levels -/

mutual

/-- The number of levels of an expression in which each NULLIF is written as its case: a comparison
    of both sides comes to stand between them and the case. -/
def levels : Expr → Nat
  | literal _ _ | column _ _ | wildcard _ => 1
  | call _ _ as _ => levelsList as + 1
  | unary _ _ e | cast _ e _ | isNull _ e _ => levels e + 1
  | arith _ a _ b | compare _ a _ b | logic _ a _ b => max (levels a) (levels b) + 1
  | nullIf _ a b => max (levels a) (levels b) + 2
  | case _ o bs e => max (levelsOption o) (max (levelsBranches bs) (levelsOption e)) + 1
  | between _ e lo hi _ => max (levels e) (max (levels lo) (levels hi)) + 1
  | like _ e p _ => max (levels e) (levels p) + 1
  | inList _ e es _ => max (levels e) (levelsList es) + 1

def levelsList : List Expr → Nat
  | [] => 0
  | e :: es => max (levels e) (levelsList es)

def levelsBranches : List (Expr × Expr) → Nat
  | [] => 0
  | (w, t) :: bs => max (max (levels w) (levels t)) (levelsBranches bs)

def levelsOption : Option Expr → Nat
  | none => 0
  | some e => levels e

end

theorem levels_pos (e : Expr) : 0 < e.levels := by
  cases e <;> simp [levels]

/-! ## Positions -/

@[simp]
theorem children_withLoc (l : Option Location) (e : Expr) : (e.withLoc l).children = e.children := by
  cases e <;> rfl

@[simp]
theorem height_withLoc (l : Option Location) (e : Expr) : (e.withLoc l).height = e.height := by
  cases e <;> simp only [withLoc, height]

/-- A node that was moved has the same nodes in it, itself apart. -/
theorem exists_within_withLoc {P : Expr → Prop} (hP : ∀ s l, P s → P (s.withLoc l))
    {l : Option Location} {e : Expr} (h : ∃ s, Within s e ∧ P s) :
    ∃ s, Within s (e.withLoc l) ∧ P s := by
  obtain ⟨s, hs, hp⟩ := h
  cases hs with
  | self => exact ⟨_, .self, hP _ l hp⟩
  | part member inner => exact ⟨s, .part (by simpa using member) inner, hp⟩

/-! ## The outcomes of folding -/

/-- What a node gives way to, or that it stays. A searched case stays as the branches that may be
    taken, `(w, t)` the first of them. -/
inductive Folds : Expr → Expr → Prop
  | unary {l l' op v u} (value : Literal.unary op v = some u) :
      Folds (.unary l op (.literal l' v)) (.literal l u)
  | arith {l la lb op v w u} (value : Literal.arith op v w = some u) :
      Folds (.arith l (.literal la v) op (.literal lb w)) (.literal l u)
  | compare {l la lb op v w u} (value : Literal.compare op v w = some u) :
      Folds (.compare l (.literal la v) op (.literal lb w)) (.literal l u)
  | isNull {l l' v n} : Folds (.isNull l (.literal l' v) n) (.literal l (.boolean (v.isNull != n)))
  | decided {l a b op} (t : Bool) : Folds (.logic l a op b) (.literal l (.boolean t))
  | left {l l' t b op} : Folds (.logic l (.literal l' (.boolean t)) op b) (b.withLoc l)
  | right {l l' t a op} : Folds (.logic l a op (.literal l' (.boolean t))) (a.withLoc l)
  | unknown {l la lb op} :
      Folds (.logic l (.literal la .null) op (.literal lb .null)) (.literal l .null)
  | otherwise {l bs e} : Folds (.case l none bs e) ((e.getD .null).withLoc l)
  | taken {l bs e w t} (branch : (w, t) ∈ bs) : Folds (.case l none bs e) (t.withLoc l)
  | remaining {l bs e w t rest} (kept : bs.filter (fun b => !neverTaken b) = (w, t) :: rest)
      (undecided : w.literal? ≠ some (.boolean true)) :
      Folds (.case l none bs e) (.case l none ((w, t) :: rest) e)
  | unchanged {e} (value : e.folded? = none) (plain : ∀ l bs els, e ≠ .case l none bs els) : Folds e e

theorem literal?_eq_some {e : Expr} {v : Literal} : e.literal? = some v ↔ ∃ l, e = .literal l v := by
  cases e <;> simp [literal?]

/-- The value that settles a connective alone. -/
def decisive : LogicOp → Bool
  | .and => false
  | .or => true

/-- The truth value that an expression writes down. -/
def bool? (e : Expr) : Option Bool :=
  match e.literal? with
  | some (.boolean t) => some t
  | _ => none

theorem foldLogic_eq (op : LogicOp) (a b : Expr) :
    foldLogic op a b =
      if bool? a = some (decisive op) ∨ bool? b = some (decisive op) then
        some (.lit (.boolean (decisive op)))
      else if (bool? a).isSome then some b
      else if (bool? b).isSome then some a
      else match a.literal?, b.literal? with
        | some .null, some .null => some .null
        | _, _ => none := by
  cases op <;> rfl

theorem exists_of_bool? {e : Expr} (h : (bool? e).isSome = true) :
    ∃ l t, e = .literal l (.boolean t) := by
  unfold bool? at h
  split at h
  · rename_i t ht
    obtain ⟨l, rfl⟩ := literal?_eq_some.mp ht
    exact ⟨l, t, rfl⟩
  · cases h

theorem folds_foldLogic {l : Option Location} {a b r : Expr} {op : LogicOp}
    (h : foldLogic op a b = some r) : Folds (.logic l a op b) (r.withLoc l) := by
  rw [foldLogic_eq] at h
  split at h
  · cases h
    exact .decided _
  · split at h
    · rename_i ha
      cases h
      obtain ⟨l', t, rfl⟩ := exists_of_bool? ha
      exact .left
    · split at h
      · rename_i hb
        cases h
        obtain ⟨l', t, rfl⟩ := exists_of_bool? hb
        exact .right
      · split at h
        · rename_i ha hb
          cases h
          obtain ⟨la, rfl⟩ := literal?_eq_some.mp ha
          obtain ⟨lb, rfl⟩ := literal?_eq_some.mp hb
          exact .unknown
        · cases h

theorem folds_foldCase {l : Option Location} {bs : List (Expr × Expr)} {e : Option Expr} :
    Folds (.case l none bs e) (fold (.case l none bs e)) := by
  have hfolded : folded? (.case l none bs e) = foldCase bs e := rfl
  unfold fold
  rw [hfolded]
  unfold foldCase
  simp only
  split
  · rename_i r hr
    split at hr
    · cases hr
      exact .otherwise
    · rename_i w t rest hkept
      have hmem : (w, t) ∈ bs := List.mem_of_mem_filter (hkept ▸ List.mem_cons_self)
      split at hr
      · cases hr
        exact .taken hmem
      · rename_i hw
        split at hr
        · cases hr
          rw [hkept]
          exact .remaining hkept hw
        · cases hr
  · rename_i hr
    split at hr
    · cases hr
    · rename_i w t rest hkept
      split at hr
      · cases hr
      · rename_i hw
        split at hr
        · cases hr
        · -- no branch was dropped
          rename_i hlen
          have hall : bs.filter (fun b => !neverTaken b) = bs :=
            List.filter_sublist.eq_of_length_le (Nat.le_of_not_lt hlen)
          rw [hkept] at hall
          subst hall
          exact .remaining hkept hw

/-- Folding does one of these. -/
theorem folds_fold (e : Expr) : Folds e e.fold := by
  have hnone : ∀ e : Expr, e.folded? = none → (∀ l bs els, e ≠ .case l none bs els) →
      Folds e e.fold := by
    intro e he hplain
    simp only [fold, he]
    exact .unchanged he hplain
  cases e with
  | unary l op a =>
      cases hr : folded? (.unary l op a) with
      | none => exact hnone _ hr nofun
      | some r =>
          simp only [fold, hr]
          obtain ⟨v, hv, hr⟩ := Option.bind_eq_some_iff.mp hr
          obtain ⟨u, hu, hr⟩ := Option.bind_eq_some_iff.mp hr
          cases hr
          obtain ⟨l', rfl⟩ := literal?_eq_some.mp hv
          exact .unary hu
  | arith l a op b =>
      cases hr : folded? (.arith l a op b) with
      | none => exact hnone _ hr nofun
      | some r =>
          simp only [fold, hr]
          obtain ⟨v, hv, hr⟩ := Option.bind_eq_some_iff.mp hr
          obtain ⟨w, hw, hr⟩ := Option.bind_eq_some_iff.mp hr
          obtain ⟨u, hu, hr⟩ := Option.bind_eq_some_iff.mp hr
          cases hr
          obtain ⟨la, rfl⟩ := literal?_eq_some.mp hv
          obtain ⟨lb, rfl⟩ := literal?_eq_some.mp hw
          exact .arith hu
  | compare l a op b =>
      cases hr : folded? (.compare l a op b) with
      | none => exact hnone _ hr nofun
      | some r =>
          simp only [fold, hr]
          obtain ⟨v, hv, hr⟩ := Option.bind_eq_some_iff.mp hr
          obtain ⟨w, hw, hr⟩ := Option.bind_eq_some_iff.mp hr
          obtain ⟨u, hu, hr⟩ := Option.bind_eq_some_iff.mp hr
          cases hr
          obtain ⟨la, rfl⟩ := literal?_eq_some.mp hv
          obtain ⟨lb, rfl⟩ := literal?_eq_some.mp hw
          exact .compare hu
  | isNull l a n =>
      cases hr : folded? (.isNull l a n) with
      | none => exact hnone _ hr nofun
      | some r =>
          simp only [fold, hr]
          obtain ⟨v, hv, hr⟩ := Option.bind_eq_some_iff.mp hr
          obtain ⟨l', rfl⟩ := literal?_eq_some.mp hv
          cases hr
          exact .isNull
  | logic l a op b =>
      cases hr : folded? (.logic l a op b) with
      | none => exact hnone _ hr nofun
      | some r =>
          simp only [fold, hr]
          exact folds_foldLogic hr
  | case l o bs e =>
      cases o with
      | none => exact folds_foldCase
      | some o => exact hnone _ rfl nofun
  | _ => exact hnone _ rfl nofun

/-! ## A pass -/

variable {limit n : Nat} {e e' : Expr}

/-- The nodes that writing out a NULLIF adds: the case, the comparison and NULL. -/
theorem within_expand {x : Expr} (h : Within x e.expand) :
    Within x e ∨ ∃ l a b, x = (nullIfCase a b).withLoc l ∨ x = .compare none a .eq b ∨ x = .null := by
  cases e with
  | nullIf l a b =>
      cases h with
      | self => exact Or.inr ⟨l, a, b, Or.inl rfl⟩
      | @part c _ member inner =>
          have hc : c = .compare none a .eq b ∨ c = .null ∨ c = a := by
            simpa [expand, nullIfCase, searchedCase, withLoc, children] using member
          rcases hc with rfl | rfl | rfl
          · cases inner with
            | self => exact Or.inr ⟨l, a, b, Or.inr (Or.inl rfl)⟩
            | part member inner => exact Or.inl (.part member inner)
          · cases inner with
            | self => exact Or.inr ⟨l, a, b, Or.inr (Or.inr rfl)⟩
            | part member => cases member
          · exact Or.inl (.part (by simp [children]) inner)
  | _ => exact Or.inl h

theorem expand_ne_nullIf {l : Option Location} {a b : Expr} : e.expand ≠ .nullIf l a b := by
  cases e <;> simp [expand, nullIfCase, searchedCase, withLoc]

/-- A pass over a node: the NULLIF is written out, the parts are simplified, the node is folded. -/
theorem simplifyWithin_eq_ok :
    simplifyWithin limit (n + 1) e = .ok e' ↔
      ∃ r, Congruent (fun c c' => simplifyWithin limit n c = .ok c') e.expand r ∧ e' = r.fold := by
  simp only [simplifyWithin, bind_eq_ok, pure_eq_ok, mapChildren_eq_ok, @eq_comm _ _ e']

theorem levelsList_le {es : List Expr} : levelsList es ≤ n ↔ ∀ c ∈ es, c.levels ≤ n := by
  induction es with
  | nil => simp [levelsList]
  | cons e es ih => rw [levelsList, List.forall_mem_cons, ← ih, Nat.max_le]

theorem levelsBranches_le {bs : List (Expr × Expr)} :
    levelsBranches bs ≤ n ↔ ∀ c ∈ bs.flatMap fun b => [b.1, b.2], c.levels ≤ n := by
  induction bs with
  | nil => simp [levelsBranches]
  | cons b bs ih =>
      obtain ⟨w, t⟩ := b
      simp only [levelsBranches, List.flatMap_cons, List.cons_append, List.nil_append,
        List.forall_mem_cons, ← ih]
      omega

theorem levelsOption_le {o : Option Expr} : levelsOption o ≤ n ↔ ∀ c ∈ o.toList, c.levels ≤ n := by
  cases o with
  | none => simp [levelsOption]
  | some e => simp [levelsOption]

/-- An expression has a level more than the parts that a pass goes into. -/
theorem levels_le_succ : e.levels ≤ n + 1 ↔ ∀ c ∈ e.expand.children, c.levels ≤ n := by
  cases e with
  | literal | column | wildcard => simp [levels, expand, children]
  | call l name as d => simp [levels, expand, children, levelsList_le]
  | unary | cast | isNull => simp [levels, expand, children]
  | arith | compare | logic | like | between =>
      simp only [levels, expand, children, List.forall_mem_cons, List.not_mem_nil, false_imp_iff,
        implies_true, and_true]
      omega
  | nullIf l a b =>
      have := levels_pos a
      simp only [levels, expand, nullIfCase, searchedCase, withLoc, children, null, lit,
        Option.toList_none, Option.toList_some, List.flatMap_cons, List.flatMap_nil,
        List.append_nil, List.nil_append, List.cons_append, List.forall_mem_cons]
      simp only [List.not_mem_nil, false_implies, implies_true, and_true]
      omega
  | case l o bs e =>
      simp only [levels, expand, children, List.forall_mem_append, ← levelsOption_le,
        ← levelsBranches_le]
      omega
  | inList l e es neg =>
      simp only [levels, expand, children, List.forall_mem_cons, ← levelsList_le]
      omega

/-- Without NULLIF the levels of an expression are those of any other walk. -/
theorem levels_le_iff (h : ∀ l a b, ¬Within (.nullIf l a b) e) : e.levels ≤ n ↔ e.height ≤ n := by
  induction n generalizing e with
  | zero =>
      have := levels_pos e
      have := height_pos e
      omega
  | succ n ih =>
      have hexpand : e.expand = e := by
        cases e with
        | nullIf l a b => exact absurd .self (h l a b)
        | _ => rfl
      rw [levels_le_succ, height_le_succ, hexpand]
      exact forall₂_congr fun c hc => ih fun l a b hw => h l a b (.part hc hw)

/-- A pass succeeds if it has a level for each level of the expression, and only then. -/
theorem exists_simplifyWithin_iff : (∃ e', simplifyWithin limit n e = .ok e') ↔ e.levels ≤ n := by
  induction n generalizing e with
  | zero =>
      have := levels_pos e
      simp [simplifyWithin]
      omega
  | succ n ih =>
      rw [levels_le_succ]
      constructor
      · rintro ⟨e', h⟩ c hc
        obtain ⟨r, hparts, _⟩ := simplifyWithin_eq_ok.mp h
        obtain ⟨c', _, hc'⟩ := exists_right hparts.children hc
        exact ih.mp ⟨c', hc'⟩
      · intro h
        obtain ⟨r, hparts⟩ := exists_congruent (fun c hc => ih.mpr (h c hc))
        exact ⟨_, simplifyWithin_eq_ok.mpr ⟨r, hparts, rfl⟩⟩

theorem exists_simplify_iff : (∃ e', e.simplify limit = .ok e') ↔ e.levels ≤ limit :=
  exists_simplifyWithin_iff

theorem height_of_mem_children {c : Expr} (hc : c ∈ e.children) : c.height < e.height := by
  obtain ⟨n, hn⟩ := Nat.exists_eq_succ_of_ne_zero (Nat.ne_of_gt (height_pos e))
  have := height_le_succ.mp (Nat.le_of_eq hn) c hc
  omega

/-- The branches that may be taken are kept as they are. -/
theorem folded?_remaining {l : Option Location} {bs rest : List (Expr × Expr)} {els : Option Expr}
    {w t : Expr} (kept : bs.filter (fun b => !neverTaken b) = (w, t) :: rest)
    (undecided : w.literal? ≠ some (.boolean true)) :
    folded? (.case l none ((w, t) :: rest) els) = none := by
  have hkept : ((w, t) :: rest).filter (fun b => !neverTaken b) = (w, t) :: rest := by
    rw [← kept, List.filter_filter]
    simp only [Bool.and_self]
  have hfolded : folded? (.case l none ((w, t) :: rest) els) = foldCase ((w, t) :: rest) els := rfl
  rw [hfolded]
  unfold foldCase
  -- all branches are kept, and `undecided` rules out that the first of them is taken
  simp only [hkept, Nat.lt_irrefl, if_false]

/-- Folding leaves a constant, one of the parts, or a node over some of them that folds no
    further. -/
theorem outcome_of_folds {r : Expr} (h : Folds e r) :
    (∃ l v, r = .literal l v) ∨ (∃ c ∈ e.children, ∃ l, r = c.withLoc l) ∨
      r.folded? = none ∧ (r = e ∨ ∃ l bs els, r = .case l none bs els) ∧
        ∀ c ∈ r.children, c ∈ e.children := by
  cases h with
  | unary | arith | compare | isNull | decided | unknown => exact Or.inl ⟨_, _, rfl⟩
  | left => exact Or.inr (Or.inl ⟨_, by simp [children], _, rfl⟩)
  | right => exact Or.inr (Or.inl ⟨_, by simp [children], _, rfl⟩)
  | @otherwise l bs els =>
      cases els with
      | none => exact Or.inl ⟨l, .null, rfl⟩
      | some els => exact Or.inr (Or.inl ⟨els, by simp [children], l, rfl⟩)
  | @taken l bs els w t branch =>
      refine Or.inr (Or.inl ⟨t, ?_, l, rfl⟩)
      simp only [children, List.mem_append, List.mem_flatMap]
      exact Or.inl (Or.inr ⟨_, branch, by simp⟩)
  | remaining kept undecided =>
      refine Or.inr (Or.inr ⟨folded?_remaining kept undecided, Or.inr ⟨_, _, _, rfl⟩, fun c hc => ?_⟩)
      simp only [children, List.mem_append] at hc ⊢
      refine hc.imp_left (Or.imp_right fun hc => ?_)
      rw [← kept] at hc
      obtain ⟨b, hb, hc⟩ := List.mem_flatMap.mp hc
      exact List.mem_flatMap.mpr ⟨b, List.mem_of_mem_filter hb, hc⟩
  | unchanged value plain => exact Or.inr (Or.inr ⟨value, Or.inl rfl, fun _ hc => hc⟩)

/-- Folding does not make a node higher. -/
theorem height_of_folds {r : Expr} (h : Folds e r) : r.height ≤ e.height := by
  rcases outcome_of_folds h with ⟨l, v, rfl⟩ | ⟨c, hc, l, rfl⟩ | ⟨_, _, hparts⟩
  · exact height_pos e
  · rw [height_withLoc]
    exact Nat.le_of_lt (height_of_mem_children hc)
  · obtain ⟨n, hn⟩ := Nat.exists_eq_succ_of_ne_zero (Nat.ne_of_gt (height_pos e))
    rw [hn, height_le_succ]
    exact fun c hc => height_le_succ.mp (Nat.le_of_eq hn) c (hparts c hc)

/-- What a pass gives is no higher than the levels it had. -/
theorem height_of_simplifyWithin (h : simplifyWithin limit n e = .ok e') : e'.height ≤ n := by
  induction n generalizing e e' with
  | zero => cases h
  | succ n ih =>
      obtain ⟨r, hparts, rfl⟩ := simplifyWithin_eq_ok.mp h
      have hr : r.height ≤ n + 1 := by
        rw [height_le_succ]
        intro c' hc'
        obtain ⟨c, _, hc⟩ := exists_left hparts.children hc'
        exact ih hc
      exact Nat.le_trans (height_of_folds (folds_fold r)) hr

end StreamSql.Expr
