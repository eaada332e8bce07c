/-
  Constant expressions. An expression over constants that has a type is simplified to a constant,
  unless an operator on constants is left that has no value. Such an operator is one that arithmetic
  and comparisons leave undefined, or arithmetic other than addition on two strings: typing gives all
  arithmetic on two strings the type of a string, and only their sum has a value
  (`simplify_constant`).

  The argument is one of progress. A node all of whose parts are constants has a value or is such an
  operator; a node with another part has one in that part, or gives way to a part.
-/
import StreamSql.Proofs.Expr.Undefined

namespace StreamSql

open Outcome DataType

namespace Expr

variable {t : Typing} {s : Schema} {e e' c c' x : Expr} {l : Option Location} {type : DataType}

/-! ## Constant expressions -/

/-- The node may stand in a constant expression: a constant, or an operator other than a cast, a
    function and the predicates on ranges, lists and patterns. -/
def isConstantNode : Expr → Bool
  | literal _ _ | unary _ _ _ | arith _ _ _ _ | compare _ _ _ _ | logic _ _ _ _ | nullIf _ _ _
  | case _ none _ _ | isNull _ _ _ => true
  | _ => false

/-- The expression is made of constants and operators on them. -/
def Constant (e : Expr) : Prop :=
  ∀ x, Within x e → x.isConstantNode = true

theorem Constant.part (h : Constant e) (hc : c ∈ e.children) : Constant c :=
  fun x hx => h x (.part hc hx)

theorem constant_of_children (hnode : e.isConstantNode = true)
    (hparts : ∀ c ∈ e.children, Constant c) : Constant e := by
  intro x hx
  cases hx with
  | self => exact hnode
  | part member inner => exact hparts _ member x inner

theorem constant_lit (v : Literal) : Constant (lit v) :=
  constant_of_children rfl (by simp [lit, children])

/-- Parts of a constant expression with a type have types. -/
theorem Constant.typed_child (h : Constant e) (ht : Typing.Typed t s e type) (hc : c ∈ e.children) :
    ∃ type', Typing.Typed t s c type' := by
  refine (ht.child hc).resolve_left fun hw => ?_
  have := h c (.part hc .self)
  cases c with
  | wildcard => cases this
  | _ => cases hw

theorem Constant.expand (h : Constant e) : Constant e.expand := by
  intro x hx
  rcases within_expand hx with hx | ⟨l, a, b, rfl | rfl | rfl⟩
  · exact h x hx
  · rfl
  · rfl
  · rfl

/-! ## Progress -/

/-- An operator on constants that has no value. -/
def Stuck (x : Expr) : Prop :=
  Undefined x ∨ OnTexts x

theorem Stuck.withLoc (h : Stuck x) (l : Option Location) : Stuck (x.withLoc l) := by
  rcases h with h | h
  · left
    cases h with
    | negation number range => exact .negation number range
    | range left right value range => exact .range left right value range
    | remainder left right => exact .remainder left right
    | zero division left right zero => exact .zero division left right zero
    | order nan side left right => exact .order nan side left right
  · right
    cases h with
    | arith other => exact .arith other

/-- Simplification came to an end: with a constant, or at an operator that has no value. -/
def Ends (e : Expr) : Prop :=
  (∃ l v, e = .literal l v) ∨ ∃ x, Within x e ∧ Stuck x

theorem Ends.withLoc (h : Ends e) (l : Option Location) : Ends (e.withLoc l) := by
  rcases h with ⟨l', v, rfl⟩ | h
  · exact Or.inl ⟨l, v, rfl⟩
  · exact Or.inr (exists_within_withLoc (fun x l hx => hx.withLoc l) h)

/-- What is stuck in a part is stuck in the whole. -/
theorem ends_of_part (hc : c ∈ e.children) (h : ∃ x, Within x c ∧ Stuck x) : Ends e := by
  obtain ⟨x, hx, hstuck⟩ := h
  exact Or.inr ⟨x, .part hc hx, hstuck⟩

theorem Stuck.ends (h : Stuck x) : Ends x :=
  Or.inr ⟨x, .self, h⟩

/-- What is known of a part: the type that it became, and that simplification ends there. -/
def Reduces (t : Typing) (s : Schema) (c c' : Expr) : Prop :=
  Typing.Becomes t s c c' ∧ Ends c'

/-- A condition that became a constant. -/
theorem truth_of_literal {v : Literal} (hbecomes : Typing.Becomes t s c (.literal l v))
    (hc : Typing.Typed t s c type) (htruth : type = .boolean ∨ type = .null) :
    v = .null ∨ ∃ b, v = .boolean b := by
  rcases (hbecomes.literal hc).narrows.truth htruth with hv | hv
  · cases v with
    | boolean b => exact Or.inr ⟨b, rfl⟩
    | _ => cases hv
  · exact Or.inl (Literal.dataType_eq_null.mp hv)

/-- Constants bring a string and NULL together only as operands of the node itself. -/
theorem mixedNode_of_mixes (h : Typing.Mixes t s e) (hleaf : ∀ c ∈ e.children, c.children = []) :
    Typing.MixedNode t s e := by
  obtain ⟨x, hx, hmixed⟩ := h
  cases hx with
  | self => exact hmixed
  | part member inner =>
      exact absurd ⟨x, inner, hmixed⟩ (Typing.not_mixes_of_children (hleaf _ member))

/-- A connective of truth values is decided by one of them, or both are NULL. -/
theorem foldLogic_ne_none {la lb : Option Location} {op : LogicOp} {v w : Literal}
    (hv : v = .null ∨ ∃ b, v = .boolean b) (hw : w = .null ∨ ∃ b, w = .boolean b) :
    foldLogic op (.literal la v) (.literal lb w) ≠ none := by
  rcases hv with rfl | ⟨_ | _, rfl⟩ <;> rcases hw with rfl | ⟨_ | _, rfl⟩ <;> cases op <;> exact nofun

/-- A node over two parts: it is enough to look at it where both are constants. -/
theorem ends_of_sides {a b : Expr} (ha : Ends a) (hb : Ends b) (hac : a ∈ x.children)
    (hbc : b ∈ x.children) (h : ∀ la v lb w, a = .literal la v → b = .literal lb w → Ends x) :
    Ends x := by
  rcases ha with ⟨la, v, hv⟩ | hstuck
  · rcases hb with ⟨lb, w, hw⟩ | hstuck
    · exact h la v lb w hv hw
    · exact ends_of_part hbc hstuck
  · exact ends_of_part hac hstuck

/-- A node over what its parts came to that folding leaves as it is. -/
theorem ends_of_unchanged (hparts : Congruent (Reduces t s) e x) (hnode : e.isConstantNode = true)
    (hplain : (∀ l a b, e ≠ .nullIf l a b) ∧ ∀ l bs els, x ≠ .case l none bs els)
    (ht : Typing.Typed t s e type) (hnone : x.folded? = none) : Ends x := by
  -- over constants the node has a type, or mixes them itself
  have htyped : (∀ c ∈ x.children, c.children = []) → ¬Typing.MixedNode t s x →
      ∃ type', Typing.Typed t s x type' := fun hleaf hmixed =>
    (Typing.becomes_of_congruent (hparts.imp fun _ _ hc => hc.1) ht
      (fun hm => hmixed (mixedNode_of_mixes hm hleaf))).imp fun _ h => h.1
  cases hparts with
  | literal l v => exact Or.inl ⟨l, v, rfl⟩
  | unary l op ha =>
      rcases ha.2 with ⟨la, v, rfl⟩ | hstuck
      · obtain ⟨_, h'⟩ := htyped (by simp [children]) (by simp [Typing.MixedNode])
        obtain ⟨ta, hta, hop⟩ := Typing.typed_unary.mp h'
        rw [Typing.typed_literal.mp hta] at hop
        refine Stuck.ends (Or.inl (undefined_of_unary hop ?_))
        cases hu : Literal.unary op v with
        | none => rfl
        | some u => simp [folded?, literal?, hu] at hnone
      · exact ends_of_part (by simp [children]) hstuck
  | arith l op ha hb =>
      refine ends_of_sides ha.2 hb.2 (by simp [children]) (by simp [children]) ?_
      rintro la v lb w rfl rfl
      have harith : Literal.arith op v w = none := by
        cases hu : Literal.arith op v w with
        | none => rfl
        | some u => simp [folded?, literal?, hu] at hnone
      have hmixed : ¬Typing.MixedNode t s (.arith l (.literal la v) op (.literal lb w)) := by
        rintro ⟨_, _, _, _, ta, tb, hx, hta, htb, hmixed⟩
        cases hx
        rw [Typing.typed_literal.mp hta, Typing.typed_literal.mp htb] at hmixed
        rcases hmixed with ⟨_, hnull⟩ | ⟨hnull, _⟩
        · rw [Literal.dataType_eq_null.mp hnull] at harith
          cases v <;> cases harith
        · rw [Literal.dataType_eq_null.mp hnull] at harith
          cases harith
      obtain ⟨_, h'⟩ := htyped (by simp [children]) hmixed
      obtain ⟨ta, tb, hta, htb, htype⟩ := Typing.typed_arith.mp h'
      rw [Typing.typed_literal.mp hta, Typing.typed_literal.mp htb] at htype
      exact Stuck.ends (undefined_of_arith htype harith)
  | compare l op ha hb =>
      refine ends_of_sides ha.2 hb.2 (by simp [children]) (by simp [children]) ?_
      rintro la v lb w rfl rfl
      obtain ⟨_, h'⟩ := htyped (by simp [children]) (by simp [Typing.MixedNode])
      obtain ⟨ta, tb, hta, htb, htype, _⟩ := Typing.typed_compare.mp h'
      rw [Typing.typed_literal.mp hta, Typing.typed_literal.mp htb] at htype
      refine Stuck.ends (Or.inl (undefined_of_compare htype ?_))
      cases hu : Literal.compare op v w with
      | none => rfl
      | some u => simp [folded?, literal?, hu] at hnone
  | logic l op ha hb =>
      refine ends_of_sides ha.2 hb.2 (by simp [children]) (by simp [children]) ?_
      rintro la v lb w rfl rfl
      obtain ⟨ta, tb, hta, htb, htra, htrb, _⟩ := Typing.typed_logic.mp ht
      exact absurd hnone (foldLogic_ne_none (truth_of_literal ha.1 hta htra)
        (truth_of_literal hb.1 htb htrb))
  | isNull l neg ha =>
      rcases ha.2 with ⟨la, v, rfl⟩ | hstuck
      · cases hnone
      · exact ends_of_part (by simp [children]) hstuck
  | nullIf l => exact absurd rfl (hplain.1 _ _ _)
  | case l ho hbs hels =>
      cases ho with
      | none => exact absurd rfl (hplain.2 _ _ _)
      | some => cases hnode
  | _ => cases hnode

/-- A searched case whose first branch is neither never taken nor always. -/
theorem ends_of_branch {bs bs' : List (Expr × Expr)} {els els' : Option Expr} {w r : Expr}
    {rest : List (Expr × Expr)} (hbs : List.Forall₂ (BranchRel (Reduces t s)) bs bs')
    (ht : Typing.Typed t s (.case l none bs els) type)
    (hkept : bs'.filter (fun b => !neverTaken b) = (w, r) :: rest)
    (hundecided : w.literal? ≠ some (.boolean true)) :
    Ends (.case l none ((w, r) :: rest) els') := by
  have hmem : (w, r) ∈ bs'.filter (fun b => !neverTaken b) := hkept ▸ List.mem_cons_self
  obtain ⟨hmem, hnever⟩ := List.mem_filter.mp hmem
  obtain ⟨b, hb, hcondition, _⟩ := exists_left hbs hmem
  obtain ⟨_, _, _, hsubject, hresults, _⟩ := Typing.typed_case.mp ht
  obtain ⟨_, _, ⟨tw, htw, htruth⟩, _⟩ := exists_right hresults hb
  cases hsubject
  rcases hcondition.2 with ⟨l', v, rfl⟩ | hstuck
  · rcases truth_of_literal hcondition.1 htw htruth with rfl | ⟨b, rfl⟩
    · cases hnever
    · cases b with
      | true => exact absurd rfl hundecided
      | false => cases hnever
  · refine ends_of_part ?_ hstuck
    simp [children]

/-- A folded node over what its parts came to. -/
theorem ends_of_folds {r : Expr} (hparts : Congruent (Reduces t s) e x)
    (hnode : e.isConstantNode = true) (hexpanded : ∀ l a b, e ≠ .nullIf l a b)
    (ht : Typing.Typed t s e type) (hfolds : Folds x r) : Ends r := by
  cases hfolds with
  | unchanged value plain => exact ends_of_unchanged hparts hnode ⟨hexpanded, plain⟩ ht value
  | unary | arith | compare | isNull | decided | unknown => exact Or.inl ⟨_, _, rfl⟩
  | left =>
      cases hparts with
      | logic l op ha hb => exact hb.2.withLoc _
  | right =>
      cases hparts with
      | logic l op ha hb => exact ha.2.withLoc _
  | otherwise =>
      cases hparts with
      | case l ho hbs hels =>
          cases hels with
          | none => exact Or.inl ⟨_, _, rfl⟩
          | some hr => exact hr.2.withLoc _
  | taken branch =>
      cases hparts with
      | case l ho hbs hels =>
          obtain ⟨_, _, _, hr⟩ := exists_left hbs branch
          exact hr.2.withLoc _
  | remaining kept undecided =>
      cases hparts with
      | case l ho hbs hels =>
          cases ho
          exact ends_of_branch hbs ht kept undecided

/-- A constant expression with a type is simplified until nothing is left to do. -/
theorem ends_of_simplifyWithin {limit n : Nat} (hc : Constant e) (ht : Typing.Typed t s e type)
    (h : simplifyWithin limit n e = .ok e') : Ends e' := by
  induction n generalizing e e' type with
  | zero => cases h
  | succ n ih =>
      obtain ⟨x, hparts, rfl⟩ := simplifyWithin_eq_ok.mp h
      have ht := Typing.typed_expand ht
      refine ends_of_folds (hparts.imp_mem fun c hmem c' hc' => ?_) (hc.expand _ .self)
        (fun _ _ _ => expand_ne_nullIf) ht (folds_fold x)
      obtain ⟨tc, htc⟩ := hc.expand.typed_child ht hmem
      exact ⟨Typing.becomes_simplifyWithin hc', ih (hc.expand.part hmem) htc hc'⟩

/-! ## Arithmetic on strings -/

/-- The expression has arithmetic on two strings that is no addition. -/
def TextArith (t : Typing) (s : Schema) (e : Expr) : Prop :=
  ∃ l a op b ta tb, Within (.arith l a op b) e ∧ op ≠ .add ∧ Typing.Typed t s a ta ∧
    ta.isString = true ∧ Typing.Typed t s b tb ∧ tb.isString = true

theorem TextArith.part (hc : c ∈ e.children) (h : TextArith t s c) : TextArith t s e := by
  obtain ⟨l, a, op, b, ta, tb, hwithin, h⟩ := h
  exact ⟨l, a, op, b, ta, tb, .part hc hwithin, h⟩

theorem textArith_of_expand (h : TextArith t s e.expand) : TextArith t s e := by
  obtain ⟨l, a, op, b, ta, tb, hwithin, h⟩ := h
  rcases within_expand hwithin with hwithin | ⟨_, _, _, hx | hx | hx⟩
  · exact ⟨l, a, op, b, ta, tb, hwithin, h⟩
  · cases hx
  · cases hx
  · cases hx

theorem onTexts_of_withLoc (h : ∃ x, Within x (e.withLoc l) ∧ OnTexts x) :
    ∃ x, Within x e ∧ OnTexts x := by
  obtain ⟨x, hx, htexts⟩ := h
  cases hx with
  | self =>
      refine ⟨e, .self, ?_⟩
      cases e with
      | arith =>
          cases htexts with
          | arith other => exact .arith other
      | _ => cases htexts
  | part member inner => exact ⟨x, .part (by simpa using member) inner, htexts⟩

/-- Folding makes no arithmetic on strings. -/
theorem onTexts_of_folds {r : Expr} (hfolds : Folds e r) (h : ∃ x, Within x r ∧ OnTexts x) :
    ∃ x, Within x e ∧ OnTexts x := by
  have hpart : ∀ {c}, c ∈ e.children → (∃ x, Within x c ∧ OnTexts x) →
      ∃ x, Within x e ∧ OnTexts x := fun hc ⟨x, hx, htexts⟩ => ⟨x, .part hc hx, htexts⟩
  have hliteral : ∀ {l v}, ¬∃ x, Within x (.literal l v) ∧ OnTexts x := by
    rintro l v ⟨x, hx, htexts⟩
    cases hx with
    | self => cases htexts
    | part member => cases member
  cases hfolds with
  | unchanged => exact h
  | unary | arith | compare | isNull | decided | unknown => exact absurd h hliteral
  | left => exact hpart (by simp [children]) (onTexts_of_withLoc h)
  | right => exact hpart (by simp [children]) (onTexts_of_withLoc h)
  | @otherwise l bs els =>
      cases els with
      | none => exact absurd h hliteral
      | some r => exact hpart (by simp [children]) (onTexts_of_withLoc h)
  | taken branch =>
      refine hpart ?_ (onTexts_of_withLoc h)
      simp only [children, List.mem_append, List.mem_flatMap]
      exact Or.inl (Or.inr ⟨_, branch, by simp⟩)
  | remaining kept =>
      obtain ⟨x, hx, htexts⟩ := h
      cases hx with
      | self => cases htexts
      | part member inner =>
          refine hpart ?_ ⟨x, inner, htexts⟩
          simp only [children, List.mem_append, List.mem_flatMap, ← kept] at member ⊢
          rcases member with (hsubject | ⟨b, hb, hc⟩) | hels
          · exact Or.inl (Or.inl hsubject)
          · exact Or.inl (Or.inr ⟨b, List.mem_of_mem_filter hb, hc⟩)
          · exact Or.inr hels

/-- What is left on strings was there before, on operands with the type of a string. -/
theorem textArith_of_simplifyWithin {limit n : Nat} (hc : Constant e)
    (ht : Typing.Typed t s e type) (h : simplifyWithin limit n e = .ok e')
    (htexts : ∃ x, Within x e' ∧ OnTexts x) : TextArith t s e := by
  induction n generalizing e e' type with
  | zero => cases h
  | succ n ih =>
      obtain ⟨x, hparts, rfl⟩ := simplifyWithin_eq_ok.mp h
      obtain ⟨y, hy, htexts⟩ := onTexts_of_folds (folds_fold x) htexts
      have ht := Typing.typed_expand ht
      have hc := hc.expand
      refine textArith_of_expand ?_
      generalize e.expand = d at hparts ht hc
      cases hy with
      | self =>
          cases htexts with
          | arith other =>
              cases hparts with
              | arith l op ha hb =>
                  obtain ⟨ta, tb, hta, htb, _⟩ := Typing.typed_arith.mp ht
                  have hsa := ((Typing.becomes_simplifyWithin ha).literal hta).narrows
                  have hsb := ((Typing.becomes_simplifyWithin hb).literal htb).narrows
                  exact ⟨_, _, _, _, ta, tb, .self, other, hta, hsa.isString_right rfl, htb,
                    hsb.isString_right rfl⟩
      | part member inner =>
          obtain ⟨c, hmem, hr⟩ := exists_left hparts.children member
          obtain ⟨tc, htc⟩ := hc.typed_child ht hmem
          exact (ih (hc.part hmem) htc hr ⟨y, inner, htexts⟩).part hmem

/-! ## Simplified constants -/

/-- A constant expression with a type is simplified to a constant, or an operator is left that has no
    value: one that is undefined, or arithmetic on two strings, which the expression then had in the
    first place. -/
theorem simplify_constant {limit : Nat} (hc : Constant e) (ht : t.infer s e = .ok type)
    (h : e.simplify limit = .ok e') :
    ((∃ l v, e' = .literal l v) ↔ ∀ x, Within x e' → ¬Undefined x ∧ ¬OnTexts x) ∧
    (∀ x, Undefined x ∨ OnTexts x → x.folded? = none) ∧
    ((∃ x, Within x e' ∧ OnTexts x) → TextArith t s e) := by
  have ht := Typing.typed_of_infer ht
  refine ⟨⟨?_, fun hnone => ?_⟩, fun x hx => ?_, textArith_of_simplifyWithin hc ht h⟩
  · rintro ⟨l, v, rfl⟩ x hx
    cases hx with
    | self => exact ⟨nofun, nofun⟩
    | part member => cases member
  · refine (ends_of_simplifyWithin hc ht h).resolve_right ?_
    rintro ⟨x, hx, hundefined | htexts⟩
    · exact (hnone x hx).1 hundefined
    · exact (hnone x hx).2 htexts
  · exact hx.elim folded?_of_undefined folded?_of_onTexts

/-- `CASE WHEN NULLIF(1, 2) > 0 THEN 2147483647 + 1 END`, in which the sum is left. -/
def largeSum : Expr :=
  searchedCase [(.compare none (.nullIf none (lit (.integer 1)) (lit (.integer 2))) .gt
      (lit (.integer 0)),
    .arith none (lit (.integer 2147483647)) .add (lit (.integer 1)))] none

theorem simplify_constant_largeSum :
    Constant largeSum ∧ (⟨⟨[]⟩, 5⟩ : Typing).infer ⟨[]⟩ largeSum = .ok .int32 ∧
      ∃ e', largeSum.simplify 5 = .ok e' ∧ ∃ x, Within x e' ∧ (Undefined x ∨ OnTexts x) := by
  have hconstant : Constant largeSum := by
    have hnullIf : Constant (.nullIf none (lit (.integer 1)) (lit (.integer 2))) :=
      constant_of_children rfl (by simp [children, constant_lit])
    have hcompare : Constant (.compare none (.nullIf none (lit (.integer 1)) (lit (.integer 2))) .gt
        (lit (.integer 0))) := constant_of_children rfl (by simp [children, constant_lit, hnullIf])
    have hsum : Constant (.arith none (lit (.integer 2147483647)) .add (lit (.integer 1))) :=
      constant_of_children rfl (by simp [children, constant_lit])
    exact constant_of_children rfl (by simp [largeSum, searchedCase, children, hcompare, hsum])
  have htype : (⟨⟨[]⟩, 5⟩ : Typing).infer ⟨[]⟩ largeSum = .ok .int32 := rfl
  obtain ⟨e', he', hne⟩ : ∃ e', largeSum.simplify 5 = .ok e' ∧ ∀ l v, e' ≠ .literal l v :=
    ⟨_, rfl, fun _ _ h => Expr.noConfusion h⟩
  refine ⟨hconstant, htype, e', he', ?_⟩
  by_contra hnone
  obtain ⟨l, v, heq⟩ := (simplify_constant hconstant htype he').1.mpr fun x hx =>
    ⟨fun h => hnone ⟨x, hx, Or.inl h⟩, fun h => hnone ⟨x, hx, Or.inr h⟩⟩
  exact hne l v heq

/-- `'a' - 'b'` -/
def textDifference : Expr :=
  .arith none (lit (.string "a")) .subtract (lit (.string "b"))

/-- The difference of two strings has the type of a string and no value, and nothing in it is
    undefined as arithmetic and comparisons are. -/
theorem exists_typed_without_value :
    Constant textDifference ∧ (⟨⟨[]⟩, 2⟩ : Typing).infer ⟨[]⟩ textDifference = .ok .utf8 ∧
      textDifference.simplify 2 = .ok textDifference ∧ (∀ l v, textDifference ≠ .literal l v) ∧
      ∀ x, Within x textDifference → ¬Undefined x := by
  refine ⟨constant_of_children rfl ?_, rfl, rfl, fun _ _ h => Expr.noConfusion h,
    fun x hx hundefined => ?_⟩
  · simp [textDifference, children, constant_lit]
  · cases hx with
    | self =>
        cases hundefined with
        | range left => cases left
        | zero _ left => cases left
    | part member inner =>
        have hleaf : ∀ v, ∀ y, Within y (lit v) → ¬Undefined y := by
          intro v y hy
          cases hy with
          | self =>
              intro h
              cases h
          | part member => cases member
        rcases List.mem_pair.mp member with rfl | rfl
        · exact hleaf _ x inner hundefined
        · exact hleaf _ x inner hundefined

end Expr

end StreamSql
