/-
  The type of a simplified expression. Simplification puts constants in the place of expressions, and
  a constant may be narrower than what it stands for: `CASE WHEN TRUE THEN 1 ELSE 2.5 END` is a
  double and becomes an integer, and NULL may come to stand anywhere. So a simplified expression has
  a narrower type, or none: a NULL beside a string leaves arithmetic without a type (`Mixes`), and
  nothing else does.

  The type stays the same, up to NULL, if no case has results of different types (`Uniform`) and no
  NULL has come to stand among the operands that a type is computed from (`Solid`).
-/
import StreamSql.Proofs.Expr.Folding
import StreamSql.Proofs.Typing.Narrowing

namespace StreamSql

open Outcome DataType

/-! ## Constants -/

namespace Literal

variable {v w u : Literal}

theorem dataType_eq_null : v.dataType = .null ↔ v = .null := by
  cases v <;> simp [dataType]

theorem dataType_unary {op : UnaryOp} (h : unary op v = some u) :
    u = .null ∨ (op = .not ∧ u.dataType = .boolean) ∨ (op ≠ .not ∧ u.dataType = v.dataType) := by
  cases v with
  | null =>
      cases h
      exact Or.inl rfl
  | boolean b =>
      cases op with
      | not =>
          cases h
          exact Or.inr (Or.inl ⟨rfl, rfl⟩)
      | minus | plus => cases h
  | integer i =>
      cases op with
      | minus =>
          obtain ⟨x, _, rfl⟩ := Option.map_eq_some_iff.mp h
          exact Or.inr (Or.inr ⟨by simp, rfl⟩)
      | plus =>
          cases h
          exact Or.inr (Or.inr ⟨by simp, rfl⟩)
      | not => cases h
  | bigint i =>
      cases op with
      | minus =>
          obtain ⟨x, _, rfl⟩ := Option.map_eq_some_iff.mp h
          exact Or.inr (Or.inr ⟨by simp, rfl⟩)
      | plus =>
          cases h
          exact Or.inr (Or.inr ⟨by simp, rfl⟩)
      | not => cases h
  | double d =>
      cases op with
      | minus | plus =>
          cases h
          exact Or.inr (Or.inr ⟨by simp, rfl⟩)
      | not => cases h
  | string s => cases op <;> cases h

/-- The type of a number: that of a constant which has it. -/
def numberType : Number → DataType
  | .int _ narrow => if narrow then .int32 else .int64
  | .float _ => .float64

theorem dataType_of_number? {m : Number} (h : v.number? = some m) : v.dataType = numberType m := by
  cases v <;> cases h <;> rfl

theorem dataType_arithNumber {op : ArithOp} {m n : Number} (h : arithNumber op m n = some u) :
    arith? (numberType m) (numberType n) = some u.dataType := by
  unfold arithNumber at h
  split at h
  · rename_i na _ nb
    obtain ⟨x, _, h⟩ := Option.bind_eq_some_iff.mp h
    split at h
    · rename_i narrow
      obtain ⟨y, _, h⟩ := Option.bind_eq_some_iff.mp h
      cases h
      rw [Bool.and_eq_true] at narrow
      simp only [numberType, narrow.1, narrow.2]
      rfl
    · cases h
      cases na <;> cases nb <;> first | rfl | simp at *
  · rename_i hints
    obtain ⟨d, _, h⟩ := Option.bind_eq_some_iff.mp h
    cases h
    cases m with
    | int x nx =>
        cases n with
        | int y ny => exact absurd rfl (hints x nx y ny rfl)
        | float y => cases nx <;> rfl
    | float x =>
        cases n with
        | int y ny => cases ny <;> rfl
        | float y => rfl

theorem dataType_arith {op : ArithOp} (h : arith op v w = some u) :
    u = .null ∨ v ≠ .null ∧ w ≠ .null ∧ arith? v.dataType w.dataType = some u.dataType := by
  unfold arith at h
  split at h
  · cases h
    exact Or.inl rfl
  · cases h
    exact Or.inl rfl
  · split at h
    · cases h
      exact Or.inr ⟨by simp, by simp, rfl⟩
    · cases h
  · rename_i hv hw _
    obtain ⟨m, hm, h⟩ := Option.bind_eq_some_iff.mp h
    obtain ⟨n, hn, h⟩ := Option.bind_eq_some_iff.mp h
    refine Or.inr ⟨hv, hw, ?_⟩
    rw [dataType_of_number? hm, dataType_of_number? hn]
    exact dataType_arithNumber h

theorem dataType_compare {op : CompareOp} (h : compare op v w = some u) :
    u = .null ∨ u.dataType = .boolean := by
  unfold compare at h
  split at h
  · cases h
    exact Or.inl rfl
  · cases h
    exact Or.inl rfl
  · obtain ⟨o, _, h⟩ := Option.bind_eq_some_iff.mp h
    cases h
    exact Or.inr rfl

end Literal

namespace Typing

variable {t : Typing} {s : Schema} {e e' c c' : Expr} {type type' : DataType}

/-! ## Expressions with and without NULL at the wrong place -/

/-- The node is arithmetic on a string and NULL. -/
def MixedNode (t : Typing) (s : Schema) (x : Expr) : Prop :=
  ∃ l a op b ta tb, x = .arith l a op b ∧ Typed t s a ta ∧ Typed t s b tb ∧ Mixed ta tb

/-- Arithmetic on a string and NULL occurs in the expression. -/
def Mixes (t : Typing) (s : Schema) (e : Expr) : Prop :=
  ∃ x, Expr.Within x e ∧ MixedNode t s x

/-- The expressions whose value a case may have. -/
def outcomes (bs : List (Expr × Expr)) (els : Option Expr) : List Expr :=
  bs.map (·.2) ++ els.toList

/-- The expressions that are not NULL have one type. -/
def Agree (t : Typing) (s : Schema) (rs : List Expr) : Prop :=
  ∀ r ∈ rs, ∀ r' ∈ rs, ∀ ty ty',
    Typed t s r ty → Typed t s r' ty' → ty ≠ .null → ty' ≠ .null → ty = ty'

/-- The outcomes of each case in the expression agree. -/
def Uniform (t : Typing) (s : Schema) (e : Expr) : Prop :=
  ∀ l o bs els, Expr.Within (.case l o bs els) e → Agree t s (outcomes bs els)

/-- The operands of arithmetic and the arguments of a call, whose types make up that of the node. -/
def operands : Expr → List Expr
  | .arith _ a _ b => [a, b]
  | .call _ _ args _ => args
  | _ => []

/-- No operand of arithmetic and no argument in the expression has the type of NULL. -/
def Solid (t : Typing) (s : Schema) (e : Expr) : Prop :=
  ∀ x, Expr.Within x e → ∀ c ∈ operands x, ¬Typed t s c .null

theorem Mixes.part (hc : c ∈ e.children) (h : Mixes t s c) : Mixes t s e := by
  obtain ⟨x, hx, hmixed⟩ := h
  exact ⟨x, .part hc hx, hmixed⟩

theorem Mixes.withLoc {l : Option Location} (h : Mixes t s e) : Mixes t s (e.withLoc l) := by
  refine Expr.exists_within_withLoc (fun x l => ?_) h
  rintro ⟨l', a, op, b, ta, tb, rfl, hmixed⟩
  exact ⟨l, a, op, b, ta, tb, rfl, hmixed⟩

theorem not_mixes_of_children (hc : e.children = []) : ¬Mixes t s e := by
  rintro ⟨x, hx, l, a, op, b, ta, tb, rfl, _⟩
  cases hx with
  | self => simp [Expr.children] at hc
  | part member => simp [hc] at member

/-- An expression with a type has no arithmetic on a string and NULL. -/
theorem Typed.not_mixes (h : Typed t s e type) : ¬Mixes t s e := by
  rintro ⟨x, hx, hmixed⟩
  induction hx generalizing type with
  | self =>
      obtain ⟨l, a, op, b, ta, tb, rfl, ha, hb, hm⟩ := hmixed
      obtain ⟨ta', tb', ha', hb', harith⟩ := typed_arith.mp h
      rw [ha.unique ha', hb.unique hb'] at hm
      exact not_mixed_of_arith? harith hm
  | part member inner ih =>
      rcases h.child member with hw | ⟨type', h'⟩
      · refine not_mixes_of_children ?_ ⟨x, inner, hmixed⟩
        rename_i part _
        cases part <;> first | rfl | cases hw
      · exact ih h'

theorem Uniform.part (hc : c ∈ e.children) (h : Uniform t s e) : Uniform t s c :=
  fun l o bs els hcase => h l o bs els (.part hc hcase)

theorem uniform_of_children (hnode : ∀ l o bs els, e = .case l o bs els → Agree t s (outcomes bs els))
    (hparts : ∀ c ∈ e.children, Uniform t s c) : Uniform t s e := by
  intro l o bs els hcase
  cases hcase with
  | self => exact hnode l o bs els rfl
  | part member inner => exact hparts _ member l o bs els inner

theorem Solid.part (hc : c ∈ e.children) (h : Solid t s e) : Solid t s c :=
  fun x hx => h x (.part hc hx)

theorem Solid.of_withLoc {l : Option Location} (h : Solid t s (e.withLoc l)) : Solid t s e := by
  intro x hx c hc htyped
  obtain ⟨y, hy, hcy⟩ : ∃ y, Expr.Within y (e.withLoc l) ∧ c ∈ operands y := by
    refine Expr.exists_within_withLoc (fun y l hcy => ?_) ⟨x, hx, hc⟩
    cases y <;> exact hcy
  exact h y hy c hcy htyped

/-! ## What becomes of a type -/

/-- The second type is the one that the first has become: narrower, and the same up to NULL where
    nothing widened and no NULL came in. -/
structure Follows (t : Typing) (s : Schema) (e e' : Expr) (type type' : DataType) : Prop where
  narrows : Narrows type' type
  kept : Uniform t s e → Solid t s e' → type' = type ∨ type' = .null

/-- The second expression has a type that follows that of the first, if that has one, or it mixes a
    string with NULL. Only a `*` becomes a `*`. -/
def Becomes (t : Typing) (s : Schema) (e e' : Expr) : Prop :=
  (e.isWildcard = true → e'.isWildcard = true) ∧
    ∀ type, Typed t s e type →
      (∃ type', Typed t s e' type' ∧ Follows t s e e' type type') ∨ Mixes t s e'

theorem Follows.same (type : DataType) : Follows t s e e' type type :=
  ⟨.same type, fun _ _ => Or.inl rfl⟩

theorem Follows.null (type : DataType) : Follows t s e e' type .null :=
  ⟨.null type, fun _ _ => Or.inr rfl⟩

/-- A part of an expression in which nothing is mixed. -/
theorem Becomes.typed (h : Becomes t s c c') (hc' : ¬Mixes t s c') (hc : Typed t s c type) :
    ∃ type', Typed t s c' type' ∧ Follows t s c c' type type' :=
  (h.2 type hc).resolve_right hc'

/-- A part that has become a constant. -/
theorem Becomes.literal {l : Option Location} {v : Literal} (h : Becomes t s c (.literal l v))
    (hc : Typed t s c type) : Follows t s c (.literal l v) type v.dataType := by
  obtain ⟨type', hv, hfollows⟩ := h.typed (not_mixes_of_children rfl) hc
  rwa [typed_literal.mp hv] at hfollows

theorem solid_literal {l : Option Location} {v : Literal} : Solid t s (.literal l v) := by
  intro x hx c hc
  cases hx with
  | self => simp [operands] at hc
  | part member => simp [Expr.children] at member

/-! ## Nodes over what became of their parts -/

theorem mem_children_of_outcome {bs : List (Expr × Expr)} {els : Option Expr} {r : Expr}
    (hr : r ∈ outcomes bs els) {l : Option Location} {o : Option Expr} :
    r ∈ (Expr.case l o bs els).children := by
  simp only [Expr.children, List.mem_append, List.mem_flatMap]
  rcases List.mem_append.mp hr with hr | hr
  · obtain ⟨b, hb, rfl⟩ := List.mem_map.mp hr
    exact Or.inl (Or.inr ⟨b, hb, by simp⟩)
  · exact Or.inr hr

theorem typed_outcomes {subject : Option DataType} {bs : List (Expr × Expr)}
    {results : List DataType} {els : Option Expr} {last : Option DataType}
    (hresults : List.Forall₂ (TypedBranch t s subject) bs results)
    (hlast : Option.Rel (Typed t s) els last) :
    List.Forall₂ (Typed t s) (outcomes bs els) (results ++ last.toList) := by
  refine List.rel_append (List.forall₂_map_left_iff.mpr (hresults.imp fun _ _ h => h.2)) ?_
  cases hlast with
  | none => exact .nil
  | some h => exact .cons h .nil

/-- Outcomes that agree up to NULL have the type of the case, up to NULL. -/
theorem eq_of_uniform {l : Option Location} {o els : Option Expr} {bs : List (Expr × Expr)}
    {types : List DataType} (hu : Uniform t s (.case l o bs els))
    (htypes : List.Forall₂ (Typed t s) (outcomes bs els) types) (h : caseType types = .ok type)
    {x : DataType} (hx : x ∈ types) : x = type ∨ x = .null := by
  have hone : ∀ x ∈ types, ∀ y ∈ types, x ≠ .null → y ≠ .null → x = y := by
    intro x hx y hy hxn hyn
    obtain ⟨r, hr, htr⟩ := exists_left htypes hx
    obtain ⟨r', hr', htr'⟩ := exists_left htypes hy
    exact hu l o bs els .self r hr r' hr' x y htr htr' hxn hyn
  obtain ⟨hall, hstems⟩ := commonType_of_caseType h
  by_cases hnull : x = .null
  · exact Or.inr hnull
  · refine Or.inl ?_
    have htype : type ≠ .null := by
      rintro rfl
      exact hnull (hall x hx).eq_null
    rcases hstems with hmem | hn | ⟨_, y, hy, z, hz, hne, hys, hzs⟩
    · exact hone x hx type hmem hnull htype
    · exact absurd hn htype
    · refine absurd (hone y hy z hz ?_ ?_) hne
      · rintro rfl
        cases hys
      · rintro rfl
        cases hzs

/-- A case whose outcomes became NULL or stayed of the type that they had. -/
theorem caseType_kept {types : List DataType} (h : caseType types = .ok type')
    (hkept : ∀ x ∈ types, x = type ∨ x = .null) : type' = type ∨ type' = .null := by
  rcases (commonType_of_caseType h).2 with hmem | hnull | ⟨_, y, hy, z, hz, hne, hys, hzs⟩
  · exact hkept type' hmem
  · exact Or.inr hnull
  · have hstring : ∀ x ∈ types, x.isString = true → x = type := by
      intro x hx hs
      refine (hkept x hx).resolve_right ?_
      rintro rfl
      cases hs
    exact absurd ((hstring y hy hys).trans (hstring z hz hzs).symm) hne

section Case

variable {l l' : Option Location} {o o' els els' : Option Expr} {bs bs' : List (Expr × Expr)}
  {subject subject' : Option DataType}

theorem exists_typed_option (ho : Option.Rel (Becomes t s) o o') (h : Option.Rel (Typed t s) o subject)
    (hmixes : ∀ c' ∈ o'.toList, ¬Mixes t s c') :
    ∃ subject', Option.Rel (Typed t s) o' subject' ∧ Option.Rel Narrows subject' subject := by
  cases ho with
  | none =>
      cases h
      exact ⟨none, .none, .none⟩
  | some hc =>
      cases h with
      | some h =>
          obtain ⟨type', h', hfollows⟩ := hc.typed (hmixes _ (by simp)) h
          exact ⟨some type', .some h', .some hfollows.narrows⟩

/-- The branches of a case over a narrower operand. -/
theorem exists_typed_branch {b b' : Expr × Expr} (hb : Expr.BranchRel (Becomes t s) b b')
    (h : TypedBranch t s subject b type) (hsubject : Option.Rel Narrows subject' subject)
    (hw : ¬Mixes t s b'.1) (hr : ¬Mixes t s b'.2) : ∃ type', TypedBranch t s subject' b' type' := by
  obtain ⟨⟨tw, htw, hcondition⟩, htr⟩ := h
  obtain ⟨tw', htw', hfollows⟩ := hb.1.typed hw htw
  obtain ⟨type', htr', _⟩ := hb.2.typed hr htr
  refine ⟨type', ⟨tw', htw', ?_⟩, htr'⟩
  cases hsubject with
  | none => exact hfollows.narrows.truth hcondition
  | some hs => exact comparable_of_narrows hcondition hs hfollows.narrows

theorem becomes_outcome (hbs : ∀ b' ∈ bs', ∃ b ∈ bs, Expr.BranchRel (Becomes t s) b b')
    (hels : Option.Rel (Becomes t s) els els') {r' : Expr} (hr' : r' ∈ outcomes bs' els') :
    ∃ r ∈ outcomes bs els, Becomes t s r r' := by
  rcases List.mem_append.mp hr' with hr' | hr'
  · obtain ⟨b', hb', rfl⟩ := List.mem_map.mp hr'
    obtain ⟨b, hb, _, hr⟩ := hbs b' hb'
    exact ⟨b.2, List.mem_append_left _ (List.mem_map_of_mem hb), hr⟩
  · cases hels with
    | none => cases hr'
    | some hc =>
        rw [List.mem_singleton.mp hr']
        exact ⟨_, List.mem_append_right _ (List.mem_singleton.mpr rfl), hc⟩

/-- A case over what became of its parts, perhaps with some branches left out. -/
theorem becomes_case (ho : Option.Rel (Becomes t s) o o')
    (hbs : ∀ b' ∈ bs', ∃ b ∈ bs, Expr.BranchRel (Becomes t s) b b')
    (hels : Option.Rel (Becomes t s) els els') (h : Typed t s (.case l o bs els) type)
    (hmixes : ¬Mixes t s (.case l' o' bs' els')) :
    ∃ type', Typed t s (.case l' o' bs' els') type' ∧
      Follows t s (.case l o bs els) (.case l' o' bs' els') type type' := by
  obtain ⟨subject, results, last, hsubject, hresults, hlast, hcase⟩ := typed_case.mp h
  have hpart : ∀ c' ∈ (Expr.case l' o' bs' els').children, ¬Mixes t s c' :=
    fun c' hc' hm => hmixes (hm.part hc')
  obtain ⟨subject', hsubject', hnarrows⟩ := exists_typed_option ho hsubject fun c' hc' =>
    hpart c' (by simp only [Expr.children, List.mem_append]; exact Or.inl (Or.inl hc'))
  obtain ⟨last', hlast', _⟩ := exists_typed_option hels hlast fun c' hc' =>
    hpart c' (mem_children_of_outcome (List.mem_append_right _ hc'))
  obtain ⟨results', hresults'⟩ : ∃ results', List.Forall₂ (TypedBranch t s subject') bs' results' := by
    refine exists_forall₂ fun b' hb' => ?_
    obtain ⟨b, hb, hrel⟩ := hbs b' hb'
    obtain ⟨r, _, hr⟩ := exists_right hresults hb
    have hmem : ∀ c ∈ [b'.1, b'.2], c ∈ (Expr.case l' o' bs' els').children := by
      intro c hc
      simp only [Expr.children, List.mem_append, List.mem_flatMap]
      exact Or.inl (Or.inr ⟨b', hb', hc⟩)
    exact exists_typed_branch hrel hr hnarrows (hpart _ (hmem _ (by simp)))
      (hpart _ (hmem _ (by simp)))
  have htypes := typed_outcomes hresults hlast
  -- each outcome follows one that was there
  have houtcome : ∀ x' ∈ results' ++ last'.toList, ∃ x ∈ results ++ last.toList, Narrows x' x ∧
      (Uniform t s (.case l o bs els) → Solid t s (.case l' o' bs' els') → x' = x ∨ x' = .null) := by
    intro x' hx'
    obtain ⟨r', hr', htr'⟩ := exists_left (typed_outcomes hresults' hlast') hx'
    obtain ⟨r, hr, hbecomes⟩ := becomes_outcome hbs hels hr'
    obtain ⟨x, hx, htr⟩ := exists_right htypes hr
    obtain ⟨y', hy', hfollows⟩ := hbecomes.typed (hpart r' (mem_children_of_outcome hr')) htr
    rw [hy'.unique htr'] at hfollows
    exact ⟨x, hx, hfollows.narrows, fun hu hs => hfollows.kept
      (hu.part (mem_children_of_outcome hr)) (hs.part (mem_children_of_outcome hr'))⟩
  obtain ⟨type', hcase', htype'⟩ := caseType_of_narrows hcase fun x' hx' =>
    (houtcome x' hx').imp fun x hx => ⟨hx.1, hx.2.1⟩
  refine ⟨type', typed_case.mpr ⟨subject', results', last', hsubject', hresults', hlast', hcase'⟩,
    htype', fun hu hs => caseType_kept hcase' fun x' hx' => ?_⟩
  obtain ⟨x, hx, _, hkept⟩ := houtcome x' hx'
  rcases hkept hu hs with rfl | hnull
  · exact eq_of_uniform hu htypes hcase hx
  · exact Or.inr hnull

end Case

section Call

variable {l : Option Location} {name : String} {args args' : List Expr} {d : Bool}

/-- An argument of a call; where no NULL came in it keeps its type. -/
theorem exists_typed_arg {a a' : Expr} {alone : Bool} (hbecomes : Becomes t s a a')
    (h : TypedArg t s alone a type) (hmixes : ¬Mixes t s a') :
    ∃ type', TypedArg t s alone a' type' ∧ Narrows type' type ∧
      (Uniform t s a → Solid t s a' → ¬Typed t s a' .null → type' = type) := by
  unfold TypedArg at h
  by_cases hw : a.isWildcard = true
  · rw [if_pos hw] at h
    refine ⟨type, ?_, .same type, fun _ _ _ => rfl⟩
    rwa [TypedArg, if_pos (hbecomes.1 hw)]
  · rw [if_neg hw] at h
    obtain ⟨type', h', hfollows⟩ := hbecomes.typed hmixes h
    have hw' : ¬a'.isWildcard = true := by
      intro hw'
      cases a' with
      | wildcard => exact not_typed_wildcard h'
      | _ => cases hw'
    refine ⟨type', by rwa [TypedArg, if_neg hw'], hfollows.narrows, fun hu hs hnull => ?_⟩
    refine (hfollows.kept hu hs).resolve_right ?_
    rintro rfl
    exact hnull h'

/-- A call of the same function with what became of its arguments. -/
theorem becomes_call (hargs : List.Forall₂ (Becomes t s) args args')
    (h : Typed t s (.call l name args d) type) (hmixes : ¬Mixes t s (.call l name args' d)) :
    ∃ type', Typed t s (.call l name args' d) type' ∧
      Follows t s (.call l name args d) (.call l name args' d) type type' := by
  obtain ⟨f, types, hf, htypes, hstring, hresult⟩ := typed_call.mp h
  rw [hargs.length_eq] at htypes
  obtain ⟨types', htypes', hfollows⟩ : ∃ types',
      List.Forall₂ (TypedArg t s (f.wildcard && args'.length == 1)) args' types' ∧
      List.Forall₂ (fun ty' ty => Narrows ty' ty ∧ (Uniform t s (.call l name args d) →
        Solid t s (.call l name args' d) → ty' = ty)) types' types := by
    refine forall₂_lift hargs htypes fun a a' ty ha ha' hbecomes hty => ?_
    obtain ⟨ty', hty', hnarrows, hkept⟩ := exists_typed_arg hbecomes hty
      fun hm => hmixes (hm.part ha')
    exact ⟨ty', hty', hnarrows, fun hu hs => hkept (hu.part (e := .call l name args d) ha)
      (hs.part (e := .call l name args' d) ha') (hs _ .self a' ha')⟩
  have hnarrows : List.Forall₂ Narrows types' types := hfollows.imp fun _ _ h => h.1
  obtain ⟨type', hresult', htype'⟩ := Signature.resultType_of_narrows hresult hnarrows
  refine ⟨type', typed_call.mpr ⟨f, types', hf, htypes',
    Signature.checkString_of_narrows hstring hnarrows, hresult'⟩, htype', fun hu hs => ?_⟩
  have heq : types' = types := List.forall₂_eq_eq_eq ▸ hfollows.imp fun _ _ h => h.2 hu hs
  rw [heq, hresult] at hresult'
  exact Or.inl (Except.ok.inj hresult').symm

end Call

/-- A node over what became of its parts, unless a string and NULL came together. -/
theorem becomes_of_congruent (hparts : Expr.Congruent (Becomes t s) e e')
    (h : Typed t s e type) (hmixes : ¬Mixes t s e') :
    ∃ type', Typed t s e' type' ∧ Follows t s e e' type type' := by
  have hpart : ∀ {c c' ty}, Becomes t s c c' → c' ∈ e'.children → Typed t s c ty →
      ∃ ty', Typed t s c' ty' ∧ Follows t s c c' ty ty' :=
    fun hc hc' hty => hc.typed (fun hm => hmixes (hm.part hc')) hty
  cases hparts with
  | literal | column | wildcard => exact ⟨type, h, .same type⟩
  | call l name d hargs => exact becomes_call hargs h hmixes
  | case l ho hbs hels =>
      exact becomes_case ho (fun b' hb' => exists_left hbs hb') hels h hmixes
  | @unary a a' l op ha =>
      obtain ⟨ta, hta, hop⟩ := typed_unary.mp h
      obtain ⟨ta', hta', hfollows⟩ := hpart ha (by simp [Expr.children]) hta
      cases op with
      | not =>
          obtain ⟨htruth, rfl⟩ := hop
          exact ⟨_, typed_unary.mpr ⟨ta', hta', hfollows.narrows.truth htruth, rfl⟩, .same _⟩
      | minus | plus =>
          obtain ⟨hnumber, rfl⟩ := hop
          have hnumber' : ta' = .null ∨ ta'.isNumeric = true := by
            rcases hnumber with rfl | hnumber
            · exact Or.inl hfollows.narrows.eq_null
            · exact hfollows.narrows.isNumeric hnumber
          refine ⟨ta', typed_unary.mpr ⟨ta', hta', hnumber', rfl⟩, hfollows.narrows, fun hu hs => ?_⟩
          exact hfollows.kept (hu.part (by simp [Expr.children])) (hs.part (by simp [Expr.children]))
  | @arith a a' b b' l op ha hb =>
      obtain ⟨ta, tb, hta, htb, harith⟩ := typed_arith.mp h
      obtain ⟨ta', hta', hfa⟩ := hpart ha (by simp [Expr.children]) hta
      obtain ⟨tb', htb', hfb⟩ := hpart hb (by simp [Expr.children]) htb
      rcases arith?_of_narrows harith hfa.narrows hfb.narrows with ⟨type', harith', htype'⟩ | hmixed
      · refine ⟨type', typed_arith.mpr ⟨ta', tb', hta', htb', harith'⟩, htype', fun hu hs => ?_⟩
        have hea : ta' = ta := by
          refine (hfa.kept (hu.part (by simp [Expr.children]))
            (hs.part (by simp [Expr.children]))).resolve_right ?_
          rintro rfl
          exact hs _ .self a' (by simp [operands]) hta'
        have heb : tb' = tb := by
          refine (hfb.kept (hu.part (by simp [Expr.children]))
            (hs.part (by simp [Expr.children]))).resolve_right ?_
          rintro rfl
          exact hs _ .self b' (by simp [operands]) htb'
        rw [hea, heb, harith] at harith'
        exact Or.inl (Option.some.inj harith').symm
      · exact absurd ⟨_, .self, l, a', op, b', ta', tb', rfl, hta', htb', hmixed⟩ hmixes
  | compare l op ha hb =>
      obtain ⟨ta, tb, hta, htb, hc, rfl⟩ := typed_compare.mp h
      obtain ⟨ta', hta', hfa⟩ := hpart ha (by simp [Expr.children]) hta
      obtain ⟨tb', htb', hfb⟩ := hpart hb (by simp [Expr.children]) htb
      exact ⟨_, typed_compare.mpr ⟨ta', tb', hta', htb',
        comparable_of_narrows hc hfa.narrows hfb.narrows, rfl⟩, .same _⟩
  | logic l op ha hb =>
      obtain ⟨ta, tb, hta, htb, htra, htrb, rfl⟩ := typed_logic.mp h
      obtain ⟨ta', hta', hfa⟩ := hpart ha (by simp [Expr.children]) hta
      obtain ⟨tb', htb', hfb⟩ := hpart hb (by simp [Expr.children]) htb
      exact ⟨_, typed_logic.mpr ⟨ta', tb', hta', htb', hfa.narrows.truth htra,
        hfb.narrows.truth htrb, rfl⟩, .same _⟩
  | nullIf l ha hb =>
      obtain ⟨tb, hta, htb, hc⟩ := typed_nullIf.mp h
      obtain ⟨ta', hta', hfa⟩ := hpart ha (by simp [Expr.children]) hta
      obtain ⟨tb', htb', hfb⟩ := hpart hb (by simp [Expr.children]) htb
      refine ⟨ta', typed_nullIf.mpr ⟨tb', hta', htb',
        comparable_of_narrows hc hfa.narrows hfb.narrows⟩, hfa.narrows, fun hu hs => ?_⟩
      exact hfa.kept (hu.part (by simp [Expr.children])) (hs.part (by simp [Expr.children]))
  | cast l ty ha =>
      obtain ⟨⟨ta, hta⟩, rfl⟩ := typed_cast.mp h
      obtain ⟨ta', hta', _⟩ := hpart ha (by simp [Expr.children]) hta
      exact ⟨_, typed_cast.mpr ⟨⟨ta', hta'⟩, rfl⟩, .same _⟩
  | isNull l neg ha =>
      obtain ⟨⟨ta, hta⟩, rfl⟩ := typed_isNull.mp h
      obtain ⟨ta', hta', _⟩ := hpart ha (by simp [Expr.children]) hta
      exact ⟨_, typed_isNull.mpr ⟨⟨ta', hta'⟩, rfl⟩, .same _⟩
  | between l neg ha hlo hhi =>
      obtain ⟨ta, tl, th, hta, htl, hth, hcl, hch, rfl⟩ := typed_between.mp h
      obtain ⟨ta', hta', hfa⟩ := hpart ha (by simp [Expr.children]) hta
      obtain ⟨tl', htl', hfl⟩ := hpart hlo (by simp [Expr.children]) htl
      obtain ⟨th', hth', hfh⟩ := hpart hhi (by simp [Expr.children]) hth
      exact ⟨_, typed_between.mpr ⟨ta', tl', th', hta', htl', hth',
        comparable_of_narrows hcl hfa.narrows hfl.narrows,
        comparable_of_narrows hch hfa.narrows hfh.narrows, rfl⟩, .same _⟩
  | like l neg ha hb =>
      obtain ⟨ta, tb, hta, htb, hsa, hsb, rfl⟩ := typed_like.mp h
      obtain ⟨ta', hta', hfa⟩ := hpart ha (by simp [Expr.children]) hta
      obtain ⟨tb', htb', hfb⟩ := hpart hb (by simp [Expr.children]) htb
      exact ⟨_, typed_like.mpr ⟨ta', tb', hta', htb', hfa.narrows.text hsa, hfb.narrows.text hsb,
        rfl⟩, .same _⟩
  | inList l neg ha hitems =>
      obtain ⟨ta, hta, rfl, hall⟩ := typed_inList.mp h
      obtain ⟨ta', hta', hfa⟩ := hpart ha (by simp [Expr.children]) hta
      refine ⟨_, typed_inList.mpr ⟨ta', hta', rfl, fun i' hi' => ?_⟩, .same _⟩
      obtain ⟨i, hi, hitem⟩ := exists_left hitems hi'
      obtain ⟨ti, hti, hc⟩ := hall i hi
      obtain ⟨ti', hti', hfi⟩ := hpart hitem (by simp [Expr.children, hi']) hti
      exact ⟨ti', hti', comparable_of_narrows hc hfa.narrows hfi.narrows⟩

/-! ## Folding -/

/-- An outcome of a case, put in the place of the case. -/
theorem becomes_of_outcome {l l' : Option Location} {o els : Option Expr} {bs : List (Expr × Expr)}
    {r r' : Expr} (hr : r ∈ outcomes bs els) (hbecomes : Becomes t s r r')
    (h : Typed t s (.case l o bs els) type) (hmixes : ¬Mixes t s (r'.withLoc l')) :
    ∃ type', Typed t s (r'.withLoc l') type' ∧
      Follows t s (.case l o bs els) (r'.withLoc l') type type' := by
  obtain ⟨subject, results, last, _, hresults, hlast, hcase⟩ := typed_case.mp h
  have htypes := typed_outcomes hresults hlast
  obtain ⟨x, hx, htr⟩ := exists_right htypes hr
  obtain ⟨type', htr', hfollows⟩ := hbecomes.typed (fun hm => hmixes hm.withLoc) htr
  refine ⟨type', typed_withLoc.mpr htr',
    hfollows.narrows.trans ((commonType_of_caseType hcase).1 x hx), fun hu hs => ?_⟩
  rcases hfollows.kept (hu.part (mem_children_of_outcome hr)) hs.of_withLoc with rfl | hnull
  · exact eq_of_uniform hu htypes hcase hx
  · exact Or.inr hnull

/-- A side of a connective, put in the place of the connective. -/
theorem becomes_of_side {l : Option Location} (hbecomes : Becomes t s c c')
    (hc : Typed t s c type) (htruth : type = .boolean ∨ type = .null)
    (hmixes : ¬Mixes t s (c'.withLoc l)) :
    ∃ type', Typed t s (c'.withLoc l) type' ∧ Follows t s e (c'.withLoc l) .boolean type' := by
  obtain ⟨type', hc', hfollows⟩ := hbecomes.typed (fun hm => hmixes hm.withLoc) hc
  refine ⟨type', typed_withLoc.mpr hc', ?_⟩
  rcases hfollows.narrows.truth htruth with rfl | rfl
  · exact .same _
  · exact .null _

/-- Arithmetic on two constants has the value's type. -/
theorem follows_arith {l la lb : Option Location} {a b : Expr} {op : ArithOp} {v w u : Literal}
    (ha : Becomes t s a (.literal la v)) (hb : Becomes t s b (.literal lb w))
    (h : Typed t s (.arith l a op b) type) (hu : Literal.arith op v w = some u) :
    Follows t s (.arith l a op b) (.literal l u) type u.dataType := by
  obtain ⟨ta, tb, hta, htb, harith⟩ := typed_arith.mp h
  have hfa := ha.literal hta
  have hfb := hb.literal htb
  rcases Literal.dataType_arith hu with rfl | ⟨hv, hw, harith'⟩
  · exact .null type
  · refine ⟨?_, fun hun _ => ?_⟩
    · rcases arith?_of_narrows harith hfa.narrows hfb.narrows with ⟨type', h', htype'⟩ | hmixed
      · rw [harith'] at h'
        rwa [Option.some.inj h']
      · exact absurd hmixed (not_mixed_of_arith? harith')
    · have hea : v.dataType = ta :=
        (hfa.kept (hun.part (by simp [Expr.children])) solid_literal).resolve_right
          (mt Literal.dataType_eq_null.mp hv)
      have heb : w.dataType = tb :=
        (hfb.kept (hun.part (by simp [Expr.children])) solid_literal).resolve_right
          (mt Literal.dataType_eq_null.mp hw)
      rw [hea, heb, harith] at harith'
      exact Or.inl (Option.some.inj harith').symm

/-- A folded node over what became of the parts. -/
theorem becomes_of_folds {x r : Expr} (hparts : Expr.Congruent (Becomes t s) e x)
    (hfolds : Expr.Folds x r) (h : Typed t s e type) (hmixes : ¬Mixes t s r) :
    ∃ type', Typed t s r type' ∧ Follows t s e r type type' := by
  cases hfolds with
  | unchanged => exact becomes_of_congruent hparts h hmixes
  | @unary l l' op v u value =>
      cases hparts with
      | unary _ _ ha =>
          obtain ⟨ta, hta, hop⟩ := typed_unary.mp h
          refine ⟨_, typed_literal.mpr rfl, ?_⟩
          rcases Literal.dataType_unary value with rfl | ⟨rfl, hu⟩ | ⟨hne, hu⟩
          · exact .null _
          · rw [hu, hop.2]
            exact .same _
          · have hfollows := ha.literal hta
            have htype : type = ta := by
              cases op with
              | not => exact absurd rfl hne
              | minus | plus => exact hop.2
            rw [hu, htype]
            exact ⟨hfollows.narrows, fun hun _ =>
              hfollows.kept (hun.part (by simp [Expr.children])) solid_literal⟩
  | arith value =>
      cases hparts with
      | arith l op ha hb => exact ⟨_, typed_literal.mpr rfl, follows_arith ha hb h value⟩
  | compare value =>
      cases hparts with
      | compare l op ha hb =>
          obtain ⟨_, _, _, _, _, rfl⟩ := typed_compare.mp h
          refine ⟨_, typed_literal.mpr rfl, ?_⟩
          rcases Literal.dataType_compare value with rfl | hu
          · exact .null _
          · rw [hu]
            exact .same _
  | isNull =>
      cases hparts with
      | isNull l neg ha =>
          obtain ⟨_, rfl⟩ := typed_isNull.mp h
          exact ⟨_, typed_literal.mpr rfl, .same _⟩
  | decided truth =>
      cases hparts with
      | logic l op ha hb =>
          obtain ⟨_, _, _, _, _, _, rfl⟩ := typed_logic.mp h
          exact ⟨_, typed_literal.mpr rfl, .same _⟩
  | unknown =>
      cases hparts with
      | logic l op ha hb => exact ⟨_, typed_literal.mpr rfl, .null _⟩
  | left =>
      cases hparts with
      | logic l op ha hb =>
          obtain ⟨_, tb, _, htb, _, htruth, rfl⟩ := typed_logic.mp h
          exact becomes_of_side hb htb htruth hmixes
  | right =>
      cases hparts with
      | logic l op ha hb =>
          obtain ⟨ta, _, hta, _, htruth, _, rfl⟩ := typed_logic.mp h
          exact becomes_of_side ha hta htruth hmixes
  | otherwise =>
      cases hparts with
      | case l ho hbs hels =>
          cases hels with
          | none => exact ⟨_, typed_literal.mpr rfl, .null _⟩
          | some hr =>
              exact becomes_of_outcome (List.mem_append_right _ (by simp)) hr h hmixes
  | taken branch =>
      cases hparts with
      | case l ho hbs hels =>
          obtain ⟨b, hb, _, hr⟩ := exists_left hbs branch
          exact becomes_of_outcome (List.mem_append_left _ (List.mem_map_of_mem hb)) hr h hmixes
  | remaining kept =>
      cases hparts with
      | case l ho hbs hels =>
          refine becomes_case ho (fun b' hb' => ?_) hels h hmixes
          rw [← kept] at hb'
          exact exists_left hbs (List.mem_of_mem_filter hb')

/-! ## NULLIF written as its case -/

theorem typed_expand (h : Typed t s e type) : Typed t s e.expand type := by
  cases e with
  | nullIf l a b =>
      obtain ⟨tb, ha, hb, hc⟩ := typed_nullIf.mp h
      have hbranch : TypedBranch t s none (.compare none a .eq b, .null) .null :=
        ⟨⟨.boolean, typed_compare.mpr ⟨type, tb, ha, hb, hc, rfl⟩, Or.inl rfl⟩,
          typed_literal.mpr rfl⟩
      refine typed_case.mpr ⟨none, [.null], some type, .none, .cons hbranch .nil, .some ha, ?_⟩
      cases type <;> rfl
  | _ => exact h

theorem uniform_expand (h : Uniform t s e) : Uniform t s e.expand := by
  cases e with
  | nullIf l a b =>
      have ha : Uniform t s a := h.part (by simp [Expr.children])
      have hb : Uniform t s b := h.part (by simp [Expr.children])
      have hcompare : Uniform t s (.compare none a .eq b) := by
        refine uniform_of_children (by simp) fun c hc => ?_
        rcases List.mem_pair.mp hc with rfl | rfl
        · exact ha
        · exact hb
      refine uniform_of_children ?_ fun c hc => ?_
      · -- one of the two outcomes is NULL
        rintro l' o bs els ⟨⟩
        have hone : ∀ r ∈ outcomes [(Expr.compare none a .eq b, Expr.null)] (some a), ∀ ty,
            Typed t s r ty → ty ≠ .null → r = a := by
          intro r hr ty hty hne
          rcases List.mem_pair.mp hr with rfl | rfl
          · exact absurd (typed_literal.mp hty) hne
          · rfl
        intro r hr r' hr' ty ty' hty hty' hne hne'
        rw [hone r hr ty hty hne] at hty
        rw [hone r' hr' ty' hty' hne'] at hty'
        exact hty.unique hty'
      · have hc : c ∈ [Expr.compare none a .eq b, Expr.null, a] := hc
        simp only [List.mem_cons, List.not_mem_nil, or_false] at hc
        rcases hc with rfl | rfl | rfl
        · exact hcompare
        · exact uniform_of_children (fun _ _ _ _ h => by cases h) (fun c hc => by cases hc)
        · exact ha
  | _ => exact h

/-! ## A pass -/

/-- Simplification makes of each expression one that it may become. -/
theorem becomes_simplifyWithin {limit n : Nat} (h : Expr.simplifyWithin limit n e = .ok e') :
    Becomes t s e e' := by
  induction n generalizing e e' with
  | zero => cases h
  | succ n ih =>
      obtain ⟨x, hparts, rfl⟩ := Expr.simplifyWithin_eq_ok.mp h
      refine ⟨fun hw => ?_, fun type htype => ?_⟩
      · cases e with
        | wildcard l =>
            cases hparts
            rfl
        | _ => cases hw
      · by_cases hmixes : Mixes t s x.fold
        · exact Or.inr hmixes
        · obtain ⟨type', h', hfollows⟩ := becomes_of_folds (hparts.imp fun _ _ hc => ih hc)
            (Expr.folds_fold x) (typed_expand htype) hmixes
          exact Or.inl ⟨type', h', hfollows.narrows, fun hu hs =>
            hfollows.kept (uniform_expand hu) hs⟩

end Typing

end StreamSql
