/-
  Expressions by their direct parts. `inductParts` is the induction that every walk over an
  expression uses: a fact about a node may rest on the same fact about each of its parts.

  `Congruent R e e'` says that `e'` is the node `e` over other parts: same kind, operator, names,
  flags and position, and parts related by `R` one by one. A walk that rebuilds a node from what it
  made of the parts gives exactly such a node (`mapChildren_eq_ok`), so nothing else has to open
  `mapChildren` again.

  `Within s e` says that `s` occurs in `e`, at any depth. The columns that a walk collects are the
  columns that occur (`mem_columns`).
-/
import StreamSql.Expr.Traverse
import StreamSql.Proofs.Outcome

namespace StreamSql.Expr

open Outcome

/-! ## Induction -/

theorem sizeOf_lt_of_mem_branches {c : Expr} {bs : List (Expr × Expr)}
    (h : c ∈ bs.flatMap fun b => [b.1, b.2]) : sizeOf c < sizeOf bs := by
  obtain ⟨⟨w, t⟩, hb, hc⟩ := List.mem_flatMap.mp h
  have hlt := List.sizeOf_lt_of_mem hb
  simp only [List.mem_cons, List.not_mem_nil, or_false] at hc
  rcases hc with rfl | rfl <;> simp at hlt <;> omega

theorem sizeOf_lt_of_mem_children {c e : Expr} (h : c ∈ e.children) : sizeOf c < sizeOf e := by
  cases e with
  | literal | column | wildcard => simp [children] at h
  | call l n as d =>
      simp only [children] at h
      have := List.sizeOf_lt_of_mem h
      simp only [call.sizeOf_spec]
      omega
  | unary | cast | isNull | arith | compare | logic | nullIf | between | like =>
      simp only [children, List.mem_cons, List.not_mem_nil, or_false] at h
      rcases h with rfl | rfl | rfl <;> simp +arith
  | case l o bs e =>
      simp only [children, List.mem_append, Option.mem_toList] at h
      rcases h with (rfl | h) | rfl
      · simp +arith
      · have := sizeOf_lt_of_mem_branches h
        simp only [case.sizeOf_spec]
        omega
      · simp +arith
  | inList l e es n =>
      simp only [children, List.mem_cons] at h
      rcases h with rfl | h
      · simp +arith
      · have := List.sizeOf_lt_of_mem h
        simp only [inList.sizeOf_spec]
        omega

/-- Induction over expressions: a node may rely on all its direct parts. -/
@[elab_as_elim]
theorem inductParts {P : Expr → Prop} (step : ∀ e, (∀ c ∈ e.children, P c) → P e) (e : Expr) :
    P e :=
  step e fun c _ => inductParts step c
termination_by sizeOf e
decreasing_by exact sizeOf_lt_of_mem_children ‹_›

/-- A node is a level of its own. -/
theorem height_pos (e : Expr) : 0 < e.height := by
  cases e <;> simp [height]

/-! ## The same node over other parts -/

/-- The two branches have related conditions and related results. -/
def BranchRel (R : Expr → Expr → Prop) (b b' : Expr × Expr) : Prop :=
  R b.1 b'.1 ∧ R b.2 b'.2

/-- The same node over parts that are related one by one. -/
inductive Congruent (R : Expr → Expr → Prop) : Expr → Expr → Prop
  | literal (l v) : Congruent R (.literal l v) (.literal l v)
  | column (l c) : Congruent R (.column l c) (.column l c)
  | wildcard (l) : Congruent R (.wildcard l) (.wildcard l)
  | call {as as'} (l n d) (args : List.Forall₂ R as as') :
      Congruent R (.call l n as d) (.call l n as' d)
  | unary {e e'} (l op) (operand : R e e') : Congruent R (.unary l op e) (.unary l op e')
  | arith {a a' b b'} (l op) (left : R a a') (right : R b b') :
      Congruent R (.arith l a op b) (.arith l a' op b')
  | compare {a a' b b'} (l op) (left : R a a') (right : R b b') :
      Congruent R (.compare l a op b) (.compare l a' op b')
  | logic {a a' b b'} (l op) (left : R a a') (right : R b b') :
      Congruent R (.logic l a op b) (.logic l a' op b')
  | nullIf {a a' b b'} (l) (first : R a a') (second : R b b') :
      Congruent R (.nullIf l a b) (.nullIf l a' b')
  | case {o o' bs bs' e e'} (l) (operand : Option.Rel R o o')
      (branches : List.Forall₂ (BranchRel R) bs bs') (otherwise : Option.Rel R e e') :
      Congruent R (.case l o bs e) (.case l o' bs' e')
  | cast {e e'} (l t) (operand : R e e') : Congruent R (.cast l e t) (.cast l e' t)
  | isNull {e e'} (l n) (operand : R e e') : Congruent R (.isNull l e n) (.isNull l e' n)
  | between {e e' lo lo' hi hi'} (l n) (operand : R e e') (low : R lo lo') (high : R hi hi') :
      Congruent R (.between l e lo hi n) (.between l e' lo' hi' n)
  | like {e e' p p'} (l n) (operand : R e e') (pattern : R p p') :
      Congruent R (.like l e p n) (.like l e' p' n)
  | inList {e e' es es'} (l n) (operand : R e e') (list : List.Forall₂ R es es') :
      Congruent R (.inList l e es n) (.inList l e' es' n)

/-- Parts that are related in one way and therefore in another. -/
theorem Congruent.imp_mem {R S : Expr → Expr → Prop} {e e' : Expr} (h : Congruent R e e')
    (hRS : ∀ c ∈ e.children, ∀ c', R c c' → S c c') : Congruent S e e' := by
  have list : ∀ {es es'}, (∀ c ∈ es, ∀ c', R c c' → S c c') → List.Forall₂ R es es' →
      List.Forall₂ S es es' := by
    intro es es' himp hes
    induction hes with
    | nil => exact .nil
    | cons hc _ ih =>
        rw [List.forall_mem_cons] at himp
        exact .cons (himp.1 _ hc) (ih himp.2)
  have option : ∀ {o o'}, (∀ c ∈ o.toList, ∀ c', R c c' → S c c') → Option.Rel R o o' →
      Option.Rel S o o' := by
    intro o o' himp ho
    cases ho with
    | none => exact .none
    | some ho => exact .some (himp _ (by simp) _ ho)
  have branches : ∀ {bs bs'}, (∀ c ∈ bs.flatMap fun b => [b.1, b.2], ∀ c', R c c' → S c c') →
      List.Forall₂ (BranchRel R) bs bs' → List.Forall₂ (BranchRel S) bs bs' := by
    intro bs bs' himp hbs
    induction hbs with
    | nil => exact .nil
    | cons hb _ ih =>
        simp only [List.flatMap_cons, List.cons_append, List.nil_append,
          List.forall_mem_cons] at himp
        exact .cons ⟨himp.1 _ hb.1, himp.2.1 _ hb.2⟩ (ih himp.2.2)
  cases h with
  | literal l v => exact .literal l v
  | column l c => exact .column l c
  | wildcard l => exact .wildcard l
  | call l n d has => exact .call l n d (list hRS has)
  | case l ho hbs he =>
      simp only [children, List.forall_mem_append] at hRS
      exact .case l (option hRS.1.1 ho) (branches hRS.1.2 hbs) (option hRS.2 he)
  | inList l n he hes =>
      simp only [children, List.forall_mem_cons] at hRS
      exact .inList l n (hRS.1 _ he) (list hRS.2 hes)
  | _ =>
      constructor <;> exact hRS _ (by simp [children]) _ (by assumption)

theorem Congruent.imp {R S : Expr → Expr → Prop} {e e' : Expr} (h : Congruent R e e')
    (hRS : ∀ c c', R c c' → S c c') : Congruent S e e' :=
  h.imp_mem fun c _ => hRS c

theorem Congruent.flip {R : Expr → Expr → Prop} {e e' : Expr} (h : Congruent R e e') :
    Congruent (fun c c' => R c' c) e' e := by
  have option : ∀ {o o'}, Option.Rel R o o' → Option.Rel (fun c c' => R c' c) o' o := by
    intro o o' ho
    cases ho with
    | none => exact .none
    | some ho => exact .some ho
  cases h with
  | call l n d has => exact .call l n d has.flip
  | case l ho hbs he => exact .case l (option ho) hbs.flip (option he)
  | inList l n he hes => exact .inList l n he hes.flip
  | _ => constructor <;> assumption

/-- Rebuilding a node succeeds when each of its parts does, and gives the same node over what
    became of them. -/
theorem mapChildren_eq_ok {ε : Type} {f : Expr → Except ε Expr} {e e' : Expr} :
    e.mapChildren f = .ok e' ↔ Congruent (fun c c' => f c = .ok c') e e' := by
  constructor
  · intro h
    cases e with
    | literal | column | wildcard =>
        cases h
        constructor
    | call l n as d =>
        simp only [mapChildren, bind_eq_ok, pure_eq_ok] at h
        obtain ⟨as', has, rfl⟩ := h
        exact .call l n d (mapM_eq_ok.mp has)
    | unary | cast | isNull =>
        simp only [mapChildren, bind_eq_ok, pure_eq_ok] at h
        obtain ⟨e', he, rfl⟩ := h
        constructor
        exact he
    | arith | compare | logic | nullIf | like =>
        simp only [mapChildren, bind_eq_ok, pure_eq_ok] at h
        obtain ⟨a', ha, b', hb, rfl⟩ := h
        constructor
        · exact ha
        · exact hb
    | case l o bs e =>
        simp only [mapChildren, bind_eq_ok, pure_eq_ok] at h
        obtain ⟨o', ho, bs', hbs, e', he, rfl⟩ := h
        refine .case l (option_mapM_eq_ok.mp ho) ?_ (option_mapM_eq_ok.mp he)
        refine (mapM_eq_ok.mp hbs).imp ?_
        rintro ⟨w, t⟩ b' hb
        simp only [bind_eq_ok, pure_eq_ok] at hb
        obtain ⟨w', hw, t', ht, rfl⟩ := hb
        exact ⟨hw, ht⟩
    | between l e lo hi n =>
        simp only [mapChildren, bind_eq_ok, pure_eq_ok] at h
        obtain ⟨e', he, lo', hlo, hi', hhi, rfl⟩ := h
        exact .between l n he hlo hhi
    | inList l e es n =>
        simp only [mapChildren, bind_eq_ok, pure_eq_ok] at h
        obtain ⟨e', he, es', hes, rfl⟩ := h
        exact .inList l n he (mapM_eq_ok.mp hes)
  · intro h
    cases h with
    | literal | column | wildcard => rfl
    | call l n d has =>
        simp only [mapChildren, bind_eq_ok, pure_eq_ok]
        exact ⟨_, mapM_eq_ok.mpr has, rfl⟩
    | unary | cast | isNull =>
        simp only [mapChildren, bind_eq_ok, pure_eq_ok]
        exact ⟨_, by assumption, rfl⟩
    | arith | compare | logic | nullIf | like =>
        simp only [mapChildren, bind_eq_ok, pure_eq_ok]
        exact ⟨_, by assumption, _, by assumption, rfl⟩
    | case l ho hbs he =>
        simp only [mapChildren, bind_eq_ok, pure_eq_ok]
        refine ⟨_, option_mapM_eq_ok.mpr ho, _, mapM_eq_ok.mpr (hbs.imp ?_), _,
          option_mapM_eq_ok.mpr he, rfl⟩
        rintro ⟨w, t⟩ ⟨w', t'⟩ ⟨hw, ht⟩
        simp only [bind_eq_ok, pure_eq_ok]
        exact ⟨w', hw, t', ht, rfl⟩
    | between l n he hlo hhi =>
        simp only [mapChildren, bind_eq_ok, pure_eq_ok]
        exact ⟨_, he, _, hlo, _, hhi, rfl⟩
    | inList l n he hes =>
        simp only [mapChildren, bind_eq_ok, pure_eq_ok]
        exact ⟨_, he, _, mapM_eq_ok.mpr hes, rfl⟩

/-- The parts of the two nodes are related one by one, in the order they are written. -/
theorem Congruent.children {R : Expr → Expr → Prop} {e e' : Expr} (h : Congruent R e e') :
    List.Forall₂ R e.children e'.children := by
  have branches : ∀ {bs bs'}, List.Forall₂ (BranchRel R) bs bs' →
      List.Forall₂ R (bs.flatMap fun b => [b.1, b.2]) (bs'.flatMap fun b => [b.1, b.2]) := by
    intro bs bs' hbs
    induction hbs with
    | nil => exact .nil
    | cons hb _ ih => exact .cons hb.1 (.cons hb.2 ih)
  cases h with
  | literal | column | wildcard => exact .nil
  | call l n d has => exact has
  | unary l op he | cast l op he | isNull l op he => exact .cons he .nil
  | arith l op ha hb | compare l op ha hb | logic l op ha hb | like l op ha hb =>
      exact .cons ha (.cons hb .nil)
  | nullIf l ha hb => exact .cons ha (.cons hb .nil)
  | case l ho hbs he =>
      exact List.rel_append (List.rel_append (forall₂_toList ho) (branches hbs)) (forall₂_toList he)
  | between l n he hlo hhi => exact .cons he (.cons hlo (.cons hhi .nil))
  | inList l n he hes => exact .cons he hes

/-- The same node with `g` applied to each of its parts. -/
def onParts (g : Expr → Expr) (e : Expr) : Expr :=
  Id.run (e.mapChildren fun c => pure (g c))

theorem onParts_call (g : Expr → Expr) (l : Option Location) (n : String) (as : List Expr) (d : Bool) :
    (call l n as d).onParts g = call l n (as.map g) d := by
  simp [onParts, mapChildren]

theorem onParts_inList (g : Expr → Expr) (l : Option Location) (e : Expr) (es : List Expr)
    (n : Bool) : (inList l e es n).onParts g = inList l (g e) (es.map g) n := by
  simp [onParts, mapChildren]

theorem onParts_case (g : Expr → Expr) (l : Option Location) (o : Option Expr)
    (bs : List (Expr × Expr)) (e : Option Expr) :
    (case l o bs e).onParts g =
      case l (o.map g) (bs.map fun b => (g b.1, g b.2)) (e.map g) := by
  cases o <;> cases e <;> simp [onParts, mapChildren]

/-- A node is related to itself over other parts as soon as its parts are. -/
theorem congruent_onParts {R : Expr → Expr → Prop} {g : Expr → Expr} {e : Expr}
    (h : ∀ c ∈ e.children, R c (g c)) : Congruent R e (e.onParts g) := by
  have list : ∀ {es}, (∀ c ∈ es, R c (g c)) → List.Forall₂ R es (es.map g) := fun hes =>
    List.forall₂_map_right_iff.mpr (List.forall₂_same.mpr hes)
  have option : ∀ {o}, (∀ c ∈ o.toList, R c (g c)) → Option.Rel R o (o.map g) := by
    intro o ho
    cases o with
    | none => exact .none
    | some c => exact .some (ho c (by simp))
  cases e with
  | literal | column | wildcard => constructor
  | call l n as d =>
      rw [onParts_call]
      exact .call l n d (list h)
  | unary | cast | isNull =>
      constructor
      exact h _ (by simp [children])
  | arith | compare | logic | nullIf | like =>
      constructor
      · exact h _ (by simp [children])
      · exact h _ (by simp [children])
  | case l o bs e =>
      simp only [children, List.mem_append] at h
      have branches : List.Forall₂ (BranchRel R) bs (bs.map fun b => (g b.1, g b.2)) := by
        refine List.forall₂_map_right_iff.mpr (List.forall₂_same.mpr fun b hb => ⟨?_, ?_⟩)
        · exact h _ (Or.inl (Or.inr (List.mem_flatMap.mpr ⟨b, hb, by simp⟩)))
        · exact h _ (Or.inl (Or.inr (List.mem_flatMap.mpr ⟨b, hb, by simp⟩)))
      rw [onParts_case]
      exact .case l (option fun c hc => h c (Or.inl (Or.inl hc))) branches
        (option fun c hc => h c (Or.inr hc))
  | between l a lo hi n =>
      exact .between l n (h a (by simp [children])) (h lo (by simp [children]))
        (h hi (by simp [children]))
  | inList l a es n =>
      rw [onParts_inList]
      exact .inList l n (h a (by simp [children]))
        (list fun c hc => h c (by simp [children, hc]))

theorem onParts_id (e : Expr) : e.onParts id = e := by
  cases e with
  | call l n as d => rw [onParts_call, List.map_id]
  | inList l e es n => rw [onParts_inList, List.map_id, id]
  | case l o bs e => simp [onParts_case]
  | _ => rfl

/-- A node whose parts all have a counterpart has one too. -/
theorem exists_congruent {R : Expr → Expr → Prop} {e : Expr} (h : ∀ c ∈ e.children, ∃ c', R c c') :
    ∃ e', Congruent R e e' := by
  choose! g hg using h
  exact ⟨e.onParts g, congruent_onParts hg⟩

/-- A node is related to itself if its parts are. -/
theorem congruent_self {R : Expr → Expr → Prop} {e : Expr} (h : ∀ c ∈ e.children, R c c) :
    Congruent R e e := by
  have := congruent_onParts (g := id) h
  rwa [onParts_id] at this

/-! ## Occurrence -/

/-- The first expression occurs in the second. -/
inductive Within (s : Expr) : Expr → Prop
  | self : Within s s
  | part {c e : Expr} (member : c ∈ e.children) (inner : Within s c) : Within s e

theorem columnsWithin_children {limit n : Nat} {e : Expr} {found : List (ColumnRef × Location)}
    (h : columnsWithin limit (n + 1) e = .ok found) {c : Expr} (hc : c ∈ e.children) :
    ∃ part, columnsWithin limit n c = .ok part ∧ ∀ x ∈ part, x ∈ found := by
  cases e with
  | column l c => simp [children] at hc
  | _ =>
      simp only [columnsWithin, bind_eq_ok, pure_eq_ok] at h
      obtain ⟨parts, hparts, rfl⟩ := h
      obtain ⟨part, hmem, hpart⟩ := exists_right (mapM_eq_ok.mp hparts) hc
      exact ⟨part, hpart, fun x hx => List.mem_flatten.mpr ⟨part, hmem, hx⟩⟩

/-- A walk that collects columns misses none. -/
theorem mem_columnsWithin {limit n : Nat} {e : Expr} {found : List (ColumnRef × Location)}
    (h : columnsWithin limit n e = .ok found) {l : Option Location} {c : ColumnRef}
    (hc : Within (.column l c) e) : (c, l.getD .unknown) ∈ found := by
  induction n generalizing e found with
  | zero => cases h
  | succ n ih =>
      cases hc with
      | self =>
          cases h
          exact List.mem_singleton.mpr rfl
      | part hmem hc =>
          obtain ⟨part, hpart, hsub⟩ := columnsWithin_children h hmem
          exact hsub _ (ih hpart hc)

theorem mem_columns {limit : Nat} {e : Expr} {found : List (ColumnRef × Location)}
    (h : e.columns limit = .ok found) {l : Option Location} {c : ColumnRef}
    (hc : Within (.column l c) e) : (c, l.getD .unknown) ∈ found :=
  mem_columnsWithin h hc

end StreamSql.Expr
