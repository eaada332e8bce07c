/-
  Expressions that are written in different ways. A respelling says how positions and columns are to
  be written, and `respell` writes an expression that way and changes nothing else. Two expressions
  match under a respelling if they are equal once both are respelled: if it writes every name in small
  letters, they match if they differ in the case of letters only.

  Expressions that match are both columns, or the same node over parts that match (`matches_iff`).
  All walks over two such expressions go side by side, and what they have in common follows by
  induction on the number of levels, from this one equivalence.
-/
import StreamSql.Proofs.Expr.Folding
import StreamSql.Proofs.Expr.Same

namespace StreamSql

open Outcome

/-- A way to write positions and columns, and the qualifier of a `q.*`. -/
structure Respelling where
  position : Option Location → Option Location
  column : ColumnRef → ColumnRef
  all : String → String

/-- Everything as it is written, without positions. -/
def Respelling.unplaced : Respelling where
  position _ := none
  column := id
  all := id

namespace Expr

variable {r r' : Respelling} {e e' : Expr} {l : Option Location} {R S : Expr → Expr → Prop}

mutual

/-- The expression with its positions and columns written another way. -/
def respell (r : Respelling) : Expr → Expr
  | literal l v => literal (r.position l) v
  | column l c => column (r.position l) (r.column c)
  | wildcard l => wildcard (r.position l)
  | call l n as d => call (r.position l) n (respellList r as) d
  | unary l op e => unary (r.position l) op (respell r e)
  | arith l a op b => arith (r.position l) (respell r a) op (respell r b)
  | compare l a op b => compare (r.position l) (respell r a) op (respell r b)
  | logic l a op b => logic (r.position l) (respell r a) op (respell r b)
  | nullIf l a b => nullIf (r.position l) (respell r a) (respell r b)
  | case l o bs e =>
    case (r.position l) (respellOption r o) (respellBranches r bs) (respellOption r e)
  | cast l e t => cast (r.position l) (respell r e) t
  | isNull l e n => isNull (r.position l) (respell r e) n
  | between l e lo hi n => between (r.position l) (respell r e) (respell r lo) (respell r hi) n
  | like l e p n => like (r.position l) (respell r e) (respell r p) n
  | inList l e es n => inList (r.position l) (respell r e) (respellList r es) n

def respellList (r : Respelling) : List Expr → List Expr
  | [] => []
  | e :: es => respell r e :: respellList r es

def respellBranches (r : Respelling) : List (Expr × Expr) → List (Expr × Expr)
  | [] => []
  | (w, t) :: bs => (respell r w, respell r t) :: respellBranches r bs

def respellOption (r : Respelling) : Option Expr → Option Expr
  | none => none
  | some e => some (respell r e)

end

theorem respellList_eq_map (r : Respelling) (es : List Expr) :
    respellList r es = es.map (respell r) := by
  induction es with
  | nil => rfl
  | cons e es ih => exact congrArg (e.respell r :: ·) ih

theorem respellBranches_eq_map (r : Respelling) (bs : List (Expr × Expr)) :
    respellBranches r bs = bs.map fun b => (b.1.respell r, b.2.respell r) := by
  induction bs with
  | nil => rfl
  | cons b bs ih => exact congrArg ((b.1.respell r, b.2.respell r) :: ·) ih

theorem respellOption_eq_map (r : Respelling) (o : Option Expr) :
    respellOption r o = o.map (respell r) := by
  cases o <;> rfl

/-- A node that is no column is respelled by respelling its parts and moving it. -/
theorem respell_eq (h : e.column? = none) :
    e.respell r = (e.onParts (respell r)).withLoc (r.position e.loc?) := by
  cases e with
  | column l c => cases h
  | case l o bs e =>
      rw [onParts_case, ← respellOption_eq_map, ← respellBranches_eq_map, ← respellOption_eq_map]
      rfl
  | call l n as d =>
      rw [onParts_call, ← respellList_eq_map]
      rfl
  | inList l e es n =>
      rw [onParts_inList, ← respellList_eq_map]
      rfl
  | _ => rfl

/-! ## Nodes over parts -/

theorem Congruent.loc?_eq (h : Congruent R e e') : e'.loc? = e.loc? := by
  cases h <;> rfl

theorem Congruent.column?_eq (h : Congruent R e e') : e'.column? = e.column? := by
  cases h <;> rfl

theorem Congruent.withLoc (h : Congruent R e e') (l : Option Location) :
    Congruent R (e.withLoc l) (e'.withLoc l) := by
  cases h <;> constructor <;> assumption

theorem Congruent.comp {e'' : Expr} {T : Expr → Expr → Prop} (h : Congruent R e e')
    (h' : Congruent S e' e'') (hT : ∀ c c' c'', R c c' → S c' c'' → T c c'') : Congruent T e e'' := by
  have list : ∀ {es es' es''}, List.Forall₂ R es es' → List.Forall₂ S es' es'' →
      List.Forall₂ T es es'' := fun h h' => forall₂_comp h h' fun _ _ _ _ => hT _ _ _
  have option : ∀ {o o' o''}, Option.Rel R o o' → Option.Rel S o' o'' → Option.Rel T o o'' := by
    intro o o' o'' h h'
    cases h with
    | none =>
        cases h'
        exact .none
    | some h =>
        cases h' with
        | some h' => exact .some (hT _ _ _ h h')
  cases h with
  | literal | column | wildcard =>
      cases h'
      constructor
  | call l n d has =>
      cases h' with
      | call _ _ _ has' => exact .call l n d (list has has')
  | unary l op he | cast l op he | isNull l op he =>
      cases h'
      constructor
      exact hT _ _ _ he (by assumption)
  | arith l op ha hb | compare l op ha hb | logic l op ha hb | like l op ha hb =>
      cases h'
      constructor
      · exact hT _ _ _ ha (by assumption)
      · exact hT _ _ _ hb (by assumption)
  | nullIf l ha hb =>
      cases h' with
      | nullIf _ ha' hb' => exact .nullIf l (hT _ _ _ ha ha') (hT _ _ _ hb hb')
  | case l ho hbs he =>
      cases h' with
      | case _ ho' hbs' he' =>
          refine .case l (option ho ho') (forall₂_comp hbs hbs' ?_) (option he he')
          exact fun _ _ _ _ hb hb' => ⟨hT _ _ _ hb.1 hb'.1, hT _ _ _ hb.2 hb'.2⟩
  | between l n he hlo hhi =>
      cases h' with
      | between _ _ he' hlo' hhi' =>
          exact .between l n (hT _ _ _ he he') (hT _ _ _ hlo hlo') (hT _ _ _ hhi hhi')
  | inList l n he hes =>
      cases h' with
      | inList _ _ he' hes' => exact .inList l n (hT _ _ _ he he') (list hes hes')

/-- Parts that are the same make the same node. -/
theorem Congruent.eq (h : Congruent Eq e e') : e = e' := by
  have option : ∀ {o o' : Option Expr}, Option.Rel Eq o o' → o = o' := by
    intro o o' h
    cases h with
    | none => rfl
    | some h => rw [h]
  have list : ∀ {α : Type} {as as' : List α}, List.Forall₂ Eq as as' → as = as' := by
    intro α as as' h
    rwa [List.forall₂_eq_eq_eq] at h
  cases h with
  | call l n d has => rw [list has]
  | case l ho hbs he => rw [option ho, list (hbs.imp fun _ _ hb => Prod.ext hb.1 hb.2), option he]
  | inList l n he hes => rw [he, list hes]
  | _ => simp_all

theorem column?_eq_some {c : ColumnRef} : e.column? = some c ↔ ∃ l, e = .column l c := by
  cases e <;> simp [column?]

theorem withLoc_withLoc (l l' : Option Location) (e : Expr) :
    (e.withLoc l).withLoc l' = e.withLoc l' := by
  cases e <;> rfl

theorem withLoc_loc? (e : Expr) : e.withLoc e.loc? = e := by
  cases e <;> rfl

theorem column?_withLoc (l : Option Location) (e : Expr) : (e.withLoc l).column? = e.column? := by
  cases e <;> rfl

theorem loc?_withLoc (l : Option Location) (e : Expr) : (e.withLoc l).loc? = l := by
  cases e <;> rfl

theorem withLoc_eq_iff {l l' : Option Location} :
    e.withLoc l = e'.withLoc l' ↔ l = l' ∧ e = e'.withLoc e.loc? := by
  constructor
  · intro h
    have hl := congrArg loc? h
    rw [loc?_withLoc, loc?_withLoc] at hl
    refine ⟨hl, ?_⟩
    calc e = (e.withLoc l).withLoc e.loc? := by rw [withLoc_withLoc, withLoc_loc?]
      _ = e'.withLoc e.loc? := by rw [h, withLoc_withLoc]
  · rintro ⟨rfl, h⟩
    rw [h, withLoc_withLoc]

theorem mapChildren_withLoc {ε : Type} {f : Expr → Except ε Expr} (l : Option Location) (e : Expr) :
    (e.withLoc l).mapChildren f = Expr.withLoc l <$> e.mapChildren f := by
  cases e <;> simp [mapChildren, withLoc]

theorem onParts_withLoc (g : Expr → Expr) (l : Option Location) (e : Expr) :
    (e.withLoc l).onParts g = (e.onParts g).withLoc l := by
  cases e with
  | case l' o bs e =>
      rw [withLoc, onParts_case, onParts_case]
      rfl
  | _ => rfl

/-- Two nodes become equal by what is done to their parts exactly if they are one node over parts
    that become equal. -/
theorem onParts_eq_iff {g : Expr → Expr} :
    e.onParts g = e'.onParts g ↔ Congruent (fun c c' => g c = g c') e e' := by
  have hparts : ∀ e : Expr, Congruent (fun c d => g c = d) e (e.onParts g) := fun e =>
    congruent_onParts fun _ _ => rfl
  constructor
  · intro h
    have hback := (hparts e').flip
    rw [← h] at hback
    exact (hparts e).comp hback fun _ _ _ hc hc' => hc.trans hc'.symm
  · intro h
    have hforth : Congruent (fun c d => g c = d) e (e'.onParts g) :=
      h.comp (hparts e') fun _ _ _ hc hc' => hc.trans hc'
    exact ((hparts e).flip.comp hforth fun _ _ _ hc hc' => hc.symm.trans hc').eq

/-! ## Expressions that match -/

/-- The two expressions are equal once both are respelled. -/
def Matches (r : Respelling) (e e' : Expr) : Prop :=
  e.respell r = e'.respell r

theorem Matches.symm (h : Matches r e e') : Matches r e' e :=
  Eq.symm h

theorem column?_respell (e : Expr) : (e.respell r).column? = e.column?.map r.column := by
  cases e <;> rfl

theorem loc?_respell (e : Expr) : (e.respell r).loc? = r.position e.loc? := by
  cases e <;> rfl

/-- Expressions match if both are columns that match, or if they are one node over parts that
    match. -/
theorem matches_iff :
    Matches r e e' ↔
      (∃ l c l' c', e = .column l c ∧ e' = .column l' c' ∧ r.position l = r.position l' ∧
        r.column c = r.column c') ∨
      (e.column? = none ∧ e'.column? = none ∧ r.position e.loc? = r.position e'.loc? ∧
        Congruent (Matches r) e (e'.withLoc e.loc?)) := by
  have hkind : Matches r e e' → e.column?.map r.column = e'.column?.map r.column := by
    intro h
    rw [← column?_respell, h, column?_respell]
  cases he : e.column? with
  | some c =>
      obtain ⟨l, rfl⟩ := column?_eq_some.mp he
      cases he' : e'.column? with
      | none =>
          refine iff_of_false (fun h => ?_) ?_
          · have := hkind h
            rw [he, he'] at this
            cases this
          · rintro (⟨_, _, _, _, _, rfl, _⟩ | ⟨h, _⟩)
            · cases he'
            · cases h
      | some c' =>
          obtain ⟨l', rfl⟩ := column?_eq_some.mp he'
          simp [Matches, respell]
  | none =>
      cases he' : e'.column? with
      | some c' =>
          refine iff_of_false (fun h => ?_) ?_
          · have := hkind h
            rw [he, he'] at this
            cases this
          · rintro (⟨_, _, _, _, rfl, _⟩ | ⟨_, h, _⟩)
            · cases he
            · cases h
      | none =>
          have hloc : (e.onParts (respell r)).loc? = e.loc? :=
            (congruent_onParts (R := fun _ _ => True) fun _ _ => trivial).loc?_eq
          rw [Matches, respell_eq he, respell_eq he', withLoc_eq_iff, hloc, ← onParts_withLoc,
            onParts_eq_iff]
          constructor
          · rintro ⟨hp, h⟩
            exact Or.inr ⟨rfl, rfl, hp, h⟩
          · rintro (⟨_, _, _, _, rfl, _⟩ | ⟨_, _, hp, h⟩)
            · cases he
            · exact ⟨hp, h⟩

theorem Matches.children (h : Matches r e e') :
    List.Forall₂ (Matches r) e.children e'.children := by
  rcases matches_iff.mp h with ⟨l, c, l', c', rfl, rfl, _⟩ | ⟨_, _, _, hparts⟩
  · exact .nil
  · simpa using hparts.children

/-- A column of the one expression has its counterpart in the other. -/
theorem Matches.within (h : Matches r e e') {l : Option Location} {c : ColumnRef}
    (hc : Within (.column l c) e) :
    ∃ l' c', Within (.column l' c') e' ∧ r.column c = r.column c' := by
  generalize hx : column l c = x at hc
  induction hc generalizing e' with
  | self =>
      subst hx
      rcases matches_iff.mp h with ⟨_, _, l', c', he, rfl, _, hcc⟩ | ⟨hno, _⟩
      · cases he
        exact ⟨l', c', .self, hcc⟩
      · cases hno
  | part member _ ih =>
      obtain ⟨d', hd', hd⟩ := exists_right h.children member
      obtain ⟨l', c', hwithin, hcc⟩ := ih hd
      exact ⟨l', c', .part hd' hwithin, hcc⟩

/-- Nothing is changed by writing everything as it is. -/
theorem respell_self (hp : r.position = id) (hc : r.column = id) (e : Expr) : e.respell r = e := by
  induction e using inductParts with
  | step e ih =>
      cases he : e.column? with
      | some c =>
          obtain ⟨l, rfl⟩ := column?_eq_some.mp he
          exact congrArg₂ column (congrFun hp l) (congrFun hc c)
      | none =>
          have hparts : e = e.onParts (respell r) :=
            (congruent_onParts fun c hc => (ih c hc).symm).eq
          rw [respell_eq he, ← hparts, hp]
          exact withLoc_loc? e

theorem levelsList_respell {es : List Expr} (h : ∀ c ∈ es, (c.respell r).levels = c.levels) :
    levelsList (respellList r es) = levelsList es := by
  induction es with
  | nil => rfl
  | cons e es ih =>
      rw [List.forall_mem_cons] at h
      exact congrArg₂ max h.1 (ih h.2)

theorem levelsBranches_respell {bs : List (Expr × Expr)}
    (h : ∀ c ∈ bs.flatMap fun b => [b.1, b.2], (c.respell r).levels = c.levels) :
    levelsBranches (respellBranches r bs) = levelsBranches bs := by
  induction bs with
  | nil => rfl
  | cons b bs ih =>
      obtain ⟨w, t⟩ := b
      simp only [List.flatMap_cons, List.cons_append, List.nil_append, List.forall_mem_cons] at h
      exact congrArg₂ max (congrArg₂ max h.1 h.2.1) (ih h.2.2)

theorem levelsOption_respell {o : Option Expr} (h : ∀ c ∈ o.toList, (c.respell r).levels = c.levels) :
    levelsOption (respellOption r o) = levelsOption o := by
  cases o with
  | none => rfl
  | some e => exact h e (by simp)

/-- However it is written, an expression has the same levels. -/
theorem levels_respell (e : Expr) : (e.respell r).levels = e.levels := by
  induction e using inductParts with
  | step e ih =>
      cases e with
      | literal | column | wildcard => rfl
      | call l n as d => exact congrArg (· + 1) (levelsList_respell ih)
      | unary | cast | isNull => exact congrArg (· + 1) (ih _ (by simp [children]))
      | arith | compare | logic | like =>
          exact congrArg (· + 1)
            (congrArg₂ max (ih _ (by simp [children])) (ih _ (by simp [children])))
      | nullIf =>
          exact congrArg (· + 2)
            (congrArg₂ max (ih _ (by simp [children])) (ih _ (by simp [children])))
      | case l o bs e =>
          simp only [children, List.mem_append] at ih
          have ho := levelsOption_respell fun c hc => ih c (Or.inl (Or.inl hc))
          have hbs := levelsBranches_respell fun c hc => ih c (Or.inl (Or.inr hc))
          have he := levelsOption_respell fun c hc => ih c (Or.inr hc)
          exact congrArg (· + 1) (congrArg₂ max ho (congrArg₂ max hbs he))
      | between l e lo hi n =>
          have hbounds := congrArg₂ max (ih lo (by simp [children])) (ih hi (by simp [children]))
          exact congrArg (· + 1) (congrArg₂ max (ih e (by simp [children])) hbounds)
      | inList l e es n =>
          have hes : levelsList (respellList r es) = levelsList es :=
            levelsList_respell fun c hc => ih c (by simp [children, hc])
          exact congrArg (· + 1) (congrArg₂ max (ih e (by simp [children])) hes)

theorem Matches.levels_eq (h : Matches r e e') : e.levels = e'.levels := by
  rw [← levels_respell (r := r) e, h, levels_respell]

/-- Same expressions are those that match without positions. -/
theorem same_iff_matches {a b : Expr} :
    a.same b = true ↔ Matches .unplaced a b := by
  have hunplaced : ∀ e : Expr, e.unplaced = e.respell .unplaced := by
    intro e
    induction e using inductParts with
    | step e ih =>
        cases he : e.column? with
        | some c =>
            obtain ⟨l, rfl⟩ := column?_eq_some.mp he
            rfl
        | none =>
            rw [unplaced_eq, respell_eq he]
            refine congrArg (withLoc none) (Congruent.eq ?_)
            have hleft : Congruent (fun c d => c.unplaced = d) e (e.onParts unplaced) :=
              congruent_onParts fun _ _ => rfl
            have hright : Congruent (fun c d => c.unplaced = d) e (e.onParts (respell .unplaced)) :=
              congruent_onParts ih
            exact hleft.flip.comp hright fun _ _ _ hc hc' => hc.symm.trans hc'
  rw [same_iff, Matches, hunplaced, hunplaced]

/-! ## Walks side by side -/

section

variable {ε : Type} {E : ε → ε → Prop}

theorem alike_mapChildren {f f' : Expr → Except ε Expr} (h : Congruent R e e')
    (hf : ∀ c c', R c c' → Alike E S (f c) (f' c')) :
    Alike E (Congruent S) (e.mapChildren f) (e'.mapChildren f') := by
  cases h with
  | literal l v => exact .ok (.literal l v)
  | column l c => exact .ok (.column l c)
  | wildcard l => exact .ok (.wildcard l)
  | call l n d has => exact (Alike.mapM has hf).bind fun _ _ has => .ok (.call l n d has)
  | unary l op he => exact (hf _ _ he).bind fun _ _ he => .ok (.unary l op he)
  | cast l t he => exact (hf _ _ he).bind fun _ _ he => .ok (.cast l t he)
  | isNull l n he => exact (hf _ _ he).bind fun _ _ he => .ok (.isNull l n he)
  | arith l op ha hb =>
      exact (hf _ _ ha).bind fun _ _ ha => (hf _ _ hb).bind fun _ _ hb => .ok (.arith l op ha hb)
  | compare l op ha hb =>
      exact (hf _ _ ha).bind fun _ _ ha => (hf _ _ hb).bind fun _ _ hb => .ok (.compare l op ha hb)
  | logic l op ha hb =>
      exact (hf _ _ ha).bind fun _ _ ha => (hf _ _ hb).bind fun _ _ hb => .ok (.logic l op ha hb)
  | nullIf l ha hb =>
      exact (hf _ _ ha).bind fun _ _ ha => (hf _ _ hb).bind fun _ _ hb => .ok (.nullIf l ha hb)
  | like l n ha hb =>
      exact (hf _ _ ha).bind fun _ _ ha => (hf _ _ hb).bind fun _ _ hb => .ok (.like l n ha hb)
  | between l n he hlo hhi =>
      exact (hf _ _ he).bind fun _ _ he => (hf _ _ hlo).bind fun _ _ hlo =>
        (hf _ _ hhi).bind fun _ _ hhi => .ok (.between l n he hlo hhi)
  | inList l n he hes =>
      exact (hf _ _ he).bind fun _ _ he => (Alike.mapM hes hf).bind fun _ _ hes =>
        .ok (.inList l n he hes)
  | case l ho hbs he =>
      refine (Alike.option_mapM ho hf).bind fun _ _ ho => ?_
      refine Alike.bind (R := List.Forall₂ (BranchRel S)) (Alike.mapM hbs fun b b' hb => ?_)
        fun _ _ hbs => ?_
      · exact (hf _ _ hb.1).bind fun _ _ hw => (hf _ _ hb.2).bind fun _ _ ht => .ok ⟨hw, ht⟩
      · exact (Alike.option_mapM he hf).bind fun _ _ he => .ok (.case l ho hbs he)

end

/-- Replacing goes side by side over expressions that match. At a column that stays, and only there,
    the second respelling has to be compared with the first. -/
theorem alike_replaceWithin {E : Error → Error → Prop} (hE : ∀ err, E err err)
    (hp : r'.position = r.position) {f f' : Expr → Except Error (Option Expr)}
    (hf : ∀ e e', Matches r e e' → Alike E (fun o o' => Option.Rel (Matches r') o o' ∧
      (o = none → e.column? = none ∨ Matches r' e e')) (f e) (f' e'))
    {limit n : Nat} (h : Matches r e e') :
    Alike E (Matches r') (replaceWithin limit f n e) (replaceWithin limit f' n e') := by
  induction n generalizing e e' with
  | zero => exact .error (hE _)
  | succ n ih =>
      refine (hf e e' h).bind ?_
      rintro o o' ⟨hreplaced, hstays⟩
      cases hreplaced with
      | some hd => exact .ok hd
      | none =>
          rcases matches_iff.mp h with ⟨l, c, l', c', rfl, rfl, _⟩ | ⟨he, he', hloc, hparts⟩
          · rcases hstays rfl with hno | hm
            · cases hno
            · exact .ok hm
          · have hwalks := alike_mapChildren hparts fun c c' hc => ih hc
            rw [mapChildren_withLoc] at hwalks
            refine hwalks.of_map_right.imp fun d d' hd hd' hc => ?_
            have hd := mapChildren_eq_ok.mp hd
            have hd' := mapChildren_eq_ok.mp hd'
            refine matches_iff.mpr (Or.inr ⟨hd.column?_eq.trans he, hd'.column?_eq.trans he', ?_, ?_⟩)
            · rw [hp, hd.loc?_eq, hd'.loc?_eq, hloc]
            · rwa [hd.loc?_eq]

end Expr

end StreamSql
