/-
  Statements that are written in different ways. A respelling writes the columns of a statement, the
  qualifiers of its `q.*` and its positions another way, and leaves its relations, its names for
  columns and its functions alone.

  What a respelling does to the analysis of a statement depends on a schema in one respect only: how
  columns are looked up in it. A schema is `Uniform` for two respellings if columns that the first
  makes equal mean the same field, and are spelled so that the second makes them equal. Over uniform
  schemas, the analyses of two statements that the first respelling makes equal end alike, and the
  second makes their results equal (`alike_ofStatement`).
-/
import StreamSql.Proofs.Analysis
import StreamSql.Proofs.Expr.Respelling

namespace StreamSql

open Outcome

/-! ## Respelled statements -/

def SelectItem.respell (r : Respelling) : SelectItem → SelectItem
  | .expr e aliasName => .expr (e.respell r) aliasName
  | .all q l => .all (q.map r.all) (r.position l)

def TableRef.respell (r : Respelling) (t : TableRef) : TableRef :=
  { t with location := r.position t.location }

def Relation.respell (r : Respelling) : Relation → Relation
  | .table t => .table (t.respell r)
  | .join type left right criteria =>
    .join type (left.respell r) (right.respell r) (criteria.respell r)

def Query.respell (r : Respelling) (q : Query) : Query :=
  { q with
    select := q.select.map (·.respell r)
    source := q.source.respell r
    filter := q.filter.map (·.respell r)
    groupBy := q.groupBy.map (·.respell r)
    having := q.having.map (·.respell r) }

/-- The statement with its columns and positions written another way. -/
def Statement.respell (r : Respelling) : Statement → Statement
  | .query q => .query (q.respell r)
  | .create kind name ps q => .create kind name ps (q.respell r)
  | .insert target q => .insert target (q.respell r)

def JoinInfo.respell (r : Respelling) (j : JoinInfo) : JoinInfo :=
  { j with criteria := j.criteria.respell r }

/-- The analysis with its columns and positions written another way. -/
def Analysis.respell (r : Respelling) (s : Analysis) : Analysis :=
  { s with
    exprs := s.exprs.map (·.respell r)
    filter := s.filter.map (·.respell r)
    groupBy := s.groupBy.map (·.respell r)
    having := s.having.map (·.respell r)
    join := s.join.map (·.respell r) }

theorem Statement.body_respell (r : Respelling) (s : Statement) :
    (s.respell r).body = s.body.respell r := by
  cases s <;> rfl

theorem Statement.body_of_respell {r : Respelling} {s s' : Statement}
    (h : s.respell r = s'.respell r) : s.body.respell r = s'.body.respell r := by
  rw [← body_respell, h, body_respell]

/-- Where a result goes is not written another way. -/
theorem Analysis.target_respell (catalog : Catalog) (r : Respelling) (s : Statement) :
    target catalog (s.respell r) = target catalog s := by
  cases s <;> rfl

namespace Analysis

variable {E : Error → Error → Prop} {r r' : Respelling} {schema : Schema} {config : Config}

/-! ## Expressions -/

/-- Errors are told apart by less than what they say: all errors of an unknown relation are alike. -/
structure Coarse (E : Error → Error → Prop) : Prop where
  refl : ∀ err, E err err
  relation : ∀ q q' l l', E (.unknownRelation q l) (.unknownRelation q' l')

/-- Columns and qualifiers that the first respelling makes equal mean the same in the schema, and the
    second makes the columns equal that they are spelled as. -/
structure Uniform (E : Error → Error → Prop) (r r' : Respelling) (schema : Schema) : Prop where
  found : ∀ {c c'}, r.column c = r.column c' → ∀ l l',
    Alike E Eq (schema.resolve c l) (schema.resolve c' l')
  spelled : ∀ {c c' f}, r.column c = r.column c' → f ∈ schema.fields → f.answers c = true →
    r'.column (f.spelling c) = r'.column (f.spelling c')
  refound : ∀ {c c'}, r'.column c = r'.column c' → ∀ l l',
    Alike E Eq (schema.resolve c l) (schema.resolve c' l')
  qualifier : ∀ {q q'}, r.all q = r.all q' → Text.lower q = Text.lower q'

theorem Uniform.hasQualifier (h : Uniform E r r' schema) {q q' : String} (hq : r.all q = r.all q') :
    schema.hasQualifier q = schema.hasQualifier q' := by
  have hname := h.qualifier hq
  unfold Schema.hasQualifier Field.isOf Text.sameName
  rw [hname]

theorem alike_spell (h : Uniform E r r' schema) (hp : r'.position = r.position) {e e' : Expr}
    (he : Expr.Matches r e e') :
    Alike E (fun o o' => Option.Rel (Expr.Matches r') o o' ∧
      (o = none → e.column? = none ∨ Expr.Matches r' e e')) (spell schema e) (spell schema e') := by
  rcases Expr.matches_iff.mp he with ⟨l, c, l', c', rfl, rfl, hl, hc⟩ | ⟨hno, hno', _⟩
  · refine Alike.bind (R := fun x x' => x = x' ∧ x.1 ∈ schema.fields ∧ x.1.answers c = true)
      ((h.found hc _ _).imp ?_) ?_
    · rintro ⟨f, i⟩ _ hf _ rfl
      obtain ⟨hat, ha⟩ := Schema.found_of_resolve hf
      exact ⟨rfl, List.mem_of_getElem? hat, ha⟩
    · rintro ⟨f, i⟩ _ ⟨rfl, hf, ha⟩
      have hl' : r'.position l = r'.position l' := by rw [hp, hl]
      have hspelled : Expr.Matches r' (.column l (f.spelling c)) (.column l' (f.spelling c')) :=
        Expr.matches_iff.mpr (Or.inl ⟨_, _, _, _, rfl, rfl, hl', h.spelled hc hf ha⟩)
      exact .ok ⟨.some hspelled, fun hnone => by cases hnone⟩
  · have hnone : ∀ {e : Expr}, e.column? = none → spell schema e = .ok none := by
      intro e he
      cases e with
      | column => cases he
      | _ => rfl
    rw [hnone hno, hnone hno']
    exact .ok ⟨.none, fun _ => Or.inl hno⟩

theorem alike_resolve (hE : Coarse E) (h : Uniform E r r' schema)
    (hp : r'.position = r.position) {limit : Nat} {e e' : Expr} (he : Expr.Matches r e e') :
    Alike E (Expr.Matches r') (resolve limit schema e) (resolve limit schema e') :=
  Expr.alike_replaceWithin hE.refl hp (fun _ _ => alike_spell h hp) he

/-! ## The select list -/

/-- Two columns of a result: the expressions match, and the names are equal. -/
def Pairs (r : Respelling) (column column' : Expr × String) : Prop :=
  Expr.Matches r column.1 column'.1 ∧ column.2 = column'.2

theorem pairs_self (r : Respelling) (columns : List (Expr × String)) :
    List.Forall₂ (Pairs r) columns columns :=
  List.forall₂_same.mpr fun _ _ => ⟨rfl, rfl⟩

theorem alike_selectItem (hE : Coarse E) (h : Uniform E r r' schema)
    (hp : r'.position = r.position) {joined : Bool} {place : Nat} {item item' : SelectItem}
    (hi : item.respell r = item'.respell r) :
    Alike E (List.Forall₂ (Pairs r')) (selectItem config schema joined place item)
      (selectItem config schema joined place item') := by
  cases item with
  | expr e aliasName =>
      cases item' with
      | all => cases hi
      | expr e' aliasName' =>
          simp only [SelectItem.respell, SelectItem.expr.injEq] at hi
          obtain ⟨he, rfl⟩ := hi
          refine (alike_resolve hE h hp he).bind fun d d' hd => ?_
          cases aliasName with
          | some a => exact .ok (.cons ⟨hd, rfl⟩ .nil)
          | none =>
              rcases Expr.matches_iff.mp hd with ⟨l, c, l', c', rfl, rfl, _, hc⟩ | ⟨hno, hno', _⟩
              · refine (h.refound hc _ _).bind ?_
                rintro found _ rfl
                exact .ok (.cons ⟨hd, rfl⟩ .nil)
              · split
                · contradiction
                · cases hno
                · split
                  · contradiction
                  · cases hno'
                  · exact .ok (.cons ⟨hd, rfl⟩ .nil)
  | all q l =>
      cases item' with
      | expr => cases hi
      | all q' l' =>
          simp only [SelectItem.respell, SelectItem.all.injEq] at hi
          obtain ⟨hq, _⟩ := hi
          cases q with
          | none =>
              cases q' with
              | some => cases hq
              | none => exact .ok (pairs_self r' _)
          | some q =>
              cases q' with
              | none => cases hq
              | some q' =>
                  have hq := Option.some.inj hq
                  have hfilter : (fun f : Field => Text.sameName q (f.qualifier.getD "")) =
                      fun f : Field => Text.sameName q' (f.qualifier.getD "") := by
                    unfold Text.sameName
                    rw [h.qualifier hq]
                  simp only [selectItem, h.hasQualifier hq, hfilter]
                  split
                  · exact .error (hE.relation _ _ _ _)
                  · exact .ok (pairs_self r' _)

/-- Two select lists: the expressions match one by one, and the names are equal. -/
def MatchingLists (r : Respelling) (x x' : List Expr × List String) : Prop :=
  List.Forall₂ (Expr.Matches r) x.1 x'.1 ∧ x.2 = x'.2

theorem alike_addItem (hE : Coarse E) (h : Uniform E r r' schema) (hp : r'.position = r.position)
    {joined : Bool} {done done' : List Expr × List String} (hdone : MatchingLists r' done done')
    {item item' : SelectItem} (hitem : item.respell r = item'.respell r) :
    Alike E (MatchingLists r') (addItem config schema joined done item)
      (addItem config schema joined done' item') := by
  obtain ⟨hexprs, hnames⟩ := hdone
  unfold addItem
  rw [hexprs.length_eq, hnames]
  refine (alike_selectItem hE h hp hitem).bind fun columns columns' hcolumns => .ok ⟨?_, ?_⟩
  · refine List.rel_append hexprs ?_
    rw [List.forall₂_map_left_iff, List.forall₂_map_right_iff]
    exact hcolumns.imp fun _ _ hc => hc.1
  · exact congrArg (done'.2 ++ ·) (map_eq_map_iff.mpr (hcolumns.imp fun _ _ hc => hc.2))

theorem alike_selectList (hE : Coarse E) (h : Uniform E r r' schema)
    (hp : r'.position = r.position) {joined : Bool} {items items' : List SelectItem}
    (hi : items.map (·.respell r) = items'.map (·.respell r)) :
    Alike E (MatchingLists r') (selectList config schema joined items)
      (selectList config schema joined items') := by
  refine Alike.bind (R := MatchingLists r') (Alike.foldlM (map_eq_map_iff.mp hi)
    (fun _ _ _ _ hdone hitem => alike_addItem hE h hp hdone hitem) ⟨.nil, rfl⟩) ?_
  rintro ⟨exprs, names⟩ ⟨exprs', _⟩ ⟨hexprs, rfl⟩
  dsimp only
  cases repeatedName? [] names with
  | none => exact .ok ⟨hexprs, rfl⟩
  | some name => exact .error (hE.refl _)

/-! ## The whole statement -/

/-- The schemas against which the names of a query are looked up. -/
inductive Offers (catalog : Catalog) : Relation → Schema → Prop
  | table {t one} (found : source catalog t = .ok one) : Offers catalog (.table t) one.schema
  | join {type a b criteria left right} (found : source catalog a = .ok left)
      (found' : source catalog b = .ok right) :
      Offers catalog (.join type a b criteria) (left.schema.join right.schema)

/-- The relations of a statement that was written another way. -/
def SameSources (r : Respelling) (x x' : List Source × Schema × Option JoinInfo) : Prop :=
  x.1 = x'.1 ∧ x.2.1 = x'.2.1 ∧ x.2.2.map (·.respell r) = x'.2.2.map (·.respell r)

theorem alike_source {catalog : Catalog} (hE : Coarse E) {t t' : TableRef}
    (ht : t.respell r = t'.respell r) : Alike E Eq (source catalog t) (source catalog t') := by
  obtain ⟨name, aliasName, l⟩ := t
  obtain ⟨name', aliasName', l'⟩ := t'
  simp only [TableRef.respell, TableRef.mk.injEq] at ht
  obtain ⟨rfl, rfl, _⟩ := ht
  unfold source
  cases catalog.lookup name with
  | none => exact .error (hE.relation _ _ _ _)
  | some columns => exact .ok rfl

theorem alike_relation {catalog : Catalog} (hE : Coarse E) (hp : r'.position = r.position)
    {q q' : Relation} (h : ∀ schema, Offers catalog q schema → Uniform E r r' schema)
    (hq : q.respell r = q'.respell r) :
    Alike E (SameSources r') (relation catalog config q) (relation catalog config q') := by
  cases q with
  | table t =>
      cases q' with
      | join => cases hq
      | table t' =>
          simp only [Relation.respell, Relation.table.injEq] at hq
          refine (alike_source hE hq).bind ?_
          rintro one _ rfl
          exact .ok ⟨rfl, rfl, rfl⟩
  | join type a b criteria =>
      cases q' with
      | table => cases hq
      | join type' a' b' criteria' =>
          simp only [Relation.respell, Relation.join.injEq] at hq
          obtain ⟨rfl, ha, hb, hc⟩ := hq
          refine Alike.bind (R := fun x x' => x = x' ∧ source catalog a = .ok x)
            ((alike_source hE ha).imp fun _ _ hx _ hxx => ⟨hxx, hx⟩) ?_
          rintro left _ ⟨rfl, hleft⟩
          refine Alike.bind (R := fun x x' => x = x' ∧ source catalog b = .ok x)
            ((alike_source hE hb).imp fun _ _ hx _ hxx => ⟨hxx, hx⟩) ?_
          rintro right _ ⟨rfl, hright⟩
          simp only
          split
          · exact .error (hE.refl _)
          · refine (alike_resolve hE (h _ (.join hleft hright)) hp hc).bind fun on on' hon => ?_
            refine .ok ⟨rfl, rfl, ?_⟩
            simp only [Option.map_some, JoinInfo.respell]
            rw [hon]

/-- The input of an analysis is what the relations of its statement offer. -/
theorem offers_of_relation {catalog : Catalog} {q : Relation}
    {x : List Source × Schema × Option JoinInfo} (h : relation catalog config q = .ok x) :
    Offers catalog q x.2.1 := by
  obtain ⟨sources, input, join⟩ := x
  rcases relation_inv h with ⟨t, one, rfl, hone, _, rfl, _⟩ |
    ⟨_, _, _, _, left, right, _, rfl, hleft, hright, _, rfl, _⟩
  · exact .table hone
  · exact .join hleft hright

/-- Statements that the first respelling makes equal have analyses that the second makes equal, or
    both have none. -/
theorem alike_ofStatement {catalog : Catalog} (hE : Coarse E) (hp : r'.position = r.position)
    {s s' : Statement} (h : ∀ schema, Offers catalog s.body.source schema → Uniform E r r' schema)
    (hs : s.respell r = s'.respell r) :
    Alike E (fun a a' => a.respell r' = a'.respell r') (ofStatement catalog config s)
      (ofStatement catalog config s') := by
  have hbody := Statement.body_of_respell hs
  have htarget : target catalog s = target catalog s' := by
    rw [← target_respell catalog r, hs, target_respell]
  have hwindow := congrArg Query.window hbody
  have hlimit := congrArg Query.limit hbody
  refine Alike.bind (R := fun x x' => SameSources r' x x' ∧ Uniform E r r' x.2.1)
    ((alike_relation hE hp h (congrArg Query.source hbody)).imp fun x _ hx _ hsame =>
      ⟨hsame, h _ (offers_of_relation hx)⟩) ?_
  rintro ⟨sources, input, join⟩ ⟨_, _, join'⟩ ⟨⟨rfl, rfl, hjoin⟩, hu⟩
  have hresolve : ∀ e e', Expr.Matches r e e' → Alike E (Expr.Matches r')
      (resolve config.maxDepth input e) (resolve config.maxDepth input e') :=
    fun _ _ => alike_resolve hE hu hp
  have hjoined : join.isSome = join'.isSome := by
    simpa using congrArg Option.isSome hjoin
  simp only
  rw [hjoined, htarget]
  refine (alike_selectList hE hu hp (congrArg Query.select hbody)).bind fun _ _ hselect => ?_
  refine (Alike.option_mapM (option_map_eq_map_iff.mp (congrArg Query.filter hbody)) hresolve).bind
    fun _ _ hfilter => ?_
  refine (Alike.mapM (map_eq_map_iff.mp (congrArg Query.groupBy hbody)) hresolve).bind
    fun _ _ hgroupBy => ?_
  refine (Alike.option_mapM (option_map_eq_map_iff.mp (congrArg Query.having hbody)) hresolve).bind
    fun _ _ hhaving => ?_
  refine (Alike.self hE.refl (target catalog s')).bind ?_
  rintro sink _ rfl
  refine .ok ?_
  simp only [respell, mk.injEq, true_and]
  exact ⟨map_eq_map_iff.mpr hselect.1, hselect.2, option_map_eq_map_iff.mpr hfilter,
    map_eq_map_iff.mpr hgroupBy, option_map_eq_map_iff.mpr hhaving, hwindow, hlimit, hjoin, trivial⟩

end Analysis

end StreamSql
