/-
  A statement with its names resolved. `ofStatement_eq_ok` takes the analysis of a statement apart,
  clause by clause; nothing else opens it. Resolving an expression spells its columns and changes
  nothing else (`resolved_iff`), so every column that remains has a field of the input that answers
  to it, and no expression is higher than the limit (`known_of_ofStatement`).
-/
import StreamSql.Analysis
import StreamSql.Proofs.Expr.Replace
import StreamSql.Proofs.Schema

namespace StreamSql

open Outcome

theorem Config.maxDepth_pos {config : Config} (h : config.validate = .ok config) :
    0 < config.maxDepth := by
  refine Nat.pos_of_ne_zero fun hzero => ?_
  simp [validate, hzero] at h

/-! ## Columns as they are spelled -/

theorem Text.sameName_right {a b c : String} (h : sameName a b = true) :
    sameName c a = sameName c b := by
  rw [Bool.eq_iff_iff, sameName_iff, sameName_iff, sameName_iff.mp h]

/-- Where all names are different, a name stands at one place. -/
theorem Text.eq_of_sameName {α : Type} {name : α → String} {as : List α}
    (h : as.Pairwise fun a b => sameName (name a) (name b) = false) {i j : Nat} {a b : α}
    (hi : as[i]? = some a) (hj : as[j]? = some b) (hab : sameName (name a) (name b) = true) :
    i = j := by
  obtain ⟨hi', rfl⟩ := List.getElem?_eq_some_iff.mp hi
  obtain ⟨hj', rfl⟩ := List.getElem?_eq_some_iff.mp hj
  have hpairs := List.pairwise_iff_getElem.mp h
  rcases Nat.lt_trichotomy i j with hlt | heq | hgt
  · rw [hpairs i j hi' hj' hlt] at hab
    cases hab
  · exact heq
  · rw [sameName_comm, hpairs j i hj' hi' hgt] at hab
    cases hab

/-- The column as the field that it means spells it. -/
def Field.spelling (f : Field) (c : ColumnRef) : ColumnRef :=
  ⟨match c.qualifier, f.qualifier with
    | some _, some q => some q
    | written, _ => written, f.name⟩

/-- A column and its spelling are answered by the same fields. -/
theorem Field.answers_spelling {f : Field} {c : ColumnRef} (h : f.answers c = true) (g : Field) :
    g.answers (f.spelling c) = g.answers c := by
  obtain ⟨q, name⟩ := c
  simp only [answers, Bool.and_eq_true] at h
  obtain ⟨hname, hq⟩ := h
  have hname' : Text.sameName g.name f.name = Text.sameName g.name name :=
    Text.sameName_right hname
  cases q with
  | none => simp [answers, spelling, hname']
  | some q =>
      cases hf : f.qualifier with
      | none => simp [isOf, hf] at hq
      | some q' =>
          simp only [Option.all_some, isOf, hf, Option.any_some] at hq
          have hisOf : g.isOf q' = g.isOf q := by
            unfold isOf
            cases g.qualifier with
            | none => rfl
            | some p => exact Text.sameName_right hq
          simp [answers, spelling, hf, hname', hisOf]

namespace Analysis

variable {limit n : Nat} {schema : Schema} {e e' : Expr}

/-! ## Resolved expressions -/

theorem spell_eq_ok {r : Option Expr} :
    spell schema e = .ok r ↔
      (∃ l c f i, e = .column l c ∧ schema.resolve c (l.getD .unknown) = .ok (f, i) ∧
        r = some (.column l (f.spelling c))) ∨
      ((∀ l c, e ≠ .column l c) ∧ r = none) := by
  cases e with
  | column l c =>
      simp only [spell, bind_eq_ok, pure_eq_ok]
      constructor
      · rintro ⟨⟨f, i⟩, hf, rfl⟩
        exact Or.inl ⟨l, c, f, i, rfl, hf, rfl⟩
      · rintro (⟨_, _, f, i, he, hf, rfl⟩ | ⟨hne, _⟩)
        · cases he
          exact ⟨(f, i), hf, rfl⟩
        · exact absurd rfl (hne l c)
  | _ => simp [spell, @eq_comm _ _ r]

/-- A column is spelled as its field spells it; any other node is built again over its parts. -/
theorem resolved_iff :
    Expr.replaceWithin limit (spell schema) (n + 1) e = .ok e' ↔
      (∃ l c f i, e = .column l c ∧ schema.resolve c (l.getD .unknown) = .ok (f, i) ∧
        e' = .column l (f.spelling c)) ∨
      ((∀ l c, e ≠ .column l c) ∧
        Expr.Congruent (fun c c' => Expr.replaceWithin limit (spell schema) n c = .ok c') e e') := by
  rw [Expr.replaceWithin_eq_ok, spell_eq_ok, spell_eq_ok]
  simp

/-- Every column of a resolved expression is the spelling of a column that was found. -/
theorem column_of_resolved (h : Expr.replaceWithin limit (spell schema) n e = .ok e')
    {l : Option Location} {c : ColumnRef} (hc : Expr.Within (.column l c) e') :
    ∃ d f i, schema.resolve d (l.getD .unknown) = .ok (f, i) ∧ c = f.spelling d := by
  induction n generalizing e e' with
  | zero => cases h
  | succ n ih =>
      rcases resolved_iff.mp h with ⟨l', d, f, i, rfl, hf, rfl⟩ | ⟨hne, hparts⟩
      · cases hc with
        | self => exact ⟨d, f, i, hf, rfl⟩
        | part member => simp [Expr.children] at member
      · cases hc with
        | self =>
            -- a node that is built again is a column only if it was one
            cases hparts
            exact absurd rfl (hne _ _)
        | part member inner =>
            obtain ⟨d, _, hd⟩ := exists_left hparts.children member
            exact ih hd inner

/-- Every column of a resolved expression has a field that answers to it. -/
theorem answers_of_resolved (h : Expr.replaceWithin limit (spell schema) n e = .ok e')
    {l : Option Location} {c : ColumnRef} (hc : Expr.Within (.column l c) e') :
    ∃ f ∈ schema.fields, f.answers c = true := by
  obtain ⟨d, f, i, hf, rfl⟩ := column_of_resolved h hc
  obtain ⟨hat, ha⟩ := Schema.found_of_resolve hf
  exact ⟨f, List.mem_of_getElem? hat, by rw [f.answers_spelling ha, ha]⟩

theorem height_of_resolved (h : Expr.replaceWithin limit (spell schema) n e = .ok e') :
    e'.height ≤ n := by
  refine Expr.height_of_replaceWithin (fun c r hr => ?_) h
  rcases spell_eq_ok.mp hr with ⟨l, _, _, _, _, _, hr⟩ | ⟨_, hr⟩
  · cases hr
    exact Nat.le_refl 1
  · cases hr

/-! ## The select list -/

theorem selectItem_expr {config : Config} {joined : Bool} {place : Nat} {aliasName : Option String}
    {columns : List (Expr × String)}
    (h : selectItem config schema joined place (.expr e aliasName) = .ok columns) :
    ∃ e' name, columns = [(e', name)] ∧ resolve config.maxDepth schema e = .ok e' := by
  simp only [selectItem, bind_eq_ok] at h
  obtain ⟨e', he', h⟩ := h
  refine ⟨e', ?_⟩
  split at h
  · cases h
    exact ⟨_, rfl, he'⟩
  · obtain ⟨_, _, h⟩ := bind_eq_ok.mp h
    cases h
    exact ⟨_, rfl, he'⟩
  · cases h
    exact ⟨_, rfl, he'⟩

/-- `*` writes out all fields, and `q.*` those of one relation. -/
theorem selectItem_all {config : Config} {joined : Bool} {place : Nat} {q : Option String}
    {l : Option Location} {columns : List (Expr × String)}
    (h : selectItem config schema joined place (.all q l) = .ok columns) :
    columns = (schema.fields.filter fun f =>
      q.all fun q => Text.sameName q (f.qualifier.getD "")).map (expandField joined) := by
  cases q with
  | none =>
      cases h
      simp
  | some q =>
      simp only [selectItem, guard_eq_ok, pure_eq_ok] at h
      exact h.2.symm

/-- Items add their columns one after the other, the expressions to one list and the names to
    another. -/
theorem foldlM_addItem {config : Config} {joined : Bool} {items : List SelectItem}
    {done result : List Expr × List String}
    (h : items.foldlM (addItem config schema joined) done = .ok result) :
    ∃ parts, List.Forall₂
        (fun item part => ∃ place, selectItem config schema joined place item = .ok part)
        items parts ∧
      result = (done.1 ++ parts.flatten.map (·.1), done.2 ++ parts.flatten.map (·.2)) := by
  induction items generalizing done with
  | nil =>
      cases h
      exact ⟨[], .nil, by simp⟩
  | cons item items ih =>
      simp only [List.foldlM_cons, addItem, bind_eq_ok, pure_eq_ok] at h
      obtain ⟨_, ⟨part, hpart, rfl⟩, h⟩ := h
      obtain ⟨parts, hparts, rfl⟩ := ih h
      exact ⟨part :: parts, .cons ⟨_, hpart⟩ hparts, by simp⟩

/-- The columns of the result are those of the items one after the other, and no name comes
    twice. -/
theorem selectList_inv {config : Config} {joined : Bool} {items : List SelectItem}
    {exprs : List Expr} {names : List String}
    (h : selectList config schema joined items = .ok (exprs, names)) :
    ∃ parts, List.Forall₂
        (fun item part => ∃ place, selectItem config schema joined place item = .ok part)
        items parts ∧ exprs = parts.flatten.map (·.1) ∧ names = parts.flatten.map (·.2) ∧
      repeatedName? [] names = none := by
  simp only [selectList, bind_eq_ok] at h
  obtain ⟨result, hresult, h⟩ := h
  obtain ⟨parts, hparts, rfl⟩ := foldlM_addItem hresult
  simp only [List.nil_append] at h
  split at h
  · cases h
  · rename_i hnames
    cases h
    exact ⟨parts, hparts, rfl, rfl, hnames⟩

theorem selectList_star {config : Config} {joined : Bool} (l : Option Location) :
    selectList config schema joined [.all none l] =
      match repeatedName? [] ((schema.fields.map (expandField joined)).map (·.2)) with
      | some name => .error (.planning (.repeatedName name))
      | none => .ok ((schema.fields.map (expandField joined)).map (·.1),
          (schema.fields.map (expandField joined)).map (·.2)) := by
  rfl

/-- An expression of the result is a resolved one of an item, or a field that `*` writes out. -/
theorem mem_selectList {config : Config} {joined : Bool} {items : List SelectItem}
    {exprs : List Expr} {names : List String}
    (h : selectList config schema joined items = .ok (exprs, names)) {e' : Expr} (he' : e' ∈ exprs) :
    (∃ e aliasName, .expr e aliasName ∈ items ∧ resolve config.maxDepth schema e = .ok e') ∨
      ∃ f ∈ schema.fields, e' = (expandField joined f).1 := by
  obtain ⟨parts, hparts, rfl, _⟩ := selectList_inv h
  obtain ⟨column, hcolumn, rfl⟩ := List.mem_map.mp he'
  obtain ⟨part, hpart, hcolumn⟩ := List.mem_flatten.mp hcolumn
  obtain ⟨item, hitem, place, hp⟩ := exists_left hparts hpart
  cases item with
  | expr e aliasName =>
      obtain ⟨e', name, rfl, he'⟩ := selectItem_expr hp
      rw [List.mem_singleton.mp hcolumn]
      exact Or.inl ⟨e, aliasName, hitem, he'⟩
  | all q l =>
      rw [selectItem_all hp] at hcolumn
      obtain ⟨f, hf, rfl⟩ := List.mem_map.mp hcolumn
      exact Or.inr ⟨f, List.mem_of_mem_filter hf, rfl⟩

/-- No expression of an item gets lost. -/
theorem exists_mem_selectList {config : Config} {joined : Bool} {items : List SelectItem}
    {exprs : List Expr} {names : List String}
    (h : selectList config schema joined items = .ok (exprs, names))
    {aliasName : Option String} (he : .expr e aliasName ∈ items) :
    ∃ e' ∈ exprs, resolve config.maxDepth schema e = .ok e' := by
  obtain ⟨parts, hparts, rfl, _⟩ := selectList_inv h
  obtain ⟨part, hpart, place, hp⟩ := exists_right hparts he
  obtain ⟨e', name, rfl, he'⟩ := selectItem_expr hp
  have hcolumn : (e', name) ∈ parts.flatten :=
    List.mem_flatten.mpr ⟨_, hpart, List.mem_singleton.mpr rfl⟩
  exact ⟨e', List.mem_map_of_mem hcolumn, he'⟩

/-! ## Statements -/

theorem source_eq_ok {catalog : Catalog} {t : TableRef} {one : Source} :
    source catalog t = .ok one ↔
      ∃ columns, catalog.lookup t.name = some columns ∧ one = ⟨t.name, t.aliasName, columns⟩ := by
  unfold source
  cases catalog.lookup t.name with
  | none => simp
  | some columns => simp [@eq_comm _ _ one]

theorem relation_join_eq_ok {catalog : Catalog} {config : Config} {type : JoinType}
    {tl tr : TableRef} {on : Expr} {sources : List Source} {input : Schema}
    {join : Option JoinInfo} :
    relation catalog config (.join type tl tr on) = .ok (sources, input, join) ↔
      ∃ left right criteria, source catalog tl = .ok left ∧ source catalog tr = .ok right ∧
        Text.sameName left.qualifier right.qualifier = false ∧
        resolve config.maxDepth (left.schema.join right.schema) on = .ok criteria ∧
        sources = [left, right] ∧ input = left.schema.join right.schema ∧
        join = some ⟨type, criteria⟩ := by
  simp only [relation, bind_eq_ok, guard_eq_ok, pure_eq_ok, Bool.not_eq_true]
  constructor
  · rintro ⟨left, hl, right, hr, hq, criteria, hon, h⟩
    cases h
    exact ⟨left, right, criteria, hl, hr, hq, hon, rfl, rfl, rfl⟩
  · rintro ⟨left, right, criteria, hl, hr, hq, hon, rfl, rfl, rfl⟩
    exact ⟨left, hl, right, hr, hq, criteria, hon, rfl⟩

/-- The relations that a statement reads: one, or two that are joined. -/
theorem relation_inv {catalog : Catalog} {config : Config} {r : Relation} {sources : List Source}
    {input : Schema} {join : Option JoinInfo}
    (h : relation catalog config r = .ok (sources, input, join)) :
    (∃ t one, r = .table t ∧ source catalog t = .ok one ∧ sources = [one] ∧ input = one.schema ∧
      join = none) ∨
    ∃ type tl tr on left right j, r = .join type tl tr on ∧ source catalog tl = .ok left ∧
      source catalog tr = .ok right ∧ sources = [left, right] ∧
      input = left.schema.join right.schema ∧ join = some j ∧ j.type = type ∧
      resolve config.maxDepth input on = .ok j.criteria := by
  cases r with
  | table t =>
      simp only [relation, bind_eq_ok, pure_eq_ok] at h
      obtain ⟨one, hone, h⟩ := h
      cases h
      exact Or.inl ⟨t, one, rfl, hone, rfl, rfl, rfl⟩
  | join type tl tr on =>
      obtain ⟨left, right, criteria, hl, hr, _, hon, rfl, rfl, rfl⟩ := relation_join_eq_ok.mp h
      exact Or.inr ⟨type, tl, tr, on, left, right, _, rfl, hl, hr, rfl, rfl, rfl, rfl, hon⟩

/-- The analysis of a statement, clause by clause. -/
theorem ofStatement_eq_ok {catalog : Catalog} {config : Config} {st : Statement} {s : Analysis} :
    ofStatement catalog config st = .ok s ↔
      relation catalog config st.body.source = .ok (s.sources, s.input, s.join) ∧
      selectList config s.input s.join.isSome st.body.select = .ok (s.exprs, s.names) ∧
      Option.Rel (fun e e' => resolve config.maxDepth s.input e = .ok e') st.body.filter s.filter ∧
      List.Forall₂ (fun e e' => resolve config.maxDepth s.input e = .ok e')
        st.body.groupBy s.groupBy ∧
      Option.Rel (fun e e' => resolve config.maxDepth s.input e = .ok e') st.body.having s.having ∧
      target catalog st = .ok s.sink ∧ s.window = st.body.window ∧ s.limit = st.body.limit := by
  simp only [ofStatement, bind_eq_ok, pure_eq_ok, mapM_eq_ok, option_mapM_eq_ok]
  constructor
  · rintro ⟨⟨sources, input, join⟩, hr, ⟨exprs, names⟩, hs, filter, hf, groupBy, hg, having, hh, sink,
      ht, rfl⟩
    exact ⟨hr, hs, hf, hg, hh, ht, rfl, rfl⟩
  · rintro ⟨hr, hs, hf, hg, hh, ht, hw, hl⟩
    refine ⟨_, hr, _, hs, _, hf, _, hg, _, hh, _, ht, ?_⟩
    rw [← hw, ← hl]

/-! ## Expressions over the input -/

/-- The expression is at most so high, and each of its columns has a field that answers to it. -/
def Known (schema : Schema) (n : Nat) (e : Expr) : Prop :=
  e.height ≤ n ∧ ∀ l c, Expr.Within (.column l c) e → ∃ f ∈ schema.fields, f.answers c = true

theorem Known.part {c : Expr} (h : Known schema (n + 1) e) (hc : c ∈ e.children) :
    Known schema n c :=
  ⟨Expr.height_le_succ.mp h.1 c hc, fun l d hd => h.2 l d (.part hc hd)⟩

theorem known_of_resolved (h : Expr.replaceWithin limit (spell schema) n e = .ok e') :
    Known schema n e' :=
  ⟨height_of_resolved h, fun _ _ => answers_of_resolved h⟩

/-- Every field of the input comes from a relation. -/
theorem qualifier_of_relation {catalog : Catalog} {config : Config} {r : Relation}
    {sources : List Source} {input : Schema} {join : Option JoinInfo}
    (h : relation catalog config r = .ok (sources, input, join)) {f : Field}
    (hf : f ∈ input.fields) : ∃ q, f.qualifier = some q := by
  have hsource : ∀ {one : Source}, f ∈ one.schema.fields → ∃ q, f.qualifier = some q := by
    intro one hf
    obtain ⟨column, _, rfl⟩ := List.mem_map.mp hf
    exact ⟨_, rfl⟩
  rcases relation_inv h with ⟨_, one, _, _, _, rfl, _⟩ | ⟨_, _, _, _, left, right, _, _, _, _, _, rfl, _⟩
  · exact hsource hf
  · rcases List.mem_append.mp hf with hf | hf
    · exact hsource hf
    · exact hsource hf

/-- A field that is written out is a column of that field. -/
theorem known_expandField {joined : Bool} {f : Field} {q : String} (hf : f ∈ schema.fields)
    (hq : f.qualifier = some q) (hn : 0 < n) : Known schema n (expandField joined f).1 := by
  have hcolumn : ∀ c, f.answers c = true → Known schema n (.column none c) := by
    intro c ha
    refine ⟨hn, fun l d hd => ?_⟩
    cases hd with
    | self => exact ⟨f, hf, ha⟩
    | part member => simp [Expr.children] at member
  unfold expandField
  split
  · exact hcolumn _ (by simp [Field.answers, Field.isOf, hq, Text.sameName_refl])
  · exact hcolumn _ (by simp [Field.answers, Text.sameName_refl])

/-- The select expressions of a statement and its condition on groups, over the input. -/
theorem known_of_ofStatement {catalog : Catalog} {config : Config} {st : Statement} {s : Analysis}
    (h : ofStatement catalog config st = .ok s) (hn : 0 < config.maxDepth)
    (he : e ∈ s.exprs ++ s.having.toList) : Known s.input config.maxDepth e := by
  obtain ⟨hrelation, hselect, _, _, hhaving, _⟩ := ofStatement_eq_ok.mp h
  rcases List.mem_append.mp he with he | he
  · rcases mem_selectList hselect he with ⟨_, _, _, hr⟩ | ⟨f, hf, rfl⟩
    · exact known_of_resolved hr
    · obtain ⟨q, hq⟩ := qualifier_of_relation hrelation hf
      exact known_expandField hf hq hn
  · rw [Option.mem_toList.mp he] at hhaving
    generalize st.body.having = o at hhaving
    cases hhaving with
    | some hr => exact known_of_resolved hr

end Analysis

end StreamSql
