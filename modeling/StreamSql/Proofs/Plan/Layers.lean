/-
  The layers of a plan. A plan reads one relation or joins two, and stands from there up in layers:
  the condition on rows, the groups, the condition on groups, the projection, the bound on the number
  of rows, and what takes the result. Each layer is there exactly if the statement asks for it, and
  nothing else is (`compileStatement_layers`). Each operator has the schema that follows from its
  input, and every expression has a type over the rows that it is evaluated on.

  Whether a statement groups its rows is asked of the statement as it was written: resolving names
  neither makes aggregate calls nor removes them (`callsAggregate_resolved`).
-/
import StreamSql.Proofs.Aggregation.Columns
import StreamSql.Proofs.Analysis
import StreamSql.Proofs.Plan.Grouping

namespace StreamSql

open Outcome Aggregation

/-! ## Statements that group their rows -/

namespace Aggregation

variable {functions : Registry} {config : Config} {e e' : Expr}

theorem isAggregate_congruent {R : Expr → Expr → Prop} (h : Expr.Congruent R e e') :
    IsAggregate functions e' ↔ IsAggregate functions e := by
  have hcalls : ∀ {l n as d as'}, IsAggregate functions (.call l n as d) ↔
      IsAggregate functions (.call l n as' d) := by
    intro l n as d as'
    constructor
    · rintro ⟨_, _, _, _, s, he, hs⟩
      cases he
      exact ⟨l, n, as', d, s, rfl, hs⟩
    · rintro ⟨_, _, _, _, s, he, hs⟩
      cases he
      exact ⟨l, n, as, d, s, rfl, hs⟩
  cases h with
  | call => exact hcalls
  | _ => simp [IsAggregate]

theorem callsAggregate_node :
    CallsAggregate functions e ↔
      IsAggregate functions e ∨ ∃ c ∈ e.children, CallsAggregate functions c := by
  constructor
  · rintro ⟨c, hc, hagg⟩
    cases hc with
    | self => exact Or.inl hagg
    | part member inner => exact Or.inr ⟨_, member, c, inner, hagg⟩
  · rintro (hagg | ⟨d, member, c, inner, hagg⟩)
    · exact ⟨e, .self, hagg⟩
    · exact ⟨c, .part member inner, hagg⟩

theorem not_callsAggregate_column (l : Option Location) (c : ColumnRef) :
    ¬CallsAggregate functions (.column l c) := by
  rw [callsAggregate_node]
  simp [IsAggregate, Expr.children]

/-- Resolving names neither makes aggregate calls nor removes them. -/
theorem callsAggregate_resolved {limit n : Nat} {schema : Schema}
    (h : Expr.replaceWithin limit (Analysis.spell schema) n e = .ok e') :
    CallsAggregate functions e' ↔ CallsAggregate functions e := by
  induction n generalizing e e' with
  | zero => cases h
  | succ n ih =>
      rcases Analysis.resolved_iff.mp h with ⟨l, c, f, i, rfl, _, rfl⟩ | ⟨_, hparts⟩
      · exact iff_of_false (not_callsAggregate_column _ _) (not_callsAggregate_column _ _)
      · rw [callsAggregate_node, callsAggregate_node, isAggregate_congruent hparts]
        refine or_congr_right ⟨?_, ?_⟩
        · rintro ⟨c', hc', hcalls⟩
          obtain ⟨c, hc, hr⟩ := exists_left hparts.children hc'
          exact ⟨c, hc, (ih hr).mp hcalls⟩
        · rintro ⟨c, hc, hcalls⟩
          obtain ⟨c', hc', hr⟩ := exists_right hparts.children hc
          exact ⟨c', hc', (ih hr).mpr hcalls⟩

/-- The query groups its rows: it has keys, or an aggregate call in its select list or in its
    condition on groups. -/
def Groups (functions : Registry) (q : Query) : Prop :=
  q.groupBy ≠ [] ∨ (∃ e aliasName, .expr e aliasName ∈ q.select ∧ CallsAggregate functions e) ∨
    ∃ e, q.having = some e ∧ CallsAggregate functions e

/-- The statement has an aggregate call exactly if its analysis has. -/
theorem callsAggregate_ofStatement {catalog : Catalog} {st : Statement} {s : Analysis}
    (h : Analysis.ofStatement catalog config st = .ok s) :
    (∃ e ∈ s.exprs ++ s.having.toList, CallsAggregate functions e) ↔
      (∃ e aliasName, .expr e aliasName ∈ st.body.select ∧ CallsAggregate functions e) ∨
        ∃ e, st.body.having = some e ∧ CallsAggregate functions e := by
  obtain ⟨_, hselect, _, _, hhaving, _⟩ := Analysis.ofStatement_eq_ok.mp h
  simp only [List.mem_append, or_and_right, exists_or]
  refine or_congr ⟨?_, ?_⟩ ?_
  · rintro ⟨e', he', hcalls⟩
    rcases Analysis.mem_selectList hselect he' with ⟨e, aliasName, he, hr⟩ | ⟨f, _, rfl⟩
    · exact ⟨e, aliasName, he, (callsAggregate_resolved hr).mp hcalls⟩
    · -- a field that is written out is a column
      unfold Analysis.expandField at hcalls
      split at hcalls
      · exact absurd hcalls (not_callsAggregate_column _ _)
      · exact absurd hcalls (not_callsAggregate_column _ _)
  · rintro ⟨e, aliasName, he, hcalls⟩
    obtain ⟨e', he', hr⟩ := Analysis.exists_mem_selectList hselect he
    exact ⟨e', he', (callsAggregate_resolved hr).mpr hcalls⟩
  · generalize st.body.having = o at hhaving
    generalize s.having = o' at hhaving
    cases hhaving with
    | none => simp
    | some hr => simpa using callsAggregate_resolved hr

end Aggregation

/-! ## Layers -/

namespace Plan

/-- The operator stands on the input exactly if it is asked for. -/
def Layer (asked : Prop) (operator : Plan → Plan → Prop) (input output : Plan) : Prop :=
  (asked → operator input output) ∧ (¬asked → output = input)

theorem Layer.of_iff {asked asked' : Prop} {operator : Plan → Plan → Prop} {input output : Plan}
    (h : Layer asked operator input output) (hiff : asked' ↔ asked) :
    Layer asked' operator input output :=
  ⟨fun ha => h.1 (hiff.mp ha), fun hn => h.2 fun ha => hn (hiff.mpr ha)⟩

/-- The plan reads the relation of the catalog, with all its columns. -/
def Reads (catalog : Catalog) (t : TableRef) (plan : Plan) : Prop :=
  ∃ columns, catalog.lookup t.name = some columns ∧
    plan = .source t.name t.aliasName (.ofRelation t.qualifier columns)

/-- The plan reads one relation, or joins two. -/
def Base (catalog : Catalog) : Relation → Plan → Prop
  | .table t, plan => Reads catalog t plan
  | .join type l r _, plan => ∃ leftKey rightKey left right, Reads catalog l left ∧
      Reads catalog r right ∧
      plan = .join type leftKey rightKey left right (left.schema.join right.schema)

/-- The rows of the input for which a condition holds. -/
def Filters (t : Typing) (e : Expr) (input output : Plan) : Prop :=
  output = .filter e input input.schema ∧
    ∃ type, t.infer input.schema e = .ok type ∧ (type = .boolean ∨ type = .null)

/-- The groups of the input, with the results of the calls after its columns. -/
def GroupsBy (t : Typing) (keys : List Expr) (calls : List AggregateCall) (window : Option Window)
    (input output : Plan) : Prop :=
  (∀ key ∈ keys, (∃ type, t.infer input.schema key = .ok type) ∧
    ¬CallsAggregate t.functions key) ∧
  ∃ results, Planner.ResultsOf t input.schema calls results ∧
    output = .aggregate keys calls window input ⟨input.schema.fields ++ results⟩

/-- The expressions over the input under their names, each with the type that it has there. -/
def Projects (t : Typing) (exprs : List Expr) (names : List String) (input output : Plan) : Prop :=
  exprs.length = names.length ∧
  ∃ types, List.Forall₂ (fun e type => t.infer input.schema e = .ok type) exprs types ∧
    output = .project (exprs.zip names) input
      ⟨List.zipWith (fun name type => ⟨none, name, type⟩) names types⟩

/-- What takes the result of a statement. A relation that is created has the columns of the result;
    the result that is written into an existing relation fits its columns one by one. -/
def Delivers (catalog : Catalog) : Statement → Plan → Plan → Prop
  | .query _, input, output => output = input
  | .create kind name ps _, input, output => output = .sink name kind true ps input input.schema
  | .insert name _, input, output => ∃ target, catalog.lookup name = some target ∧
      List.Forall₂ (fun f c => f.type.storableAs c.type = true) input.schema.fields target ∧
      output = .sink name .stream false [] input (.ofRelation name target)

end Plan

open Plan

/-- The layers of the plan of a statement, from the relations that it reads to the whole. -/
structure Layers (p : Planner) (st : Statement) (c : Compiled)
    (base rows groups kept result bounded : Plan) : Prop where
  reads : Base p.catalog st.body.source base
  filters : Layer (st.body.filter ≠ none)
    (fun input output => ∃ e ∈ c.analysis.filter, Filters p.typing e input output) base rows
  groupsBy : Layer (Groups p.functions st.body)
    (GroupsBy p.typing c.analysis.groupBy c.aggregation.calls st.body.window) rows groups
  keeps : Layer (st.body.having ≠ none)
    (fun input output => ∃ e ∈ c.aggregation.having, Filters p.typing e input output) groups kept
  projects : Projects p.typing c.aggregation.final c.analysis.names kept result
  bounds : Layer (st.body.limit ≠ none)
    (fun input output => ∃ n ∈ st.body.limit, output = .limit n input input.schema) result bounded
  delivers : Delivers p.catalog st bounded c.plan

namespace Planner

variable {p : Planner} {s : Analysis} {a : Aggregation} {input plan : Plan}

theorem aggregates_eq_ok {e : Expr} {b : Bool} (h : p.aggregates e = .ok b) :
    CallsAggregate p.functions e ↔ b = true := by
  simp only [aggregates, bind_eq_ok, pure_eq_ok] at h
  obtain ⟨found, hscan, rfl⟩ := h
  simp only [callsAggregate_iff, ← mem_scanWithin hscan]
  cases found with
  | nil => simp
  | cons c found => simp

theorem filters_of_filtered (hf : p.config.foldConstants = false)
    (h : p.filtered s input = .ok plan) :
    Layer (s.filter ≠ none) (fun input output => ∃ e ∈ s.filter, Filters p.typing e input output)
      input plan := by
  rcases filtered_eq_ok.mp h with ⟨hnone, rfl⟩ | ⟨e, e', he, _, hcheck, hfold, rfl⟩
  · exact ⟨fun hsome => absurd hnone hsome, fun _ => rfl⟩
  · rw [(fold_eq_ok hf).mp hfold]
    refine ⟨fun _ => ⟨e, he, rfl, Typing.checkPredicate_eq_ok.mp hcheck⟩, fun hnone => ?_⟩
    rw [he] at hnone
    exact absurd (Option.some_ne_none e) hnone

theorem filters_of_havingFiltered (h : p.havingFiltered a input = .ok plan) :
    Layer (a.having ≠ none) (fun input output => ∃ e ∈ a.having, Filters p.typing e input output)
      input plan := by
  rcases havingFiltered_eq_ok.mp h with ⟨hnone, rfl⟩ | ⟨e, he, hcheck, rfl⟩
  · exact ⟨fun hsome => absurd hnone hsome, fun _ => rfl⟩
  · refine ⟨fun _ => ⟨e, he, rfl, Typing.checkPredicate_eq_ok.mp hcheck⟩, fun hnone => ?_⟩
    rw [he] at hnone
    exact absurd (Option.some_ne_none e) hnone

theorem groupsBy_of_grouped (h : p.grouped s a input = .ok plan) :
    GroupsBy p.typing s.groupBy a.calls s.window input plan := by
  obtain ⟨hkeys, _, _, _, results, hresults, rfl⟩ := grouped_eq_ok.mp h
  refine ⟨fun key hkey => ⟨(hkeys key hkey).2, ?_⟩, results, hresults, rfl⟩
  have := aggregates_eq_ok (hkeys key hkey).1
  rw [typing, this]
  exact Bool.false_ne_true

/-- The columns of a projection, split into expressions, names and types. -/
theorem projects_of_projected (hf : p.config.foldConstants = false) {exprs : List Expr}
    {names : List String} (h : p.projected exprs names input = .ok plan) :
    Projects p.typing exprs names input plan := by
  obtain ⟨hlen, columns, hcolumns, rfl⟩ := projected_eq_ok.mp h
  refine ⟨hlen, ?_⟩
  simp only [fold_eq_ok hf] at hcolumns
  have hsplit : ∀ {exprs : List Expr} {names : List String}
      {columns : List ((Expr × String) × Field)}, exprs.length = names.length →
      List.Forall₂ (fun item column => ∃ type e', p.typing.infer input.schema item.1 = .ok type ∧
        e' = item.1 ∧ ((e', item.2), ⟨none, item.2, type⟩) = column) (exprs.zip names) columns →
      ∃ types, List.Forall₂ (fun e type => p.typing.infer input.schema e = .ok type) exprs types ∧
        columns.map (·.1) = exprs.zip names ∧
        columns.map (·.2) = List.zipWith (fun name type => ⟨none, name, type⟩) names types := by
    intro exprs
    induction exprs with
    | nil =>
        intro names columns _ h
        cases h
        exact ⟨[], .nil, rfl, by simp⟩
    | cons e exprs ih =>
        intro names columns hlen h
        cases names with
        | nil => simp at hlen
        | cons name names =>
            cases h with
            | cons hcolumn h =>
                obtain ⟨type, _, htype, rfl, rfl⟩ := hcolumn
                obtain ⟨types, htypes, hitems, hfields⟩ := ih (Nat.succ.inj hlen) h
                exact ⟨type :: types, .cons htype htypes, by simp [hitems], by simp [hfields]⟩
  obtain ⟨types, htypes, hitems, hfields⟩ := hsplit hlen hcolumns
  exact ⟨types, htypes, by rw [hitems, hfields]⟩

/-- A result fits a relation if it has as many columns, and each can be stored in its place. -/
theorem checkInsert_eq_ok {name : String} {produced : Schema} {target : List Column} :
    checkInsert name produced target = .ok () ↔
      List.Forall₂ (fun f c => f.type.storableAs c.type = true) produced.fields target := by
  simp only [checkInsert, guard_eq_ok, forM_eq_ok]
  rw [List.forall₂_iff_zip, not_ne_iff, Schema.width]
  refine and_congr_right fun _ => ⟨fun h f c hmem => ?_, ?_⟩
  · have := h (f, c) hmem
    by_contra hne
    simp [hne] at this
  · rintro h ⟨f, c⟩ hmem
    simp [h hmem]

theorem layer_limited (s : Analysis) (input : Plan) :
    Layer (s.limit ≠ none) (fun input output => ∃ n ∈ s.limit, output = .limit n input input.schema)
      input (limited s input) := by
  unfold limited
  cases hl : s.limit with
  | none => exact ⟨fun h => absurd rfl h, fun _ => rfl⟩
  | some n => exact ⟨fun _ => ⟨n, rfl, rfl⟩, fun h => absurd (Option.some_ne_none n) h⟩

/-- The relations that a statement reads, with the columns that its expressions name. -/
theorem base_of_sources {catalog : Catalog} {config : Config} {st : Statement}
    (hs : Analysis.ofStatement catalog config st = .ok s) (h : p.sources s = .ok plan) :
    Base catalog st.body.source plan ∧ plan.schema = s.input := by
  have hreads : ∀ {t one}, Analysis.source catalog t = .ok one →
      Reads catalog t (sourcePlan one) := by
    intro t one hone
    obtain ⟨columns, hcolumns, rfl⟩ := Analysis.source_eq_ok.mp hone
    exact ⟨columns, hcolumns, rfl⟩
  obtain ⟨hrelation, _⟩ := Analysis.ofStatement_eq_ok.mp hs
  rcases Analysis.relation_inv hrelation with ⟨t, one, hr, hone, hsources, hinput, hjoin⟩ |
    ⟨type, tl, tr, on, left, right, j, hr, hl, hright, hsources, hinput, hjoin, rfl, _⟩
  · rw [hr]
    rcases sources_eq_ok.mp h with ⟨one', hone', _, rfl⟩ | ⟨_, _, _, _, hj, _⟩
    · rw [hsources] at hone'
      cases hone'
      exact ⟨hreads hone, hinput.symm⟩
    · rw [hjoin] at hj
      cases hj
  · rw [hr]
    rcases sources_eq_ok.mp h with ⟨_, _, hj, _⟩ | ⟨left', right', j', hsources', hj, hplan⟩
    · rw [hjoin] at hj
      cases hj
    · rw [hjoin] at hj
      rw [hsources] at hsources'
      cases hj
      cases hsources'
      obtain ⟨leftKey, rightKey, rfl⟩ := join_of_joinPlan hplan
      exact ⟨⟨leftKey, rightKey, _, _, hreads hl, hreads hright, rfl⟩, hinput.symm⟩

/-- An analysed statement is grouped if it has keys or calls an aggregate function. -/
theorem groups_eq_true_iff (ha : Aggregation.ofAnalysis p.functions p.config s = .ok a) :
    groups s a = true ↔
      s.groupBy ≠ [] ∨ ∃ e ∈ s.exprs ++ s.having.toList, CallsAggregate p.functions e := by
  have hcomplete := complete_of_ofAnalysis ha
  have hcalls : (∃ e ∈ s.exprs ++ s.having.toList, CallsAggregate p.functions e) ↔ a.calls ≠ [] := by
    constructor
    · rintro ⟨e, he, hcalls⟩
      obtain ⟨c, hc⟩ := callsAggregate_iff.mp hcalls
      obtain ⟨entry, hentry, _⟩ := hcomplete.recorded c ⟨e, he, hc⟩
      exact List.ne_nil_of_mem hentry
    · intro hne
      obtain ⟨entry, hentry⟩ := List.exists_mem_of_ne_nil _ hne
      obtain ⟨e, he, hc⟩ := hcomplete.made entry hentry
      exact ⟨e, he, callsAggregate_iff.mpr ⟨_, hc⟩⟩
  rw [hcalls]
  simp [groups, hasAggregates, or_comm]

/-- The statement is grouped exactly if it asks for it. -/
theorem groups_iff {st : Statement} (hs : Analysis.ofStatement p.catalog p.config st = .ok s)
    (ha : Aggregation.ofAnalysis p.functions p.config s = .ok a) :
    Groups p.functions st.body ↔ groups s a = true := by
  obtain ⟨_, _, _, hgroupBy, _⟩ := Analysis.ofStatement_eq_ok.mp hs
  have hkeys : st.body.groupBy ≠ [] ↔ s.groupBy ≠ [] := by
    rw [← List.length_pos_iff, ← List.length_pos_iff, hgroupBy.length_eq]
  unfold Groups
  rw [← callsAggregate_ofStatement hs, hkeys, groups_eq_true_iff ha]

/-- A statement without aggregate calls evaluates its select expressions as they are. -/
theorem final_eq_exprs (ha : Aggregation.ofAnalysis p.functions p.config s = .ok a)
    (hnone : a.calls = []) : a.final = s.exprs := by
  have hcomplete := complete_of_ofAnalysis ha
  have hplain : ∀ e ∈ s.exprs, ¬CallsAggregate p.functions e := by
    intro e he hcalls
    obtain ⟨c, hc⟩ := callsAggregate_iff.mp hcalls
    obtain ⟨entry, hentry, _⟩ := hcomplete.recorded c ⟨e, List.mem_append_left _ he, hc⟩
    rw [hnone] at hentry
    cases hentry
  have hsame : List.Forall₂ (· = ·) s.exprs a.final := by
    refine List.forall₂_iff_zip.mpr ⟨hcomplete.kept.length_eq, fun {e e'} hmem => ?_⟩
    exact (List.forall₂_zip hcomplete.kept hmem (hplain e (List.of_mem_zip hmem).1)).symm
  rw [List.forall₂_eq_eq_eq] at hsame
  exact hsame.symm

theorem delivers_of_sunk {st : Statement} (hs : Analysis.ofStatement p.catalog p.config st = .ok s)
    (h : p.sunk s input = .ok plan) : Delivers p.catalog st input plan := by
  obtain ⟨_, _, _, _, _, htarget, _⟩ := Analysis.ofStatement_eq_ok.mp hs
  unfold sunk at h
  cases st with
  | query q =>
      rw [← pure_eq_ok.mp htarget] at h
      cases h
      rfl
  | create kind name ps q =>
      simp only [Analysis.target] at htarget
      split at htarget
      · cases htarget
      · rw [← pure_eq_ok.mp htarget] at h
        cases h
        rfl
  | insert name q =>
      simp only [Analysis.target] at htarget
      split at htarget
      · rw [← pure_eq_ok.mp htarget] at h
        cases hl : p.catalog.lookup name with
        | none => simp [hl] at h
        | some target =>
            simp only [hl, bind_eq_ok, pure_eq_ok, exists_unit] at h
            exact ⟨target, hl, checkInsert_eq_ok.mp h.1, h.2.symm⟩
      · cases htarget

/-- Every plan that is made without folding has the layers that its statement asks for, one on the
    other, and no others. -/
theorem compileStatement_layers (hf : p.config.foldConstants = false) {text : Prepared}
    {c : Compiled} (hc : p.compileStatement text = .ok c) :
    ∃ base rows groups kept result bounded,
      Layers p text.statement c base rows groups kept result bounded := by
  obtain ⟨hs, ha, hb, _⟩ := compileStatement_eq_ok.mp hc
  obtain ⟨_, _, hfilter, _, hhaving, _, hwindow, hlimit⟩ := Analysis.ofStatement_eq_ok.mp hs
  have hkeeps : text.statement.body.having ≠ none ↔ c.aggregation.having ≠ none :=
    (ne_none_of_rel hhaving).trans (ne_none_of_rel (takes_ofAnalysis ha).2)
  have hgroups := groups_iff hs ha
  cases hg : groups c.analysis c.aggregation with
  | true =>
      obtain ⟨base, rows, groups, kept, result, hbase, hrows, hgrouped, hkept, hresult, hsunk⟩ :=
        (build_eq_ok_of_groups hg).mp hb
      refine ⟨base, rows, groups, kept, result, limited c.analysis result,
        (base_of_sources hs hbase).1, (filters_of_filtered hf hrows).of_iff (ne_none_of_rel hfilter),
        ⟨fun _ => ?_, fun hn => absurd (hgroups.mpr hg) hn⟩,
        (filters_of_havingFiltered hkept).of_iff hkeeps, projects_of_projected hf hresult, ?_,
        delivers_of_sunk hs hsunk⟩
      · rw [← hwindow]
        exact groupsBy_of_grouped hgrouped
      · rw [← hlimit]
        exact layer_limited c.analysis result
  | false =>
      obtain ⟨hnone, _, base, rows, result, hbase, hrows, hresult, hsunk⟩ :=
        (build_eq_ok_of_not_groups hg).mp hb
      have hcalls : c.aggregation.calls = [] := by
        simp only [groups, hasAggregates, Bool.or_eq_false_iff] at hg
        simpa using hg.1
      rw [← final_eq_exprs ha hcalls] at hresult
      refine ⟨base, rows, rows, rows, result, limited c.analysis result,
        (base_of_sources hs hbase).1, (filters_of_filtered hf hrows).of_iff (ne_none_of_rel hfilter),
        ⟨fun hy => ?_, fun _ => rfl⟩, ⟨fun hy => ?_, fun _ => rfl⟩,
        projects_of_projected hf hresult, ?_, delivers_of_sunk hs hsunk⟩
      · rw [hgroups, hg] at hy
        cases hy
      · exact absurd hnone ((ne_none_of_rel hhaving).mp hy)
      · rw [← hlimit]
        exact layer_limited c.analysis result

/-- Orders and their buyers, with a relation for the totals. -/
def shop : Planner where
  catalog := ⟨[("orders", [⟨"buyer", .int32, true⟩, ⟨"amount", .int32, true⟩]),
    ("users", [⟨"id", .int32, true⟩, ⟨"name", .utf8, true⟩]),
    ("totals", [⟨"name", .utf8, true⟩, ⟨"total", .int64, true⟩])]⟩
  functions := ⟨[("SUM", .aggregate "SUM" .widened)]⟩
  config := {}

def shopTotal : Expr :=
  .call none "SUM" [.qualifiedCol "o" "amount"] false

def shopQuery : Prepared where
  text := "INSERT INTO totals SELECT u.name, SUM(o.amount) FROM orders o JOIN users u " ++
    "ON o.buyer = u.id WHERE o.amount > 0 GROUP BY u.name HAVING SUM(o.amount) > 9 LIMIT 5"
  statement := .insert "totals" {
    select := [.expr (.qualifiedCol "u" "name") none, .expr shopTotal none]
    source := .join .inner ⟨"orders", some "o", none⟩ ⟨"users", some "u", none⟩
      (.compare none (.qualifiedCol "o" "buyer") .eq (.qualifiedCol "u" "id"))
    filter := some (.compare none (.qualifiedCol "o" "amount") .gt (.lit (.integer 0)))
    groupBy := [.qualifiedCol "u" "name"]
    having := some (.compare none shopTotal .gt (.lit (.integer 9)))
    limit := some 5 }

/-- A statement that asks for every layer gets them all. -/
theorem compileStatement_layers_shop :
    ∃ c, shop.config.foldConstants = false ∧ shop.compileStatement shopQuery = .ok c ∧
      c.plan.operators.map Plan.name =
        ["Sink", "Limit", "Project", "Filter", "Aggregate", "Filter", "Join", "Source", "Source"] ∧
      ∃ base rows groups kept result bounded,
        Layers shop shopQuery.statement c base rows groups kept result bounded := by
  have hnames : (fun c => c.plan.operators.map Plan.name) <$> shop.compileStatement shopQuery = .ok
      ["Sink", "Limit", "Project", "Filter", "Aggregate", "Filter", "Join", "Source", "Source"] := by
    with_unfolding_all rfl
  obtain ⟨c, hc, hnames⟩ := map_eq_ok.mp hnames
  exact ⟨c, rfl, hc, hnames, compileStatement_layers rfl hc⟩

end Planner

end StreamSql
