/-
  What may be read after grouping. Once rows are put into groups, a column of the input has a single
  value in a group only if it is a grouping key. `compileStatement_covered` says that plans respect
  this: every expression that a plan evaluates on groups is a key as a whole, or each column in it
  means, in the schema of the groups, the result of an aggregate call or a column that is a key.

  The check of a plan is made against the input of the grouping, and it lets every name pass that
  looks like the column of an aggregate call. What such a name means is decided later, in a longer
  schema that has the input and the results. The two agree because a look-up never chooses: if the
  input has a column of that name as well, the later look-up fails and there is no plan.
-/
import Mathlib.Data.List.Basic
import StreamSql.Proofs.Plan.Stages
import StreamSql.Proofs.Schema
import StreamSql.Proofs.Typing

namespace StreamSql

open Outcome

namespace Plan

/-! ## Columns of groups -/

/-- In the rows of the groups the column means the result of a call, or a column of the input that
    is a grouping key by itself. -/
def ReadsGroup (keys : List Expr) (calls : List AggregateCall) (input output : Schema)
    (c : ColumnRef) (l : Location) : Prop :=
  ∃ f i, output.resolve c l = .ok (f, i) ∧
    ((∃ j call, calls[j]? = some call ∧ i = input.width + j ∧ f.qualifier = none ∧
        f.name = call.column) ∨
      ∃ kl kc, .column kl kc ∈ keys ∧ input.resolve kc (kl.getD .unknown) = .ok (f, i))

/-- The expression is a grouping key, or it reads nothing of the groups but keys and results. -/
def Covered (keys : List Expr) (calls : List AggregateCall) (input output : Schema) (e : Expr) :
    Prop :=
  (∃ key ∈ keys, key.same e = true) ∨
    ∀ l c, Expr.Within (.column l c) e → ReadsGroup keys calls input output c (l.getD .unknown)

end Plan

namespace Planner

theorem mem_keyColumns {schema : Schema} {keys : List Expr} {places : List Nat}
    (h : keyColumns schema keys = .ok places) {i : Nat} (hi : i ∈ places) :
    ∃ kl kc f, .column kl kc ∈ keys ∧ schema.resolve kc (kl.getD .unknown) = .ok (f, i) := by
  simp only [keyColumns, bind_eq_ok, pure_eq_ok, mapM_eq_ok] at h
  obtain ⟨found, hfound, rfl⟩ := h
  rw [List.mem_filterMap] at hi
  obtain ⟨place, hmem, rfl⟩ := hi
  obtain ⟨key, hkey, hplace⟩ := exists_left hfound hmem
  cases key with
  | column kl kc =>
      simp only [bind_eq_ok, pure_eq_ok] at hplace
      obtain ⟨⟨f, i'⟩, hr, hi⟩ := hplace
      cases hi
      exact ⟨kl, kc, f, hkey, hr⟩
  | _ => cases hplace

theorem checkColumn_cases {a : Aggregation} {schema : Schema} {places : List Nat} {c : ColumnRef}
    {l : Location} (h : checkColumn a schema places (c, l) = .ok ()) :
    (c.qualifier = none ∧ a.isColumn c.name = true) ∨
      ∃ f i, schema.resolve c l = .ok (f, i) ∧ i ∈ places := by
  unfold checkColumn at h
  simp only at h
  split at h
  · rename_i hc
    rw [Bool.and_eq_true, Option.isNone_iff_eq_none] at hc
    exact Or.inl hc
  · simp only [bind_eq_ok] at h
    obtain ⟨⟨f, i⟩, hr, h⟩ := h
    split at h
    · rename_i hi
      exact Or.inr ⟨f, i, hr, hi⟩
    · cases h

/-- The fields that grouping appends, one for each call. -/
def ResultsOf (t : Typing) (input : Schema) (calls : List AggregateCall) (results : List Field) :
    Prop :=
  List.Forall₂ (fun c f => ∃ type, t.infer input c.call = .ok type ∧
    (⟨none, c.column, type⟩ : Field) = f) calls results

/-- The name of a result is the name of a field after the input. -/
theorem exists_result {t : Typing} {input : Schema} {a : Aggregation} {results : List Field}
    (hr : ResultsOf t input a.calls results) {c : ColumnRef} (hq : c.qualifier = none)
    (hc : a.isColumn c.name = true) :
    ∃ j call f, a.calls[j]? = some call ∧ (input.fields ++ results)[input.width + j]? = some f ∧
      f.qualifier = none ∧ f.name = call.column ∧ f.answers c = true := by
  obtain ⟨call, hmem, hname⟩ := List.any_eq_true.mp hc
  obtain ⟨j, hj, rfl⟩ := List.getElem_of_mem hmem
  have hj' : j < results.length := by
    rw [← hr.length_eq]
    exact hj
  obtain ⟨type, _, hf⟩ := hr.get hj hj'
  refine ⟨j, a.calls[j], ⟨none, a.calls[j].column, type⟩, List.getElem?_eq_getElem hj, ?_, rfl, rfl,
    ?_⟩
  · rw [Schema.width, List.getElem?_append_right (Nat.le_add_right _ _), Nat.add_sub_cancel_left,
      List.getElem?_eq_getElem hj']
    exact congrArg some hf.symm
  · simpa [Field.answers, hq] using hname

/-- A column that passes the check against the input and is found in the rows of the groups reads a
    result or a key there. -/
theorem readsGroup_of_check {t : Typing} {a : Aggregation} {input : Schema} {keys : List Expr}
    {places : List Nat} {results : List Field} {c : ColumnRef} {l : Location} {found : Field × Nat}
    (hplaces : keyColumns input keys = .ok places) (hr : ResultsOf t input a.calls results)
    (hcheck : checkColumn a input places (c, l) = .ok ())
    (hfound : (⟨input.fields ++ results⟩ : Schema).resolve c l = .ok found) :
    Plan.ReadsGroup keys a.calls input ⟨input.fields ++ results⟩ c l := by
  rcases checkColumn_cases hcheck with ⟨hq, hname⟩ | ⟨f, i, hin, hi⟩
  · obtain ⟨j, call, f, hcall, hat, hfq, hfn, ha⟩ := exists_result hr hq hname
    rw [Schema.eq_of_resolve hfound hat ha] at hfound
    exact ⟨f, _, hfound, Or.inl ⟨j, call, hcall, rfl, hfq, hfn⟩⟩
  · obtain ⟨hat, ha⟩ := Schema.found_of_resolve hin
    have hat' : (input.fields ++ results)[i]? = some f := by
      rw [List.getElem?_append_left (List.getElem?_eq_some_iff.mp hat).1]
      exact hat
    rw [Schema.eq_of_resolve hfound hat' ha] at hfound
    obtain ⟨kl, kc, f', hkey, hkr⟩ := mem_keyColumns hplaces hi
    have hff : f' = f := by
      have hat'' := (Schema.found_of_resolve hkr).1
      rw [hat] at hat''
      exact (Option.some.inj hat'').symm
    rw [hff] at hkr
    exact ⟨f, i, hfound, Or.inr ⟨kl, kc, hkey, hkr⟩⟩

/-- An expression that passes the check and whose columns are found in the rows of the groups is
    covered. -/
theorem covered_of_check {p : Planner} {a : Aggregation} {input : Schema} {keys : List Expr}
    {places : List Nat} {results : List Field} {e : Expr}
    (hplaces : keyColumns input keys = .ok places)
    (hr : ResultsOf p.typing input a.calls results)
    (hcheck : p.checkGrouped a input keys places e = .ok ())
    (hfound : ∀ l c, Expr.Within (.column l c) e →
      ∃ found, (⟨input.fields ++ results⟩ : Schema).resolve c (l.getD .unknown) = .ok found) :
    Plan.Covered keys a.calls input ⟨input.fields ++ results⟩ e := by
  unfold checkGrouped at hcheck
  split at hcheck
  · rename_i hkey
    exact Or.inl (List.any_eq_true.mp hkey)
  · simp only [bind_eq_ok, forM_eq_ok] at hcheck
    obtain ⟨columns, hcolumns, hall⟩ := hcheck
    refine Or.inr fun l c hc => ?_
    obtain ⟨found, hf⟩ := hfound l c hc
    exact readsGroup_of_check hplaces hr (hall _ (Expr.mem_columns hcolumns hc)) hf

/-! ## Plans with groups -/

section

variable {p : Planner} {s : Analysis} {a : Aggregation} {rows grouped filtered : Plan}

theorem schema_of_havingFiltered (h : p.havingFiltered a grouped = .ok filtered) :
    filtered.schema = grouped.schema := by
  rcases havingFiltered_eq_ok.mp h with ⟨_, rfl⟩ | ⟨_, _, _, rfl⟩
  · rfl
  · rfl

/-- What is evaluated on groups and has its columns there is covered. -/
theorem covered_of_grouped (hg : p.grouped s a rows = .ok grouped) {e : Expr}
    (he : e ∈ a.final ++ a.having.toList)
    (hfound : ∀ l c, Expr.Within (.column l c) e →
      ∃ found, grouped.schema.resolve c (l.getD .unknown) = .ok found) :
    Plan.Covered s.groupBy a.calls rows.schema grouped.schema e := by
  obtain ⟨_, places, hplaces, hchecks, results, hresults, rfl⟩ := grouped_eq_ok.mp hg
  exact covered_of_check hplaces hresults (hchecks e he) hfound

theorem covered_of_having (hg : p.grouped s a rows = .ok grouped) {e : Expr} {fs : Schema}
    (hh : p.havingFiltered a grouped = .ok (.filter e grouped fs)) :
    Plan.Covered s.groupBy a.calls rows.schema grouped.schema e := by
  rcases havingFiltered_eq_ok.mp hh with ⟨_, h⟩ | ⟨e', he, hcheck, h⟩
  · obtain ⟨_, _, _, _, _, _, rfl⟩ := grouped_eq_ok.mp hg
    cases h
  · cases h
    refine covered_of_grouped hg ?_ fun l c hc => Typing.resolve_of_checkPredicate hcheck hc
    simp [he]

theorem covered_of_projected (hf : p.config.foldConstants = false)
    (hg : p.grouped s a rows = .ok grouped) (hh : p.havingFiltered a grouped = .ok filtered)
    {names : List String} {items : List (Expr × String)} {input : Plan} {out : Schema}
    (hp : p.projected a.final names filtered = .ok (.project items input out)) :
    ∀ item ∈ items, Plan.Covered s.groupBy a.calls rows.schema grouped.schema item.1 := by
  obtain ⟨_, columns, hcolumns, hplan⟩ := projected_eq_ok.mp hp
  cases hplan
  intro item hitem
  obtain ⟨column, hcolumn, rfl⟩ := List.mem_map.mp hitem
  obtain ⟨⟨e, n⟩, hmem, type, e', htype, hfold, rfl⟩ := exists_left hcolumns hcolumn
  have he' : e' = e := by
    unfold fold at hfold
    rw [hf] at hfold
    cases hfold
    rfl
  rw [he']
  refine covered_of_grouped hg ?_ fun l c hc => ?_
  · exact List.mem_append_left _ (List.of_mem_zip hmem).1
  · rw [← schema_of_havingFiltered hh]
    exact Typing.resolve_of_infer htype hc

/-- The operators of a result that is computed from groups. -/
theorem mem_operators_of_projected (hrows : Plan.ReadsRows rows)
    (hg : p.grouped s a rows = .ok grouped) (hh : p.havingFiltered a grouped = .ok filtered)
    {exprs : List Expr} {names : List String} {result q : Plan}
    (hp : p.projected exprs names filtered = .ok result) (hq : q ∈ result.operators) :
    q = result ∨ q = filtered ∨ q = grouped ∨ Plan.ReadsRows q := by
  obtain ⟨_, _, _, rfl⟩ := projected_eq_ok.mp hp
  rcases List.mem_cons.mp hq with rfl | hq
  · exact Or.inl rfl
  have hgrouped : q ∈ grouped.operators → q = grouped ∨ Plan.ReadsRows q := by
    obtain ⟨_, _, _, _, _, _, rfl⟩ := grouped_eq_ok.mp hg
    intro hq
    rcases List.mem_cons.mp hq with rfl | hq
    · exact Or.inl rfl
    · exact Or.inr (hrows.of_mem hq)
  rcases havingFiltered_eq_ok.mp hh with ⟨_, rfl⟩ | ⟨_, _, _, rfl⟩
  · exact Or.inr (Or.inr (hgrouped hq))
  · rcases List.mem_cons.mp hq with rfl | hq
    · exact Or.inr (Or.inl rfl)
    · exact Or.inr (Or.inr (hgrouped hq))

/-- Without groups there is no aggregate in a plan. -/
theorem groups_of_aggregate {plan : Plan} (h : p.build s a = .ok plan) {keys : List Expr}
    {calls : List AggregateCall} {window : Option Window} {input : Plan} {schema : Schema}
    (hq : .aggregate keys calls window input schema ∈ plan.operators) : groups s a = true := by
  cases hg : groups s a with
  | true => rfl
  | false =>
      obtain ⟨_, _, base, rows, result, hbase, hrows, hp, hsunk⟩ :=
        (build_eq_ok_of_not_groups hg).mp h
      have hreads := readsRows_of_filtered (readsRows_of_sources hbase) hrows
      obtain ⟨_, _, _, rfl⟩ := projected_eq_ok.mp hp
      rcases mem_operators_sunk hsunk hq with hq | hq
      · rcases List.mem_cons.mp hq with hq | hq
        · cases hq
        · cases hreads.of_mem hq
      · cases hq

/-- All the stages of a plan with groups: below them the rows, and above them the condition on
    groups, the projection, and what hands its result on. -/
theorem build_of_aggregate {plan : Plan} (h : p.build s a = .ok plan) {keys : List Expr}
    {calls : List AggregateCall} {window : Option Window} {input : Plan} {schema : Schema}
    (hq : .aggregate keys calls window input schema ∈ plan.operators) :
    ∃ base filtered result, p.sources s = .ok base ∧ p.filtered s base = .ok input ∧
      p.grouped s a input = .ok (.aggregate keys calls window input schema) ∧
      p.havingFiltered a (.aggregate keys calls window input schema) = .ok filtered ∧
      p.projected a.final s.names filtered = .ok result ∧ result ∈ plan.operators ∧
      ∀ q ∈ plan.operators, q.delivers = true ∨ q = result ∨ q = filtered ∨
        q = .aggregate keys calls window input schema ∨ Plan.ReadsRows q := by
  obtain ⟨base, rows, grouped, filtered, result, hbase, hrows, hg, hh, hp, hsunk⟩ :=
    (build_eq_ok_of_groups (groups_of_aggregate h hq)).mp h
  have hreads := readsRows_of_filtered (readsRows_of_sources hbase) hrows
  have hops : ∀ q ∈ plan.operators, q.delivers = true ∨ q = result ∨ q = filtered ∨ q = grouped ∨
      Plan.ReadsRows q := by
    intro q hq
    rcases mem_operators_sunk hsunk hq with hq | hq
    · exact Or.inr (mem_operators_of_projected hreads hg hh hp hq)
    · exact Or.inl hq
  have hresult : result ∈ plan.operators := by
    apply mem_operators_of_result hsunk
    obtain ⟨_, _, _, rfl⟩ := projected_eq_ok.mp hp
    exact List.mem_cons_self
  have hagg : .aggregate keys calls window input schema = grouped := by
    obtain ⟨_, _, _, rfl⟩ := projected_eq_ok.mp hp
    rcases hops _ hq with h | h | h | h | h
    · cases h
    · cases h
    · rcases havingFiltered_eq_ok.mp hh with ⟨_, rfl⟩ | ⟨_, _, _, rfl⟩
      · exact h
      · cases h
    · exact h
    · cases h
  have hinput : input = rows := by
    obtain ⟨_, _, _, _, _, _, hgrouped⟩ := grouped_eq_ok.mp hg
    rw [← hagg] at hgrouped
    cases hgrouped
    rfl
  rw [hinput] at hagg ⊢
  rw [hagg]
  exact ⟨base, filtered, result, hbase, hrows, hg, hh, hp, hresult, hops⟩

/-- The stages from the groups on. -/
theorem stages_of_aggregate {plan : Plan} (h : p.build s a = .ok plan) {keys : List Expr}
    {calls : List AggregateCall} {window : Option Window} {input : Plan} {schema : Schema}
    (hq : .aggregate keys calls window input schema ∈ plan.operators) :
    ∃ filtered result, p.grouped s a input = .ok (.aggregate keys calls window input schema) ∧
      p.havingFiltered a (.aggregate keys calls window input schema) = .ok filtered ∧
      p.projected a.final s.names filtered = .ok result ∧ result ∈ plan.operators ∧
      ∀ q ∈ plan.operators, q.delivers = true ∨ q = result ∨ q = filtered ∨
        q = .aggregate keys calls window input schema ∨ Plan.ReadsRows q := by
  obtain ⟨_, filtered, result, _, _, hstages⟩ := build_of_aggregate h hq
  exact ⟨filtered, result, hstages⟩

end

/-- In a plan without folding, everything that is evaluated on groups is covered: each column of the
    projection above the groups, and the condition on groups between the two. -/
theorem compileStatement_covered {p : Planner} (hf : p.config.foldConstants = false)
    {text : Prepared} {c : Compiled} (hc : p.compileStatement text = .ok c) {keys : List Expr}
    {calls : List AggregateCall} {window : Option Window} {input : Plan} {schema : Schema}
    (ha : .aggregate keys calls window input schema ∈ c.plan.operators) :
    (∃ items out, .project items (.aggregate keys calls window input schema) out ∈ c.plan.operators ∨
      ∃ e fs, .project items (.filter e (.aggregate keys calls window input schema) fs) out ∈
        c.plan.operators) ∧
    (∀ items above out, .project items above out ∈ c.plan.operators →
      ∀ item ∈ items, Plan.Covered keys calls input.schema schema item.1) ∧
    ∀ e fs, .filter e (.aggregate keys calls window input schema) fs ∈ c.plan.operators →
      Plan.Covered keys calls input.schema schema e := by
  obtain ⟨_, _, hb, _⟩ := compileStatement_eq_ok.mp hc
  obtain ⟨filtered, result, hg, hh, hp, hresult, hops⟩ := stages_of_aggregate hb ha
  have hfields : keys = c.analysis.groupBy ∧ calls = c.aggregation.calls := by
    obtain ⟨_, _, _, _, _, _, h⟩ := grouped_eq_ok.mp hg
    cases h
    exact ⟨rfl, rfl⟩
  obtain ⟨rfl, rfl⟩ := hfields
  have hproject : ∃ items out, result = .project items filtered out := by
    obtain ⟨_, _, _, h⟩ := projected_eq_ok.mp hp
    exact ⟨_, _, h⟩
  obtain ⟨items, out, rfl⟩ := hproject
  refine ⟨⟨items, out, ?_⟩, ?_, ?_⟩
  · rcases havingFiltered_eq_ok.mp hh with ⟨_, rfl⟩ | ⟨e, _, _, rfl⟩
    · exact Or.inl hresult
    · exact Or.inr ⟨e, _, hresult⟩
  · intro items' above out' hproject
    rcases hops _ hproject with h | h | h | h | h
    · cases h
    · cases h
      exact covered_of_projected hf hg hh hp
    · rcases havingFiltered_eq_ok.mp hh with ⟨_, rfl⟩ | ⟨_, _, _, rfl⟩
      · cases h
      · cases h
    · cases h
    · cases h
  · intro e fs hfilter
    rcases hops _ hfilter with h | h | h | h | h
    · cases h
    · cases h
    · rw [← h] at hh
      exact covered_of_having hg hh
    · cases h
    · -- rows are read and filtered before there are groups
      cases h with
      | filter h => cases h

/-! A relation with a column that is spelled like the result of a second aggregate call. The query
    makes only one call, twice. -/

def sales : Planner where
  catalog := ⟨[("sales", [⟨"KSQL_AGG_VARIABLE_1", .utf8, true⟩, ⟨"amount", .int32, true⟩])]⟩
  functions := ⟨[("SUM", .aggregate "SUM" .widened)]⟩
  config := {}

def salesTotal : Expr :=
  .call none "SUM" [.col "amount"] false

def salesQuery : Prepared where
  text := "SELECT KSQL_AGG_VARIABLE_1, SUM(amount) FROM sales " ++
    "GROUP BY KSQL_AGG_VARIABLE_1 HAVING SUM(amount) > 9"
  statement := .query {
    select := [.expr (.col "KSQL_AGG_VARIABLE_1") none, .expr salesTotal none]
    source := .table ⟨"sales", none, none⟩
    groupBy := [.col "KSQL_AGG_VARIABLE_1"]
    having := some (.compare none salesTotal .gt (.literal none (.integer 9))) }

def salesRows : Plan :=
  .source "sales" none ⟨[⟨some "sales", "KSQL_AGG_VARIABLE_1", .utf8⟩, ⟨some "sales", "amount", .int32⟩]⟩

def salesGroups : Plan :=
  .aggregate [.col "KSQL_AGG_VARIABLE_1"] [⟨salesTotal, "KSQL_AGG_VARIABLE_0"⟩] none salesRows
    ⟨salesRows.schema.fields ++ [⟨none, "KSQL_AGG_VARIABLE_0", .int64⟩]⟩

def salesPlan : Plan :=
  .project
    [(.col "KSQL_AGG_VARIABLE_1", "KSQL_AGG_VARIABLE_1"), (.col "KSQL_AGG_VARIABLE_0", "KSQL_COL_1")]
    (.filter (.compare none (.col "KSQL_AGG_VARIABLE_0") .gt (.literal none (.integer 9))) salesGroups
      salesGroups.schema)
    ⟨[⟨none, "KSQL_AGG_VARIABLE_1", .utf8⟩, ⟨none, "KSQL_COL_1", .int64⟩]⟩

theorem compileStatement_covered_sales :
    ∃ c, sales.config.foldConstants = false ∧ sales.compileStatement salesQuery = .ok c ∧
      salesGroups ∈ c.plan.operators ∧
      ∀ items above out, .project items above out ∈ c.plan.operators → ∀ item ∈ items,
        Plan.Covered [.col "KSQL_AGG_VARIABLE_1"] [⟨salesTotal, "KSQL_AGG_VARIABLE_0"⟩]
          salesRows.schema salesGroups.schema item.1 := by
  have hplan : (·.plan) <$> sales.compileStatement salesQuery = .ok salesPlan := by
    with_unfolding_all rfl
  obtain ⟨c, hc, hplan⟩ := map_eq_ok.mp hplan
  have hgroups : salesGroups ∈ c.plan.operators := by
    rw [hplan]
    simp [salesPlan, Plan.operators, salesGroups]
  exact ⟨c, rfl, hc, hgroups, (compileStatement_covered rfl hc hgroups).2.1⟩

end Planner

end StreamSql
