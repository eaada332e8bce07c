/-
  What a planner that folds constants leaves to be evaluated. The condition on rows and the results of
  a statement are simplified on their way into the plan, and one pass is enough
  (`Expr.simplify_again`). The condition on groups is not: it comes into the plan as it is once its
  aggregate calls are columns. So all that a plan evaluates is reduced exactly if that condition was
  reduced from the start (`compileStatement_reduced`).
-/
import StreamSql.Proofs.Expr.Reduced
import StreamSql.Proofs.Plan.Folding

namespace StreamSql.Planner

open Outcome
open Plan (ReadsRows)

variable {p : Planner} {s : Analysis} {a : Aggregation} {plan q input : Plan} {e e' : Expr}

/-- What was folded is not changed by folding it again. -/
theorem simplify_of_fold (hf : p.config.foldConstants = true) (h : p.fold e = .ok e') :
    e'.simplify p.config.maxDepth = .ok e' := by
  unfold fold at h
  rw [hf, if_pos rfl] at h
  exact Expr.simplify_again h

/-! ## Operators -/

theorem simplify_of_projected (hf : p.config.foldConstants = true) {exprs : List Expr}
    {names : List String} (h : p.projected exprs names input = .ok q) (he : e ∈ expressions q) :
    e.simplify p.config.maxDepth = .ok e := by
  obtain ⟨_, columns, hcolumns, rfl⟩ := projected_eq_ok.mp h
  simp only [expressions, List.map_map, List.mem_map] at he
  obtain ⟨column, hcolumn, rfl⟩ := he
  obtain ⟨item, _, type, e', _, hfold, rfl⟩ := exists_left hcolumns hcolumn
  exact simplify_of_fold hf hfold

/-- An operator evaluates what was simplified, or it is the condition on groups. -/
theorem simplify_of_placed (hf : p.config.foldConstants = true) (hq : Placed p s a q)
    (he : e ∈ expressions q) :
    e.simplify p.config.maxDepth = .ok e ∨
      a.having = some e ∧ ∃ input, q = .filter e input input.schema ∧ ¬ReadsRows input := by
  cases hq with
  | base sources member =>
      rcases mem_operators_sources sources member with ⟨one, rfl⟩ | ⟨_, _, _, _, _, _, hjoin⟩
      · cases he
      · obtain ⟨leftKey, rightKey, rfl⟩ := join_of_joinPlan hjoin
        cases he
  | rows asked reads check folded =>
      rw [List.mem_singleton.mp he]
      exact Or.inl (simplify_of_fold hf folded)
  | groups grouped =>
      obtain ⟨_, _, _, _, _, _, rfl⟩ := grouped_eq_ok.mp grouped
      cases he
  | having asked groups check =>
      rw [List.mem_singleton.mp he]
      exact Or.inr ⟨asked, _, rfl, groups⟩
  | results projected => exact Or.inl (simplify_of_projected hf projected he)
  | delivery delivers =>
      cases q with
      | limit | sink => cases he
      | _ => cases delivers

/-- A condition on anything but rows is the condition on groups. -/
theorem having_of_placed {schema : Schema} (hq : Placed p s a (.filter e input schema))
    (hgroups : ¬ReadsRows input) : a.having = some e := by
  cases hq with
  | base sources member =>
      have hreads := (readsRows_of_sources sources).of_mem member
      cases hreads with
      | filter rows => exact absurd rows hgroups
  | rows asked reads check folded => exact absurd reads hgroups
  | groups grouped =>
      obtain ⟨_, _, _, _, _, _, hplan⟩ := grouped_eq_ok.mp grouped
      cases hplan
  | having asked groups check => exact asked
  | results projected =>
      obtain ⟨_, _, _, hplan⟩ := projected_eq_ok.mp projected
      cases hplan
  | delivery delivers => cases delivers

/-- The condition on groups has its place in the plan. -/
theorem exists_filter_of_having (h : p.build s a = .ok plan) (hhaving : a.having = some e)
    (hasked : s.having ≠ none) : ∃ q ∈ plan.operators, e ∈ expressions q := by
  obtain ⟨base, rows, kept, result, _, _, hkeeps, hresult, hsunk⟩ := build_eq_ok.mp h
  refine ⟨kept, mem_operators_of_kept hresult hsunk kept.self_mem_operators, ?_⟩
  unfold Keeps at hkeeps
  split at hkeeps
  · obtain ⟨grouped, _, hfiltered⟩ := hkeeps
    rcases havingFiltered_eq_ok.mp hfiltered with ⟨hnone, _⟩ | ⟨e', he', _, rfl⟩
    · rw [hhaving] at hnone
      cases hnone
    · rw [hhaving] at he'
      cases he'
      exact List.mem_singleton.mpr rfl
  · exact absurd hkeeps.1 hasked

/-! ## Statements -/

/-- With folding, the results of a statement and its condition on rows are what simplifying them
    again gives. Its condition on groups is taken over as it is, so it is what simplifying it gives
    only if it was reduced before; and this decides whether the whole plan is. -/
theorem compileStatement_reduced {text : Prepared} {c : Compiled}
    (hf : p.config.foldConstants = true) (hc : p.compileStatement text = .ok c) :
    (∀ items input schema, .project items input schema ∈ c.plan.operators →
      ∀ item ∈ items, item.1.simplify p.config.maxDepth = .ok item.1) ∧
    (∀ e input schema, .filter e input schema ∈ c.plan.operators → ReadsRows input →
      e.simplify p.config.maxDepth = .ok e) ∧
    (∀ e input schema, .filter e input schema ∈ c.plan.operators → ¬ReadsRows input →
      c.aggregation.having = some e ∧ (e.simplify p.config.maxDepth = .ok e ↔ e.Reduced)) ∧
    ((∀ q ∈ c.plan.operators, ∀ e ∈ expressions q, e.simplify p.config.maxDepth = .ok e) ↔
      ∀ e ∈ c.aggregation.having, e.Reduced) := by
  obtain ⟨hs, ha, hb, _⟩ := compileStatement_eq_ok.mp hc
  have hcomplete := Aggregation.complete_of_ofAnalysis ha
  have hreduced : ∀ e, c.aggregation.having = some e →
      (e.simplify p.config.maxDepth = .ok e ↔ e.Reduced) := by
    intro e he
    obtain ⟨_, _, hrewritten⟩ :=
      exists_left (forall₂_toList hcomplete.having) (Option.mem_toList.mpr he)
    rw [Expr.simplify_eq_self_iff]
    exact and_iff_left (Aggregation.height_of_rewritten hrewritten)
  refine ⟨fun items input schema hq item hitem => ?_, fun e input schema hq hreads => ?_,
    fun e input schema hq hgroups => ?_, ⟨fun hall e he => ?_, fun hall q hq e he => ?_⟩⟩
  · rcases simplify_of_placed hf (placed_of_build hb hq) (List.mem_map_of_mem hitem) with
      h | ⟨_, _, h, _⟩
    · exact h
    · cases h
  · rcases simplify_of_placed hf (placed_of_build hb hq) (List.mem_singleton.mpr rfl) with
      h | ⟨_, _, h, hgroups⟩
    · exact h
    · cases h
      exact absurd hreads hgroups
  · have he := having_of_placed (placed_of_build hb hq) hgroups
    exact ⟨he, hreduced e he⟩
  · have hasked : c.analysis.having ≠ none := by
      rw [ne_none_of_rel hcomplete.having, he]
      exact Option.some_ne_none e
    obtain ⟨q, hq, heq⟩ := exists_filter_of_having hb he hasked
    exact (hreduced e he).mp (hall q hq e heq)
  · rcases simplify_of_placed hf (placed_of_build hb hq) he with h | ⟨hhaving, _⟩
    · exact h
    · exact (hreduced e hhaving).mpr (hall e hhaving)

/-- Sales by region, planned with folding. -/
def regions : Planner where
  catalog := ⟨[("sales", [⟨"region", .utf8, true⟩, ⟨"amount", .int32, true⟩])]⟩
  functions := ⟨[("SUM", .aggregate "SUM" .widened)]⟩
  config := { maxDepth := 8, foldConstants := true }

def regionTotal : Expr :=
  .call none "SUM" [.col "amount"] false

/-- The regions whose total is above a bound, with sums of constants elsewhere. -/
def regionTotals (written : String) (bound : Expr) : Prepared where
  text := "SELECT region, SUM(amount) + (1 + 1) AS total FROM sales WHERE amount > 1 + 2 " ++
    "GROUP BY region HAVING SUM(amount) > " ++ written
  statement := .query {
    select := [.expr (.col "region") none,
      .expr (.arith none regionTotal .add (constantSum 1 1)) (some "total")]
    source := .table ⟨"sales", none, none⟩
    filter := some (.compare none (.col "amount") .gt (constantSum 1 2))
    groupBy := [.col "region"]
    having := some (.compare none regionTotal .gt bound) }

/-- What the plan evaluates, from the results down; the bound is as it was written. -/
def regionExpressions (bound : Expr) : List Expr :=
  [.col "region", .arith none (.col "KSQL_AGG_VARIABLE_0") .add (.lit (.integer 2)),
    .compare none (.col "KSQL_AGG_VARIABLE_0") .gt bound,
    .compare none (.col "amount") .gt (.lit (.integer 3))]

theorem compileStatement_reduced_regions :
    ∃ c, regions.config.foldConstants = true ∧
      regions.compileStatement (regionTotals "2" (.lit (.integer 2))) = .ok c ∧
      c.plan.operators.flatMap expressions = regionExpressions (.lit (.integer 2)) ∧
      (∀ e ∈ c.aggregation.having, e.Reduced) ∧
      ∀ q ∈ c.plan.operators, ∀ e ∈ expressions q, e.simplify 8 = .ok e := by
  have hview : (fun c => (c.plan.operators.flatMap expressions, c.aggregation.having)) <$>
      regions.compileStatement (regionTotals "2" (.lit (.integer 2))) =
      .ok (regionExpressions (.lit (.integer 2)),
        some (.compare none (.col "KSQL_AGG_VARIABLE_0") .gt (.lit (.integer 2)))) := by
    with_unfolding_all rfl
  obtain ⟨c, hc, hview⟩ := map_eq_ok.mp hview
  simp only [Prod.mk.injEq] at hview
  have hhaving : ∀ e ∈ c.aggregation.having, e.Reduced := by
    intro e he
    rw [hview.2] at he
    cases he
    have hself : (Expr.compare none (.col "KSQL_AGG_VARIABLE_0") .gt (.lit (.integer 2))).simplify 8 =
        .ok (.compare none (.col "KSQL_AGG_VARIABLE_0") .gt (.lit (.integer 2))) := rfl
    exact (Expr.simplify_eq_self_iff.mp hself).1
  exact ⟨c, rfl, hc, hview.1, hhaving, (compileStatement_reduced rfl hc).2.2.2.mpr hhaving⟩

/-- A sum of constants in the condition on groups is still there in the plan. -/
theorem exists_condition_not_folded :
    ∃ (p : Planner) (text : Prepared) (c : Compiled) (e : Expr),
      Config.validate p.config = .ok p.config ∧ p.config.foldConstants = true ∧
      p.compileStatement text = .ok c ∧
      e ∈ c.plan.operators.flatMap expressions ∧ e.simplify p.config.maxDepth ≠ .ok e := by
  have hview : (fun c => c.plan.operators.flatMap expressions) <$>
      regions.compileStatement (regionTotals "1 + 1" (constantSum 1 1)) =
      .ok (regionExpressions (constantSum 1 1)) := by with_unfolding_all rfl
  obtain ⟨c, hc, hview⟩ := map_eq_ok.mp hview
  refine ⟨regions, regionTotals "1 + 1" (constantSum 1 1), c,
    .compare none (.col "KSQL_AGG_VARIABLE_0") .gt (constantSum 1 1), rfl, rfl, hc, ?_, ?_⟩
  · rw [hview]
    exact List.mem_cons_of_mem _ (List.mem_cons_of_mem _ List.mem_cons_self)
  · have hfolded : (Expr.compare none (.col "KSQL_AGG_VARIABLE_0") .gt (constantSum 1 1)).simplify 8 =
        .ok (.compare none (.col "KSQL_AGG_VARIABLE_0") .gt (.lit (.integer 2))) := rfl
    intro hself
    cases hfolded.symm.trans hself

end StreamSql.Planner
