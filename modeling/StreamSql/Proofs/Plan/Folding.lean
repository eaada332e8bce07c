/-
  What folding changes in a plan. A planner that folds constants and one that does not give plans
  that differ in the conditions on rows and in the expressions of projections, and in nothing else
  (`Reworked`). Where the first succeeds, so does the second.

  The converse needs room. Folding writes a NULLIF as its case, which is a level higher, so an
  expression that every other walk goes through within the limit may be too deep for it. It is
  enough, and needed, that the expressions that are evaluated on rows and groups are within the limit
  once their NULLIFs are written out (`compileStatement_folding`).
-/
import StreamSql.Proofs.Expr.Folding
import StreamSql.Proofs.Plan.Layers

namespace StreamSql

open Outcome

/-! ## Plans that differ in what they evaluate -/

namespace Plan

variable {R : Expr → Expr → Prop} {input input' plan plan' : Plan}

/-- The same operators on other conditions on rows and other expressions in projections; `R` says
    what takes the place of what. A condition on groups, which stands above an aggregate, is the
    same. -/
inductive Reworked (R : Expr → Expr → Prop) : Plan → Plan → Prop
  | source {name aliasName schema} :
      Reworked R (.source name aliasName schema) (.source name aliasName schema)
  | join {type lk rk l r l' r' schema} (left : Reworked R l l') (right : Reworked R r r') :
      Reworked R (.join type lk rk l r schema) (.join type lk rk l' r' schema)
  | rows {e e' input input' schema} (reads : ReadsRows input) (condition : R e e')
      (below : Reworked R input input') :
      Reworked R (.filter e input schema) (.filter e' input' schema)
  | groups {e input input' schema} (reads : ¬ReadsRows input) (below : Reworked R input input') :
      Reworked R (.filter e input schema) (.filter e input' schema)
  | aggregate {keys calls window input input' schema} (below : Reworked R input input') :
      Reworked R (.aggregate keys calls window input schema)
        (.aggregate keys calls window input' schema)
  | project {items items' input input' schema}
      (columns : List.Forall₂ (fun i i' => R i.1 i'.1 ∧ i'.2 = i.2) items items')
      (below : Reworked R input input') :
      Reworked R (.project items input schema) (.project items' input' schema)
  | limit {n input input' schema} (below : Reworked R input input') :
      Reworked R (.limit n input schema) (.limit n input' schema)
  | sink {target kind creates ps input input' schema} (below : Reworked R input input') :
      Reworked R (.sink target kind creates ps input schema)
        (.sink target kind creates ps input' schema)

theorem Reworked.schema_eq (h : Reworked R plan plan') : plan'.schema = plan.schema := by
  cases h <;> rfl

theorem Reworked.readsRows_iff (h : Reworked R plan plan') : ReadsRows plan ↔ ReadsRows plan' := by
  induction h with
  | source => rfl
  | join _ _ ihl ihr =>
      constructor
      · rintro (_ | ⟨left, right⟩)
        exact .join (ihl.mp left) (ihr.mp right)
      · rintro (_ | ⟨left, right⟩)
        exact .join (ihl.mpr left) (ihr.mpr right)
  | rows _ _ _ ih | groups _ _ ih =>
      constructor
      · rintro ⟨⟩
        exact .filter (ih.mp ‹_›)
      · rintro ⟨⟩
        exact .filter (ih.mpr ‹_›)
  | _ => exact ⟨nofun, nofun⟩

theorem Reworked.flip (h : Reworked R plan plan') : Reworked (fun e e' => R e' e) plan' plan := by
  induction h with
  | source => exact .source
  | join _ _ ihl ihr => exact .join ihl ihr
  | rows reads condition below ih => exact .rows (below.readsRows_iff.mp reads) condition ih
  | groups reads below ih => exact .groups (mt below.readsRows_iff.mpr reads) ih
  | aggregate _ ih => exact .aggregate ih
  | project columns _ ih =>
      exact .project (columns.flip.imp fun _ _ hc => ⟨hc.1, hc.2.symm⟩) ih
  | limit _ ih => exact .limit ih
  | sink _ ih => exact .sink ih

end Plan

/-! ## Planners that differ in folding -/

namespace Planner

variable {p : Planner} {b : Bool} {s : Analysis} {a : Aggregation} {R : Expr → Expr → Prop}
  {input input' plan plan' : Plan}

/-- The planner with folding turned on or off. -/
def folding (p : Planner) (b : Bool) : Planner :=
  { p with config := { p.config with foldConstants := b } }

open Plan (Reworked ReadsRows)

theorem fold_folding_true {e : Expr} : (p.folding true).fold e = e.simplify p.config.maxDepth :=
  rfl

theorem fold_folding_false {e : Expr} : (p.folding false).fold e = .ok e :=
  rfl

theorem reworked_sources (h : p.sources s = .ok plan) : Reworked R plan plan := by
  rcases sources_eq_ok.mp h with ⟨one, _, _, rfl⟩ | ⟨left, right, j, _, _, h⟩
  · exact .source
  · obtain ⟨lk, rk, rfl⟩ := join_of_joinPlan h
    exact .join .source .source

theorem reworked_filtered (hin : ReadsRows input) (hi : Reworked R input input')
    (hfold : ∀ e e₀, s.filter = some e → p.fold e = .ok e₀ →
      ∃ e₁, (p.folding b).fold e = .ok e₁ ∧ R e₀ e₁)
    (h : p.filtered s input = .ok plan) :
    ∃ plan', (p.folding b).filtered s input' = .ok plan' ∧ Reworked R plan plan' := by
  rcases filtered_eq_ok.mp h with ⟨hnone, rfl⟩ | ⟨e, e₀, he, hagg, hcheck, hfe, rfl⟩
  · exact ⟨input', filtered_eq_ok.mpr (Or.inl ⟨hnone, rfl⟩), hi⟩
  · obtain ⟨e₁, hfe₁, hr⟩ := hfold e e₀ he hfe
    rw [← hi.schema_eq] at hcheck ⊢
    exact ⟨_, filtered_eq_ok.mpr (Or.inr ⟨e, e₁, he, hagg, hcheck, hfe₁, rfl⟩), .rows hin hr hi⟩

theorem reworked_grouped (hi : Reworked R input input') (h : p.grouped s a input = .ok plan) :
    ∃ plan', (p.folding b).grouped s a input' = .ok plan' ∧ Reworked R plan plan' := by
  obtain ⟨hkeys, places, hplaces, hchecks, results, hresults, rfl⟩ := grouped_eq_ok.mp h
  rw [← hi.schema_eq] at hkeys hplaces hchecks hresults ⊢
  exact ⟨_, grouped_eq_ok.mpr ⟨hkeys, places, hplaces, hchecks, results, hresults, rfl⟩,
    .aggregate hi⟩

theorem reworked_havingFiltered (hin : ¬ReadsRows input) (hi : Reworked R input input')
    (h : p.havingFiltered a input = .ok plan) :
    ∃ plan', (p.folding b).havingFiltered a input' = .ok plan' ∧ Reworked R plan plan' := by
  rcases havingFiltered_eq_ok.mp h with ⟨hnone, rfl⟩ | ⟨e, he, hcheck, rfl⟩
  · exact ⟨input', havingFiltered_eq_ok.mpr (Or.inl ⟨hnone, rfl⟩), hi⟩
  · rw [← hi.schema_eq] at hcheck ⊢
    exact ⟨_, havingFiltered_eq_ok.mpr (Or.inr ⟨e, he, hcheck, rfl⟩), .groups hin hi⟩

theorem reworked_projected {exprs : List Expr} {names : List String} (hi : Reworked R input input')
    (hfold : ∀ e ∈ exprs, ∀ e₀, p.fold e = .ok e₀ → ∃ e₁, (p.folding b).fold e = .ok e₁ ∧ R e₀ e₁)
    (h : p.projected exprs names input = .ok plan) :
    ∃ plan', (p.folding b).projected exprs names input' = .ok plan' ∧ Reworked R plan plan' := by
  obtain ⟨hlen, columns, hcolumns, rfl⟩ := projected_eq_ok.mp h
  obtain ⟨columns', hcolumns', hrel⟩ : ∃ columns' : List ((Expr × String) × Field),
      List.Forall₂ (fun item column => ∃ type e', p.typing.infer input.schema item.1 = .ok type ∧
        (p.folding b).fold item.1 = .ok e' ∧ ((e', item.2), ⟨none, item.2, type⟩) = column)
        (exprs.zip names) columns' ∧
      List.Forall₂ (fun column' column : (Expr × String) × Field =>
        (R column.1.1 column'.1.1 ∧ column'.1.2 = column.1.2) ∧ column'.2 = column.2)
        columns' columns := by
    have hself : List.Forall₂ (· = ·) (exprs.zip names) (exprs.zip names) := List.forall₂_refl _
    refine forall₂_lift hself hcolumns ?_
    rintro item _ _ hitem _ rfl ⟨type, e₀, htype, he₀, rfl⟩
    obtain ⟨e₁, he₁, hr⟩ := hfold item.1 (List.of_mem_zip hitem).1 e₀ he₀
    exact ⟨_, ⟨type, e₁, htype, he₁, rfl⟩, ⟨hr, rfl⟩, rfl⟩
  have hfields : columns'.map (·.2) = columns.map (·.2) := by
    rw [← List.forall₂_eq_eq_eq, List.forall₂_map_left_iff, List.forall₂_map_right_iff]
    exact hrel.imp fun _ _ hc => hc.2
  rw [← hi.schema_eq] at hcolumns'
  refine ⟨_, projected_eq_ok.mpr ⟨hlen, columns', hcolumns', rfl⟩, ?_⟩
  rw [hfields]
  refine .project ?_ hi
  rw [List.forall₂_map_left_iff, List.forall₂_map_right_iff]
  exact hrel.flip.imp fun _ _ hc => hc.1

theorem reworked_limited (hi : Reworked R input input') :
    Reworked R (limited s input) (limited s input') := by
  unfold limited
  cases s.limit with
  | none => exact hi
  | some n =>
      rw [hi.schema_eq]
      exact .limit hi

theorem reworked_sunk (hi : Reworked R input input') (h : p.sunk s input = .ok plan) :
    ∃ plan', (p.folding b).sunk s input' = .ok plan' ∧ Reworked R plan plan' := by
  rcases sunk_eq_ok.mp h with ⟨hs, rfl⟩ | ⟨kind, name, ps, hs, rfl⟩ | ⟨name, target, hs, ht, hc, rfl⟩
  · exact ⟨input', sunk_eq_ok.mpr (Or.inl ⟨hs, rfl⟩), hi⟩
  · rw [← hi.schema_eq]
    exact ⟨_, sunk_eq_ok.mpr (Or.inr (Or.inl ⟨kind, name, ps, hs, rfl⟩)), .sink hi⟩
  · rw [← hi.schema_eq] at hc
    exact ⟨_, sunk_eq_ok.mpr (Or.inr (Or.inr ⟨name, target, hs, ht, hc, rfl⟩)), .sink hi⟩

/-- The results of a statement as they are computed: from the columns of its groups, or from rows. -/
def results (s : Analysis) (a : Aggregation) : List Expr :=
  if groups s a then a.final else s.exprs

/-- What the results are computed from: the groups that the condition on groups keeps, or the rows. -/
def Keeps (p : Planner) (s : Analysis) (a : Aggregation) (rows kept : Plan) : Prop :=
  if groups s a then
    ∃ grouped, p.grouped s a rows = .ok grouped ∧ p.havingFiltered a grouped = .ok kept
  else s.having = none ∧ s.window = none ∧ kept = rows

/-- A plan that is built, with or without groups. -/
theorem build_eq_ok :
    p.build s a = .ok plan ↔
      ∃ base rows kept result, p.sources s = .ok base ∧ p.filtered s base = .ok rows ∧
        Keeps p s a rows kept ∧ p.projected (results s a) s.names kept = .ok result ∧
        p.sunk s (limited s result) = .ok plan := by
  cases hg : groups s a with
  | true =>
      simp only [build_eq_ok_of_groups hg, Keeps, results, hg, if_true]
      constructor
      · rintro ⟨base, rows, grouped, kept, result, hbase, hrows, hgrouped, hkept, h⟩
        exact ⟨base, rows, kept, result, hbase, hrows, ⟨grouped, hgrouped, hkept⟩, h⟩
      · rintro ⟨base, rows, kept, result, hbase, hrows, ⟨grouped, hgrouped, hkept⟩, h⟩
        exact ⟨base, rows, grouped, kept, result, hbase, hrows, hgrouped, hkept, h⟩
  | false =>
      simp only [build_eq_ok_of_not_groups hg, Keeps, results, hg, Bool.false_eq_true, if_false]
      constructor
      · rintro ⟨hhaving, hwindow, base, rows, result, hbase, hrows, h⟩
        exact ⟨base, rows, rows, result, hbase, hrows, ⟨hhaving, hwindow, rfl⟩, h⟩
      · rintro ⟨base, rows, kept, result, hbase, hrows, ⟨hhaving, hwindow, hkept⟩, h⟩
        subst hkept
        exact ⟨hhaving, hwindow, base, kept, result, hbase, hrows, h⟩

/-- The ways in which an operator comes into a plan, each with the stage that puts it there. -/
inductive Placed (p : Planner) (s : Analysis) (a : Aggregation) : Plan → Prop
  | base {base q} (sources : p.sources s = .ok base) (member : q ∈ base.operators) : Placed p s a q
  | rows {e e' input} (asked : s.filter = some e) (reads : ReadsRows input)
      (check : p.typing.checkPredicate input.schema "WHERE" e = .ok ()) (folded : p.fold e = .ok e') :
      Placed p s a (.filter e' input input.schema)
  | groups {rows q} (grouped : p.grouped s a rows = .ok q) : Placed p s a q
  | having {e input} (asked : a.having = some e) (groups : ¬ReadsRows input)
      (check : p.typing.checkPredicate input.schema "HAVING" e = .ok ()) :
      Placed p s a (.filter e input input.schema)
  | results {input q} (projected : p.projected (results s a) s.names input = .ok q) : Placed p s a q
  | delivery {q} (delivers : q.delivers = true) : Placed p s a q

/-- Grouped rows are not rows. -/
theorem not_readsRows_of_grouped {rows grouped : Plan} (h : p.grouped s a rows = .ok grouped) :
    ¬ReadsRows grouped := by
  obtain ⟨_, _, _, _, _, _, rfl⟩ := grouped_eq_ok.mp h
  intro hreads
  cases hreads

theorem placed_of_keeps {rows kept q : Plan} (hrows : ∀ q ∈ rows.operators, Placed p s a q)
    (h : Keeps p s a rows kept) (hq : q ∈ kept.operators) : Placed p s a q := by
  unfold Keeps at h
  split at h
  · obtain ⟨grouped, hgrouped, hkept⟩ := h
    have hgroups : ∀ q ∈ grouped.operators, Placed p s a q := by
      intro q hq
      obtain ⟨_, _, _, _, _, _, rfl⟩ := grouped_eq_ok.mp hgrouped
      rcases List.mem_cons.mp hq with rfl | hq
      · exact .groups hgrouped
      · exact hrows q hq
    rcases havingFiltered_eq_ok.mp hkept with ⟨_, rfl⟩ | ⟨e, he, hcheck, rfl⟩
    · exact hgroups q hq
    · rcases List.mem_cons.mp hq with rfl | hq
      · exact .having he (not_readsRows_of_grouped hgrouped) hcheck
      · exact hgroups q hq
  · obtain ⟨_, _, rfl⟩ := h
    exact hrows q hq

/-- Every operator of a plan was put there by a stage. -/
theorem placed_of_build {q : Plan} (h : p.build s a = .ok plan) (hq : q ∈ plan.operators) :
    Placed p s a q := by
  obtain ⟨base, rows, kept, result, hbase, hrows, hkept, hresult, hsunk⟩ := build_eq_ok.mp h
  have hplacedRows : ∀ q ∈ rows.operators, Placed p s a q := by
    intro q hq
    rcases filtered_eq_ok.mp hrows with ⟨_, rfl⟩ | ⟨e, e', he, _, hcheck, hfold, rfl⟩
    · exact .base hbase hq
    · rcases List.mem_cons.mp hq with rfl | hq
      · exact .rows he (readsRows_of_sources hbase) hcheck hfold
      · exact .base hbase hq
  rcases mem_operators_sunk hsunk hq with hq | hdelivers
  · obtain ⟨_, columns, _, rfl⟩ := projected_eq_ok.mp hresult
    rcases List.mem_cons.mp hq with rfl | hq
    · exact .results hresult
    · exact placed_of_keeps hplacedRows hkept hq
  · exact .delivery hdelivers

/-- What the results are computed from stays in the plan. -/
theorem mem_operators_of_kept {kept result q : Plan} {exprs : List Expr} {names : List String}
    (hresult : p.projected exprs names kept = .ok result)
    (hsunk : p.sunk s (limited s result) = .ok plan) (hq : q ∈ kept.operators) :
    q ∈ plan.operators := by
  apply mem_operators_of_result hsunk
  obtain ⟨_, _, _, rfl⟩ := projected_eq_ok.mp hresult
  exact List.mem_cons_of_mem _ hq

/-- The rows that a plan starts from stay in it. -/
theorem sources_of_build (h : p.build s a = .ok plan) :
    ∃ base, p.sources s = .ok base ∧ base ∈ plan.operators := by
  obtain ⟨base, rows, kept, result, hbase, hrows, hkeeps, hresult, hsunk⟩ := build_eq_ok.mp h
  refine ⟨base, hbase, mem_operators_of_kept hresult hsunk ?_⟩
  have hfiltered : base ∈ rows.operators := by
    rcases filtered_eq_ok.mp hrows with ⟨_, rfl⟩ | ⟨_, _, _, _, _, _, rfl⟩
    · exact rows.self_mem_operators
    · exact List.mem_cons_of_mem _ base.self_mem_operators
  unfold Keeps at hkeeps
  split at hkeeps
  · obtain ⟨grouped, hgrouped, hhaving⟩ := hkeeps
    obtain ⟨_, _, _, _, _, _, rfl⟩ := grouped_eq_ok.mp hgrouped
    rcases havingFiltered_eq_ok.mp hhaving with ⟨_, rfl⟩ | ⟨_, _, _, rfl⟩
    · exact List.mem_cons_of_mem _ hfiltered
    · exact List.mem_cons_of_mem _ (List.mem_cons_of_mem _ hfiltered)
  · obtain ⟨_, _, rfl⟩ := hkeeps
    exact hfiltered

theorem reworked_keeps {rows rows' kept : Plan} (hi : Reworked R rows rows')
    (h : Keeps p s a rows kept) :
    ∃ kept', Keeps (p.folding b) s a rows' kept' ∧ Reworked R kept kept' := by
  unfold Keeps at h
  by_cases hg : groups s a = true
  · rw [if_pos hg] at h
    obtain ⟨grouped, hgrouped, hkept⟩ := h
    have hgroups := not_readsRows_of_grouped hgrouped
    obtain ⟨grouped', hgrouped', hr⟩ := reworked_grouped (b := b) hi hgrouped
    obtain ⟨kept', hkept', hr⟩ := reworked_havingFiltered (b := b) hgroups hr hkept
    refine ⟨kept', ?_, hr⟩
    rw [Keeps, if_pos hg]
    exact ⟨grouped', hgrouped', hkept'⟩
  · rw [if_neg hg] at h
    obtain ⟨hhaving, hwindow, rfl⟩ := h
    refine ⟨rows', ?_, hi⟩
    rw [Keeps, if_neg hg]
    exact ⟨hhaving, hwindow, rfl⟩

/-- The expressions of a plan that are folded: the condition on rows and the results. -/
def evaluated (s : Analysis) (a : Aggregation) : List Expr :=
  s.filter.toList ++ results s a

/-- A plan that is built can be built with folding the other way, if what is evaluated can be folded
    that way. -/
theorem reworked_build
    (hfold : ∀ e ∈ evaluated s a, ∀ e₀, p.fold e = .ok e₀ →
      ∃ e₁, (p.folding b).fold e = .ok e₁ ∧ R e₀ e₁)
    (h : p.build s a = .ok plan) :
    ∃ plan', (p.folding b).build s a = .ok plan' ∧ Reworked R plan plan' := by
  obtain ⟨base, rows, kept, result, hbase, hrows, hkept, hresult, hsunk⟩ := build_eq_ok.mp h
  obtain ⟨rows', hrows', hr⟩ := reworked_filtered (readsRows_of_sources hbase)
    (reworked_sources hbase)
    (fun e e₀ he => hfold e (List.mem_append_left _ (by simp [he])) e₀) hrows
  obtain ⟨kept', hkept', hr⟩ := reworked_keeps (b := b) hr hkept
  obtain ⟨result', hresult', hr⟩ := reworked_projected hr
    (fun e he => hfold e (List.mem_append_right _ he)) hresult
  obtain ⟨plan', hplan', hr⟩ := reworked_sunk (b := b) (reworked_limited hr) hsunk
  exact ⟨plan', build_eq_ok.mpr ⟨base, rows', kept', result', hbase, hrows', hkept', hresult',
    hplan'⟩, hr⟩

/-- In a plan that is built everything that is evaluated has a type and was folded. -/
theorem exists_fold_of_build (h : p.build s a = .ok plan) {e : Expr} (he : e ∈ evaluated s a) :
    (∃ schema type, p.typing.infer schema e = .ok type) ∧ ∃ e', p.fold e = .ok e' := by
  obtain ⟨base, rows, kept, result, _, hrows, _, hresult, _⟩ := build_eq_ok.mp h
  rcases List.mem_append.mp he with he | he
  · rcases filtered_eq_ok.mp hrows with ⟨hnone, _⟩ | ⟨c, c', hc, _, hcheck, hfold, _⟩
    · simp [hnone] at he
    · rw [hc, Option.toList_some, List.mem_singleton] at he
      obtain ⟨type, htype, _⟩ := Typing.checkPredicate_eq_ok.mp hcheck
      subst he
      exact ⟨⟨base.schema, type, htype⟩, c', hfold⟩
  · obtain ⟨hlen, columns, hcolumns, _⟩ := projected_eq_ok.mp hresult
    rw [← List.map_fst_zip (Nat.le_of_eq hlen), List.mem_map] at he
    obtain ⟨item, hitem, rfl⟩ := he
    obtain ⟨_, _, type, e', htype, hfold, _⟩ := exists_right hcolumns hitem
    exact ⟨⟨kept.schema, type, htype⟩, e', hfold⟩

/-- The plan without folding, where the one with folding is built. -/
theorem exists_unfolded (h : (p.folding true).build s a = .ok plan') :
    ∃ plan, (p.folding false).build s a = .ok plan ∧
      Reworked (fun e e' => e.simplify p.config.maxDepth = .ok e') plan plan' := by
  obtain ⟨plan, hplan, hr⟩ : ∃ plan, (p.folding false).build s a = .ok plan ∧
      Reworked (fun e' e => e.simplify p.config.maxDepth = .ok e') plan' plan :=
    reworked_build (p := p.folding true) (fun e _ e' he' => ⟨e, fold_folding_false, he'⟩) h
  exact ⟨plan, hplan, hr.flip⟩

/-- The plan with folding, where the one without is built and folding has room. -/
theorem exists_folded (h : (p.folding false).build s a = .ok plan)
    (hlevels : ∀ e ∈ evaluated s a, e.levels ≤ p.config.maxDepth) :
    ∃ plan', (p.folding true).build s a = .ok plan' := by
  obtain ⟨plan', hplan', _⟩ : ∃ plan', (p.folding true).build s a = .ok plan' ∧
      Reworked (fun _ _ => True) plan plan' := by
    refine reworked_build (p := p.folding false) (fun e he _ _ => ?_) h
    obtain ⟨e', he'⟩ := Expr.exists_simplify_iff.mpr (hlevels e he)
    exact ⟨e', fold_folding_true.trans he', trivial⟩
  exact ⟨plan', hplan'⟩

/-! ## Statements -/

/-- Folding has no part in the analysis of a statement. -/
theorem compileStatement_folding_eq_ok {text : Prepared} {c : Compiled} :
    (p.folding b).compileStatement text = .ok c ↔
      Analysis.ofStatement p.catalog p.config text.statement = .ok c.analysis ∧
      Aggregation.ofAnalysis p.functions p.config c.analysis = .ok c.aggregation ∧
      (p.folding b).build c.analysis c.aggregation = .ok c.plan ∧ c.text = text.text :=
  compileStatement_eq_ok

/-- What is evaluated is within the limit that every walk keeps. -/
theorem height_of_evaluated {st : Statement} (hdepth : 0 < p.config.maxDepth)
    (hs : Analysis.ofStatement p.catalog p.config st = .ok s)
    (ha : Aggregation.ofAnalysis p.functions p.config s = .ok a) {e : Expr}
    (he : e ∈ evaluated s a) : e.height ≤ p.config.maxDepth := by
  rcases List.mem_append.mp he with he | he
  · obtain ⟨_, _, hfilter, _⟩ := Analysis.ofStatement_eq_ok.mp hs
    rw [Option.mem_toList.mp he] at hfilter
    generalize st.body.filter = o at hfilter
    cases hfilter with
    | some hr => exact Analysis.height_of_resolved hr
  · unfold results at he
    split at he
    · obtain ⟨c, _, hr⟩ := exists_left (Aggregation.complete_of_ofAnalysis ha).final he
      exact Aggregation.height_of_rewritten hr
    · exact (Analysis.known_of_ofStatement hs hdepth (List.mem_append_left _ he)).1

/-- Folding changes the conditions on rows and the results of a plan and nothing else, and where it
    is turned on nothing is planned that could not be planned without. A statement that is planned
    without folding is planned with it exactly if what is evaluated stays within the limit once
    NULLIF is written as its case. -/
theorem compileStatement_folding (p : Planner) (text : Prepared) :
    (∀ c', (p.folding true).compileStatement text = .ok c' →
      ∃ c, (p.folding false).compileStatement text = .ok c ∧ c'.text = c.text ∧
        c'.analysis = c.analysis ∧ c'.aggregation = c.aggregation ∧
        Reworked (fun e e' => e.simplify p.config.maxDepth = .ok e') c.plan c'.plan) ∧
    ∀ c, (p.folding false).compileStatement text = .ok c →
      ((∃ c', (p.folding true).compileStatement text = .ok c') ↔
        ∀ e ∈ evaluated c.analysis c.aggregation, e.levels ≤ p.config.maxDepth) ∧
      ((∀ e ∈ evaluated c.analysis c.aggregation, ∀ l x y, ¬Expr.Within (.nullIf l x y) e) →
        ∃ c', (p.folding true).compileStatement text = .ok c') := by
  have hroom : ∀ c, (p.folding false).compileStatement text = .ok c →
      (∀ e ∈ evaluated c.analysis c.aggregation, e.levels ≤ p.config.maxDepth) →
      ∃ c', (p.folding true).compileStatement text = .ok c' := by
    intro c hc hlevels
    obtain ⟨hs, ha, hb, ht⟩ := compileStatement_folding_eq_ok.mp hc
    obtain ⟨plan', hb'⟩ := exists_folded hb hlevels
    exact ⟨{ c with plan := plan' }, compileStatement_folding_eq_ok.mpr ⟨hs, ha, hb', ht⟩⟩
  refine ⟨fun c' hc' => ?_, fun c hc => ⟨⟨?_, hroom c hc⟩, fun hplain => hroom c hc fun e he => ?_⟩⟩
  · obtain ⟨hs, ha, hb', ht⟩ := compileStatement_folding_eq_ok.mp hc'
    obtain ⟨plan, hb, hr⟩ := exists_unfolded hb'
    exact ⟨{ c' with plan := plan }, compileStatement_folding_eq_ok.mpr ⟨hs, ha, hb, ht⟩, rfl, rfl,
      rfl, hr⟩
  · rintro ⟨c', hc'⟩ e he
    obtain ⟨hs, ha, _, _⟩ := compileStatement_folding_eq_ok.mp hc
    obtain ⟨hs', ha', hb', _⟩ := compileStatement_folding_eq_ok.mp hc'
    rw [Except.ok.inj (hs.symm.trans hs')] at ha he
    rw [Except.ok.inj (ha.symm.trans ha')] at he
    exact Expr.exists_simplify_iff.mp (exists_fold_of_build hb' he).2
  · obtain ⟨hs, ha, hb, _⟩ := compileStatement_folding_eq_ok.mp hc
    obtain ⟨⟨schema, type, htype⟩, _⟩ := exists_fold_of_build hb he
    rw [Expr.levels_le_iff (hplain e he)]
    exact height_of_evaluated (depth_pos_of_infer htype) hs ha he

/-- Readings of sensors, planned within a depth. -/
def readings (depth : Nat) : Planner where
  catalog := ⟨[("readings", [⟨"sensor", .utf8, true⟩, ⟨"level", .int32, true⟩])]⟩
  functions := ⟨[]⟩
  config := { maxDepth := depth }

def constantSum (x y : Int32) : Expr :=
  .arith none (.lit (.integer x)) .add (.lit (.integer y))

/-- Two sums of constants, one of them in a NULLIF. -/
def readingsQuery : Prepared where
  text := "SELECT NULLIF(level, 1 + 1) AS known FROM readings WHERE level > 1 + 2"
  statement := .query {
    select := [.expr (.nullIf none (.col "level") (constantSum 1 1)) (some "known")]
    source := .table ⟨"readings", none, none⟩
    filter := some (.compare none (.col "level") .gt (constantSum 1 2)) }

/-- The case and the condition that folding leaves of the query. -/
def readingsFolded : List Expr :=
  [.searchedCase [(.compare none (.col "level") .eq (.lit (.integer 2)), .null)] (some (.col "level")),
    .compare none (.col "level") .gt (.lit (.integer 3))]

/-- The expressions that the operators of a plan evaluate. -/
def expressions : Plan → List Expr
  | .filter e _ _ => [e]
  | .project items _ _ => items.map (·.1)
  | _ => []

theorem compileStatement_folding_readings :
    ∃ c c', ((readings 4).folding false).compileStatement readingsQuery = .ok c ∧
      ((readings 4).folding true).compileStatement readingsQuery = .ok c' ∧
      c'.plan.operators.flatMap expressions = readingsFolded ∧
      Reworked (fun e e' => e.simplify 4 = .ok e') c.plan c'.plan := by
  have hview : (fun c => c.plan.operators.flatMap expressions) <$>
      ((readings 4).folding true).compileStatement readingsQuery = .ok readingsFolded := rfl
  obtain ⟨c', hc', hview⟩ := map_eq_ok.mp hview
  obtain ⟨c, hc, _, _, _, hr⟩ := (compileStatement_folding (readings 4) readingsQuery).1 c' hc'
  exact ⟨c, c', hc, hc', hview, hr⟩

/-- With one level less every walk but that of folding ends. -/
theorem exists_too_deep_to_fold :
    ∃ (p : Planner) (text : Prepared) (c : Compiled), Config.validate p.config = .ok p.config ∧
      (p.folding false).compileStatement text = .ok c ∧
      (∀ e ∈ evaluated c.analysis c.aggregation, e.height ≤ p.config.maxDepth) ∧
      (p.folding true).compileStatement text =
        .error (Error.inStatement text.text (.tooDeep p.config.maxDepth)) := by
  have hview : (fun c => (evaluated c.analysis c.aggregation).map Expr.height) <$>
      ((readings 3).folding false).compileStatement readingsQuery = .ok [3, 3] := rfl
  obtain ⟨c, hc, hview⟩ := map_eq_ok.mp hview
  refine ⟨readings 3, readingsQuery, c, rfl, hc, fun e he => ?_, rfl⟩
  have hheight : e.height ∈ [3, 3] := hview ▸ List.mem_map_of_mem he
  simp only [List.mem_cons, List.not_mem_nil, or_false, or_self] at hheight
  exact Nat.le_of_eq hheight

end Planner

end StreamSql
