/-
  The stages of planning, each taken apart once: when it succeeds, and what operator it then puts on
  the plan so far. Everything that is known of a plan follows from these equivalences; no other
  module opens the stages. The last part says where the operators of a plan stand: those that read
  and filter rows at the bottom, those that hand the result on at the top.
-/
import StreamSql.Compile
import StreamSql.Proofs.Schema

namespace StreamSql.Planner

open Outcome

variable {p : Planner} {s : Analysis} {a : Aggregation} {input plan : Plan}

/-- Without folding, expressions are evaluated as they are. -/
theorem fold_eq_ok (hf : p.config.foldConstants = false) {e e' : Expr} :
    p.fold e = .ok e' ↔ e' = e := by
  unfold fold
  simp [hf, eq_comm]

/-! ## Rows -/

/-- The sources of a statement are one relation, or two that are joined. -/
theorem sources_eq_ok :
    p.sources s = .ok plan ↔
      (∃ one, s.sources = [one] ∧ s.join = none ∧ plan = sourcePlan one) ∨
      ∃ left right j, s.sources = [left, right] ∧ s.join = some j ∧
        p.joinPlan j left right = .ok plan := by
  unfold sources
  split
  · rename_i one hs hj
    simp [hs, hj, eq_comm]
  · rename_i left right j hs hj
    simp [hs, hj]
  · rename_i hone htwo
    constructor
    · intro h
      cases h
    · rintro (⟨one, hs, hj, _⟩ | ⟨left, right, j, hs, hj, _⟩)
      · exact absurd hj (hone one hs)
      · exact absurd hj (htwo left right j hs)

/-- A key has a place if it is a column of the sources. -/
theorem keyPlace_eq_ok {schema : Schema} {key : Expr} {i : Nat} :
    keyPlace schema key = .ok i ↔ ∃ f, schema.Finds key f i := by
  unfold keyPlace
  split
  · rename_i l c
    simp only [bind_eq_ok, pure_eq_ok]
    constructor
    · rintro ⟨⟨f, _⟩, hf, rfl⟩
      exact ⟨f, l, c, rfl, Schema.resolve_of_resolve hf⟩
    · rintro ⟨f, _, _, hkey, hf⟩
      cases hkey
      exact ⟨(f, i), hf _, rfl⟩
  · rename_i hcolumn
    constructor
    · intro h
      cases h
    · rintro ⟨f, l, c, rfl, _⟩
      exact absurd rfl (hcolumn l c)

/-- The criteria are an equality of two columns. -/
theorem keys_eq_ok {on x y : Expr} :
    keys on = .ok (x, y) ↔
      ∃ l, on = .compare l x .eq y ∧ x.column?.isSome = true ∧ y.column?.isSome = true := by
  unfold keys
  split
  · rename_i l x' y'
    by_cases hcolumns : (x'.column?.isSome && y'.column?.isSome) = true
    · simp only [hcolumns, if_true, Except.ok.injEq, Prod.mk.injEq, Expr.compare.injEq, true_and]
      rw [Bool.and_eq_true] at hcolumns
      constructor
      · rintro ⟨rfl, rfl⟩
        exact ⟨l, ⟨rfl, rfl, rfl⟩, hcolumns⟩
      · rintro ⟨_, ⟨_, rfl, rfl⟩, _⟩
        exact ⟨rfl, rfl⟩
    · simp only [hcolumns]
      rw [Bool.and_eq_true] at hcolumns
      constructor
      · intro h
        cases h
      · rintro ⟨_, h, hxy⟩
        cases h
        exact absurd hxy hcolumns
  · rename_i hform
    constructor
    · intro h
      cases h
    · rintro ⟨l, rfl, _⟩
      exact absurd rfl (hform l x y)

/-- The type of a column is that of its field. -/
theorem infer_of_finds {t : Typing} {schema : Schema} {e : Expr} {f : Field} {i : Nat}
    (h : schema.Finds e f i) (hlimit : 0 < t.limit) : t.infer schema e = .ok f.type := by
  obtain ⟨l, c, rfl, hc⟩ := h
  obtain ⟨n, hn⟩ := Nat.exists_eq_succ_of_ne_zero (Nat.ne_of_gt hlimit)
  simp [Typing.infer, hn, Typing.inferWithin, hc]

theorem depth_pos_of_infer {schema : Schema} {e : Expr} {type : DataType}
    (h : p.typing.infer schema e = .ok type) : 0 < p.config.maxDepth := by
  refine Nat.pos_of_ne_zero fun hzero => ?_
  rw [Typing.infer, typing, hzero] at h
  cases h

/-- Two sources are joined if the criteria equate a column of each, whichever comes first. -/
theorem joinPlan_eq_ok {j : JoinInfo} {left right : Source} :
    p.joinPlan j left right = .ok plan ↔
      0 < p.config.maxDepth ∧
      ∃ l leftKey rightKey f g i k,
        (j.criteria = .compare l leftKey .eq rightKey ∨
          j.criteria = .compare l rightKey .eq leftKey) ∧
        (left.schema.join right.schema).Finds leftKey f i ∧ i < left.schema.width ∧
        (left.schema.join right.schema).Finds rightKey g k ∧ left.schema.width ≤ k ∧
        f.type.matchesForEquality g.type = true ∧
        plan = .join j.type leftKey rightKey (sourcePlan left) (sourcePlan right)
          (left.schema.join right.schema) := by
  have hinfer : ∀ {schema e f i type}, Schema.Finds schema e f i →
      p.typing.infer schema e = .ok type → type = f.type := by
    intro schema e f i type hf h
    exact Except.ok.inj (h.symm.trans (infer_of_finds hf (depth_pos_of_infer h)))
  constructor
  · intro h
    simp only [joinPlan, bind_eq_ok, keyPlace_eq_ok] at h
    obtain ⟨⟨x, y⟩, hkeys, i, ⟨f, hf⟩, k, ⟨g, hg⟩, h⟩ := h
    obtain ⟨l, hcriteria, _⟩ := keys_eq_ok.mp hkeys
    -- the two sides as they are written, or exchanged
    split at h
    · rename_i hsides
      simp only [bind_eq_ok, guard_eq_ok, pure_eq_ok] at h
      obtain ⟨_, rfl, lt, hlt, rt, hrt, hmatch, rfl⟩ := h
      obtain rfl := hinfer hf hlt
      obtain rfl := hinfer hg hrt
      refine ⟨depth_pos_of_infer hlt, l, x, y, f, g, i, k, Or.inl hcriteria, hf, hsides.1, hg,
        hsides.2, ?_, rfl⟩
      simpa using hmatch
    · split at h
      · rename_i hsides
        simp only [bind_eq_ok, guard_eq_ok, pure_eq_ok] at h
        obtain ⟨_, rfl, lt, hlt, rt, hrt, hmatch, rfl⟩ := h
        obtain rfl := hinfer hg hlt
        obtain rfl := hinfer hf hrt
        refine ⟨depth_pos_of_infer hlt, l, y, x, g, f, k, i, Or.inr hcriteria, hg, hsides.2, hf,
          hsides.1, ?_, rfl⟩
        simpa using hmatch
      · cases h
  · rintro ⟨hpos, l, leftKey, rightKey, f, g, i, k, hcriteria, hf, hi, hg, hk, hmatch, rfl⟩
    have hleft := infer_of_finds (t := p.typing) hf hpos
    have hright := infer_of_finds (t := p.typing) hg hpos
    have hpf := keyPlace_eq_ok.mpr ⟨f, hf⟩
    have hpg := keyPlace_eq_ok.mpr ⟨g, hg⟩
    rcases hcriteria with hcriteria | hcriteria
    · have hkeys := keys_eq_ok.mpr ⟨l, hcriteria, hf.isSome_column?, hg.isSome_column?⟩
      simp [joinPlan, hkeys, hpf, hpg, hi, hk, hleft, hright, hmatch]
    · have hkeys := keys_eq_ok.mpr ⟨l, hcriteria, hg.isSome_column?, hf.isSome_column?⟩
      have hother : ¬(k < left.schema.width ∧ left.schema.width ≤ i) := by omega
      simp [joinPlan, hkeys, hpf, hpg, hi, hk, hleft, hright, hmatch, hother]

theorem join_of_joinPlan {j : JoinInfo} {left right : Source}
    (h : p.joinPlan j left right = .ok plan) :
    ∃ leftKey rightKey, plan = .join j.type leftKey rightKey (sourcePlan left) (sourcePlan right)
      (left.schema.join right.schema) := by
  obtain ⟨_, _, leftKey, rightKey, _, _, _, _, _, _, _, _, _, _, hplan⟩ := joinPlan_eq_ok.mp h
  exact ⟨leftKey, rightKey, hplan⟩

/-- The rows that a statement reads come from a relation or from the join of two. -/
theorem mem_operators_sources (h : p.sources s = .ok plan) {q : Plan} (hq : q ∈ plan.operators) :
    (∃ one, q = sourcePlan one) ∨
      p.sources s = .ok q ∧ ∃ left right j, s.sources = [left, right] ∧ s.join = some j ∧
        p.joinPlan j left right = .ok q := by
  rcases sources_eq_ok.mp h with ⟨one, _, _, rfl⟩ | ⟨left, right, j, hs, hj, hjoin⟩
  · exact Or.inl ⟨one, List.mem_singleton.mp hq⟩
  · obtain ⟨leftKey, rightKey, rfl⟩ := join_of_joinPlan hjoin
    rcases List.mem_cons.mp hq with rfl | hq
    · exact Or.inr ⟨h, left, right, j, hs, hj, hjoin⟩
    · rcases List.mem_append.mp hq with hq | hq
      · exact Or.inl ⟨left, List.mem_singleton.mp hq⟩
      · exact Or.inl ⟨right, List.mem_singleton.mp hq⟩

theorem filtered_eq_ok :
    p.filtered s input = .ok plan ↔
      (s.filter = none ∧ plan = input) ∨
      ∃ e e', s.filter = some e ∧ p.aggregates e = .ok false ∧
        p.typing.checkPredicate input.schema "WHERE" e = .ok () ∧ p.fold e = .ok e' ∧
        plan = .filter e' input input.schema := by
  unfold filtered
  cases hf : s.filter with
  | none => simp [eq_comm]
  | some e => simp [@eq_comm _ _ plan]

/-! ## Groups -/

/-- What grouping asks of the keys, of the expressions that are evaluated on groups and of the
    aggregate calls, and the operator that it gives. -/
theorem grouped_eq_ok :
    p.grouped s a input = .ok plan ↔
      (∀ key ∈ s.groupBy, p.aggregates key = .ok false ∧
        ∃ type, p.typing.infer input.schema key = .ok type) ∧
      ∃ places, keyColumns input.schema s.groupBy = .ok places ∧
        (∀ e ∈ a.final ++ a.having.toList,
          p.checkGrouped a input.schema s.groupBy places e = .ok ()) ∧
        ∃ results, List.Forall₂ (fun c f => ∃ type, p.typing.infer input.schema c.call = .ok type ∧
            (⟨none, c.column, type⟩ : Field) = f) a.calls results ∧
          plan = .aggregate s.groupBy a.calls s.window input
            ⟨input.schema.fields ++ results⟩ := by
  unfold grouped
  simp only [bind_eq_ok, pure_eq_ok, forM_eq_ok, mapM_eq_ok, @eq_comm _ _ plan]
  simp

theorem havingFiltered_eq_ok :
    p.havingFiltered a input = .ok plan ↔
      (a.having = none ∧ plan = input) ∨
      ∃ e, a.having = some e ∧ p.typing.checkPredicate input.schema "HAVING" e = .ok () ∧
        plan = .filter e input input.schema := by
  unfold havingFiltered
  cases hh : a.having with
  | none => simp [eq_comm]
  | some e => simp [@eq_comm _ _ plan]

/-! ## Results -/

theorem projected_eq_ok {exprs : List Expr} {names : List String} :
    p.projected exprs names input = .ok plan ↔
      exprs.length = names.length ∧
      ∃ columns : List ((Expr × String) × Field),
        List.Forall₂ (fun item column => ∃ type e', p.typing.infer input.schema item.1 = .ok type ∧
            p.fold item.1 = .ok e' ∧ ((e', item.2), ⟨none, item.2, type⟩) = column)
          (exprs.zip names) columns ∧
        plan = .project (columns.map (·.1)) input ⟨columns.map (·.2)⟩ := by
  unfold projected
  by_cases hlen : exprs.length = names.length
  · simp [hlen, mapM_eq_ok, @eq_comm _ _ plan]
  · simp [hlen]

theorem sunk_eq_ok :
    p.sunk s input = .ok plan ↔
      (s.sink = none ∧ plan = input) ∨
      (∃ kind name ps, s.sink = some (.create kind name ps) ∧
        plan = .sink name kind true ps input input.schema) ∨
      ∃ name target, s.sink = some (.insert name) ∧ p.catalog.lookup name = some target ∧
        checkInsert name input.schema target = .ok () ∧
        plan = .sink name .stream false [] input (.ofRelation name target) := by
  unfold sunk
  cases hs : s.sink with
  | none => simp [eq_comm]
  | some sink =>
      cases sink with
      | create kind name ps => simp [eq_comm]
      | insert name =>
          cases ht : p.catalog.lookup name with
          | none => simp [ht]
          | some target => simp [ht, @eq_comm _ _ plan]

/-! ## The whole plan -/

/-- The statement groups its rows: by keys, or because it calls an aggregate function. -/
def groups (s : Analysis) (a : Aggregation) : Bool :=
  a.hasAggregates || !s.groupBy.isEmpty

/-- A plan of a statement that groups its rows. -/
theorem build_eq_ok_of_groups (hg : groups s a = true) :
    p.build s a = .ok plan ↔
      ∃ base rows grouped filtered result, p.sources s = .ok base ∧ p.filtered s base = .ok rows ∧
        p.grouped s a rows = .ok grouped ∧ p.havingFiltered a grouped = .ok filtered ∧
        p.projected a.final s.names filtered = .ok result ∧
        p.sunk s (limited s result) = .ok plan := by
  unfold groups at hg
  unfold build
  simp [hg]

/-- A plan of a statement that does not. -/
theorem build_eq_ok_of_not_groups (hg : groups s a = false) :
    p.build s a = .ok plan ↔
      s.having = none ∧ s.window = none ∧
      ∃ base rows result, p.sources s = .ok base ∧ p.filtered s base = .ok rows ∧
        p.projected s.exprs s.names rows = .ok result ∧ p.sunk s (limited s result) = .ok plan := by
  unfold groups at hg
  unfold build
  cases hh : s.having with
  | none => cases hw : s.window <;> simp [hg]
  | some e => simp [hg]

theorem compileStatement_eq_ok {text : Prepared} {c : Compiled} :
    p.compileStatement text = .ok c ↔
      Analysis.ofStatement p.catalog p.config text.statement = .ok c.analysis ∧
      Aggregation.ofAnalysis p.functions p.config c.analysis = .ok c.aggregation ∧
      p.build c.analysis c.aggregation = .ok c.plan ∧ c.text = text.text := by
  have hstages : p.compileStatement text = .ok c ↔ p.stages text = .ok c := by
    unfold compileStatement
    cases p.stages text <;> simp
  rw [hstages]
  unfold stages
  simp only [bind_eq_ok, pure_eq_ok]
  constructor
  · rintro ⟨s, hs, a, ha, plan, hplan, rfl⟩
    exact ⟨hs, ha, hplan, rfl⟩
  · rintro ⟨hs, ha, hplan, ht⟩
    exact ⟨_, hs, _, ha, _, hplan, by rw [← ht]⟩

end StreamSql.Planner

namespace StreamSql.Plan

/-! ## Where the operators of a plan stand -/

theorem self_mem_operators (plan : Plan) : plan ∈ plan.operators := by
  cases plan <;> exact List.mem_cons_self

/-- The plan reads and filters rows and does nothing else. -/
inductive ReadsRows : Plan → Prop
  | source {name aliasName schema} : ReadsRows (.source name aliasName schema)
  | join {type lk rk l r schema} (left : ReadsRows l) (right : ReadsRows r) :
      ReadsRows (.join type lk rk l r schema)
  | filter {e input schema} (rows : ReadsRows input) : ReadsRows (.filter e input schema)

theorem ReadsRows.of_mem {plan q : Plan} (h : ReadsRows plan) (hq : q ∈ plan.operators) :
    ReadsRows q := by
  induction h with
  | source =>
      rw [List.mem_singleton.mp hq]
      exact .source
  | join left right ihl ihr =>
      simp only [operators, List.mem_cons, List.mem_append] at hq
      rcases hq with rfl | hq | hq
      · exact .join left right
      · exact ihl hq
      · exact ihr hq
  | filter rows ih =>
      simp only [operators, List.mem_cons] at hq
      rcases hq with rfl | hq
      · exact .filter rows
      · exact ih hq

/-- The operator hands its input on to where results go, whole or in part. -/
def delivers : Plan → Bool
  | limit _ _ _ | sink _ _ _ _ _ _ => true
  | _ => false

end StreamSql.Plan

namespace StreamSql.Planner

theorem readsRows_of_sources {p : Planner} {s : Analysis} {plan : Plan}
    (h : p.sources s = .ok plan) : Plan.ReadsRows plan := by
  rcases sources_eq_ok.mp h with ⟨one, _, _, rfl⟩ | ⟨left, right, j, _, _, h⟩
  · exact .source
  · obtain ⟨lk, rk, rfl⟩ := join_of_joinPlan h
    exact .join .source .source

theorem readsRows_of_filtered {p : Planner} {s : Analysis} {input plan : Plan}
    (hi : Plan.ReadsRows input) (h : p.filtered s input = .ok plan) : Plan.ReadsRows plan := by
  rcases filtered_eq_ok.mp h with ⟨_, rfl⟩ | ⟨_, _, _, _, _, _, rfl⟩
  · exact hi
  · exact .filter hi

/-- Above the result of a statement stand only operators that hand it on. -/
theorem mem_operators_sunk {p : Planner} {s : Analysis} {result plan q : Plan}
    (h : p.sunk s (limited s result) = .ok plan) (hq : q ∈ plan.operators) :
    q ∈ result.operators ∨ q.delivers = true := by
  have hlimited : ∀ q ∈ (limited s result).operators,
      q ∈ result.operators ∨ q.delivers = true := by
    intro q hq
    unfold limited at hq
    split at hq
    · exact Or.inl hq
    · rcases List.mem_cons.mp hq with rfl | hq
      · exact Or.inr rfl
      · exact Or.inl hq
  rcases sunk_eq_ok.mp h with ⟨_, rfl⟩ | ⟨_, _, _, _, rfl⟩ | ⟨_, _, _, _, _, rfl⟩
  · exact hlimited q hq
  all_goals
    rcases List.mem_cons.mp hq with rfl | hq
    · exact Or.inr rfl
    · exact hlimited q hq

/-- The operators of a result stay in the plan. -/
theorem mem_operators_of_result {p : Planner} {s : Analysis} {result plan q : Plan}
    (h : p.sunk s (limited s result) = .ok plan) (hq : q ∈ result.operators) :
    q ∈ plan.operators := by
  have hlimited : q ∈ (limited s result).operators := by
    unfold limited
    split
    · exact hq
    · exact List.mem_cons_of_mem _ hq
  rcases sunk_eq_ok.mp h with ⟨_, rfl⟩ | ⟨_, _, _, _, rfl⟩ | ⟨_, _, _, _, _, rfl⟩
  · exact hlimited
  all_goals exact List.mem_cons_of_mem _ hlimited

end StreamSql.Planner
