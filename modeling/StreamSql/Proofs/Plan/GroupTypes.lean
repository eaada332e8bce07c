/-
  Types before and after grouping. What is evaluated on groups is not what the statement says: each
  aggregate call has become the column of its result, and the schema has grown by these columns. It
  has the type that the statement's own expression has over the input (`compileStatement_types`).

  The argument follows the rewriting. A column that was there before is answered by a field of the
  input, so the longer schema, which finds one field only, finds that one. A column that stands for a
  call has the type of the call that is recorded for it, and that is this call, positions apart.
  Every other node has the same kind and parts of the same types.
-/
import StreamSql.Proofs.Plan.Layers

namespace StreamSql

open Outcome Aggregation

/-! ## Rewritten expressions -/

namespace Aggregation

variable {functions : Registry} {a : Aggregation} {limit n : Nat} {e e' : Expr}

/-- A `*` stays a `*`, and nothing becomes one. -/
theorem isWildcard_of_rewritten
    (h : Expr.replaceWithin limit (columnOf functions a) n e = .ok e') :
    e.isWildcard = e'.isWildcard := by
  cases n with
  | zero => cases h
  | succ n =>
      rcases rewritten_iff.mp h with ⟨hcall, _, _, rfl⟩ | ⟨_, hparts⟩
      · cases e with
        | wildcard => cases hcall
        | _ => rfl
      · cases hparts <;> rfl

/-- The calls of an expression are those that its columns are recorded for. -/
def Recorded (functions : Registry) (a : Aggregation) (e : Expr) : Prop :=
  ∀ c, Outermost functions c e → ∀ entry ∈ a.calls, a.columnFor? c = some entry.column →
    entry.call.same c = true

/-- The calls of an expression have the types of those that their columns are recorded for. -/
def KeepsTypes (t : Typing) (input : Schema) (functions : Registry) (a : Aggregation) (e : Expr) :
    Prop :=
  ∀ c, Outermost functions c e → ∀ entry ∈ a.calls, a.columnFor? c = some entry.column →
    ∀ type, t.infer input entry.call = .ok type → t.infer input c = .ok type

theorem Recorded.keepsTypes (h : Recorded functions a e) (t : Typing) (input : Schema) :
    KeepsTypes t input functions a e :=
  fun c hc entry hentry hcolumn _ => Typing.inferWithin_of_same (h c hc entry hentry hcolumn)

section

variable {t : Typing} {input : Schema} {results : List Field} {type : DataType}
  (hr : Planner.ResultsOf t input a.calls results)

include hr

/-- The column of a call has the type of the call. -/
theorem type_of_column (hkeeps : KeepsTypes t input functions a e) (he : IsAggregate functions e)
    {column : String} (hc : a.columnFor? e = some column) {l : Location} {f : Field} {i : Nat}
    (hf : (⟨input.fields ++ results⟩ : Schema).resolve ⟨none, column⟩ l = .ok (f, i)) :
    t.infer input e = .ok f.type := by
  obtain ⟨entry, hentry, _, rfl⟩ := mem_of_columnFor? hc
  obtain ⟨g, hg, type, htype, rfl⟩ := exists_right hr hentry
  -- the result of the call answers to the column, so it is the field that was found
  obtain ⟨j, hj⟩ := List.mem_iff_getElem?.mp (List.mem_append_right input.fields hg)
  have hanswers : (⟨none, entry.column, type⟩ : Field).answers ⟨none, entry.column⟩ = true := by
    simp [Field.answers, Text.sameName_refl]
  cases Schema.eq_of_resolve hf hj hanswers
  exact hkeeps e (.self he) entry hentry hc type htype

/-- The expression of a statement has the type of what it is rewritten to. -/
theorem infer_of_keepsTypes (h : Expr.replaceWithin limit (columnOf functions a) n e = .ok e')
    (hknown : Analysis.Known input n e) (hkeeps : KeepsTypes t input functions a e)
    (htype : t.inferWithin ⟨input.fields ++ results⟩ n e' = .ok type) :
    t.inferWithin input n e = .ok type := by
  induction n generalizing e e' type with
  | zero => cases h
  | succ n ih =>
      rcases rewritten_iff.mp h with ⟨hcall, column, hcolumn, rfl⟩ | ⟨hcall, hparts⟩
      · simp only [Typing.inferWithin, bind_eq_ok, pure_eq_ok] at htype
        obtain ⟨⟨f, i⟩, hf, rfl⟩ := htype
        have he : IsAggregate functions e := (isAggregate_of_isCall hcall).mpr rfl
        exact Typing.inferWithin_of_height (type_of_column hr hkeeps he hcolumn hf) hknown.1
      · have hplain : ¬IsAggregate functions e := by simp [isAggregate_of_isCall hcall]
        have hcarries : Expr.Congruent
            (Typing.Carries t input n ⟨input.fields ++ results⟩ n) e e' := by
          refine hparts.imp_mem fun c hc c' hc' => ⟨isWildcard_of_rewritten hc', fun type => ?_⟩
          exact ih hc' (hknown.part hc) fun d hd => hkeeps d (.part hplain hc hd)
        cases e with
        | column l c =>
            cases hparts
            simp only [Typing.inferWithin, bind_eq_ok, pure_eq_ok] at htype ⊢
            obtain ⟨found, hfound, rfl⟩ := htype
            exact ⟨found, Schema.resolve_of_append hfound (hknown.2 l c .self), rfl⟩
        | _ => exact Typing.inferWithin_congruent hcarries (by simp) htype

theorem infer_of_rewritten (h : Expr.replaceWithin limit (columnOf functions a) n e = .ok e')
    (hknown : Analysis.Known input n e) (hrec : Recorded functions a e)
    (htype : t.inferWithin ⟨input.fields ++ results⟩ n e' = .ok type) :
    t.inferWithin input n e = .ok type :=
  infer_of_keepsTypes hr h hknown (hrec.keepsTypes t input) htype

end

end Aggregation

/-! ## Plans -/

namespace Planner

variable {p : Planner}

/-- The columns of a projection have the types of its expressions. -/
theorem types_of_projected {input below : Plan} {exprs : List Expr} {names : List String}
    {items : List (Expr × String)} {out : Schema}
    (h : p.projected exprs names input = .ok (.project items below out)) :
    List.Forall₂ (fun e f => p.typing.infer input.schema e = .ok f.type) exprs out.fields := by
  obtain ⟨hlen, columns, hcolumns, hplan⟩ := projected_eq_ok.mp h
  cases hplan
  rw [← List.map_fst_zip (Nat.le_of_eq hlen), List.forall₂_map_left_iff, List.forall₂_map_right_iff]
  refine hcolumns.imp ?_
  rintro item _ ⟨type, e', htype, _, rfl⟩
  exact htype

theorem schema_of_filtered {s : Analysis} {input plan : Plan} (h : p.filtered s input = .ok plan) :
    plan.schema = input.schema := by
  rcases filtered_eq_ok.mp h with ⟨_, rfl⟩ | ⟨_, _, _, _, _, _, rfl⟩
  · rfl
  · rfl

/-- Where every call is the one that is recorded for its column, rewriting for groups keeps types:
    the select expressions of the statement have, over its input, the types of the columns of the
    projection, and its condition on groups is a condition there. -/
theorem compileStatement_types {text : Prepared} {c : Compiled}
    (hc : p.compileStatement text = .ok c) {keys : List Expr} {calls : List AggregateCall}
    {window : Option Window} {input : Plan} {schema : Schema}
    (hq : .aggregate keys calls window input schema ∈ c.plan.operators)
    (hsame : ∀ call, Makes p.functions c.analysis call → ∀ entry ∈ c.aggregation.calls,
      c.aggregation.columnFor? call = some entry.column → entry.call.same call = true) :
    (∃ items below out, .project items below out ∈ c.plan.operators) ∧
    (∀ items below out, .project items below out ∈ c.plan.operators →
      List.Forall₂ (fun e f => p.typing.infer schema e = .ok f.type)
        c.aggregation.final out.fields ∧
      List.Forall₂ (fun e f => p.typing.infer c.analysis.input e = .ok f.type)
        c.analysis.exprs out.fields) ∧
    ∀ e, c.analysis.having = some e →
      ∃ type, p.typing.infer c.analysis.input e = .ok type ∧ (type = .boolean ∨ type = .null) := by
  obtain ⟨hs, ha, hb, _⟩ := compileStatement_eq_ok.mp hc
  obtain ⟨base, filtered, result, hbase, hrows, hg, hh, hp, hresult, hops⟩ := build_of_aggregate hb hq
  have hcomplete := complete_of_ofAnalysis ha
  have hinput : input.schema = c.analysis.input := by
    rw [schema_of_filtered hrows, (base_of_sources hs hbase).2]
  obtain ⟨results, hresults, hschema⟩ : ∃ results,
      ResultsOf p.typing c.analysis.input c.aggregation.calls results ∧
        schema = ⟨c.analysis.input.fields ++ results⟩ := by
    obtain ⟨_, _, _, _, results, hresults, hplan⟩ := grouped_eq_ok.mp hg
    cases hplan
    rw [hinput] at hresults ⊢
    exact ⟨results, hresults, rfl⟩
  have hfiltered : filtered.schema = schema := schema_of_havingFiltered hh
  -- an expression of the statement and what became of it
  have hinfer : ∀ e ∈ c.analysis.exprs ++ c.analysis.having.toList, ∀ e' type,
      c.aggregation.overColumns p.functions p.config e = .ok e' →
      p.typing.infer schema e' = .ok type → p.typing.infer c.analysis.input e = .ok type := by
    intro e he e' type hr htype
    rw [hschema] at htype
    have hdepth : 0 < p.config.maxDepth := by
      refine Nat.pos_of_ne_zero fun hzero => ?_
      rw [Typing.infer, typing, hzero] at htype
      cases htype
    exact infer_of_rewritten hresults hr (Analysis.known_of_ofStatement hs hdepth he)
      (fun call hcall => hsame call ⟨e, he, hcall⟩) htype
  refine ⟨?_, fun items below out hproject => ?_, fun e he => ?_⟩
  · obtain ⟨_, _, _, rfl⟩ := projected_eq_ok.mp hp
    exact ⟨_, _, _, hresult⟩
  · have hout : result = .project items below out := by
      obtain ⟨_, _, _, rfl⟩ := projected_eq_ok.mp hp
      rcases hops _ hproject with h | h | h | h | h
      · cases h
      · exact h.symm
      · rcases havingFiltered_eq_ok.mp hh with ⟨_, rfl⟩ | ⟨_, _, _, rfl⟩
        · cases h
        · cases h
      · cases h
      · cases h
    rw [hout] at hp
    have hfinal := types_of_projected hp
    rw [hfiltered] at hfinal
    exact ⟨hfinal, forall₂_comp hcomplete.final hfinal fun e he e' f =>
      hinfer e (List.mem_append_left _ he) e' f.type⟩
  · have hhaving := hcomplete.having
    rw [he] at hhaving
    generalize hkept : c.aggregation.having = o at hhaving
    cases hhaving with
    | @some _ e' hr =>
        rcases havingFiltered_eq_ok.mp hh with ⟨hnone, _⟩ | ⟨_, hsome, hcheck, _⟩
        · rw [hkept] at hnone
          cases hnone
        · rw [hkept] at hsome
          cases hsome
          obtain ⟨type, htype, hbool⟩ := Typing.checkPredicate_eq_ok.mp hcheck
          exact ⟨type, hinfer e (by simp [he]) e' type hr htype, hbool⟩

/-- The calls of the query, each once in the select list and once in the condition on groups, are
    the one that is recorded. -/
theorem compileStatement_types_sales :
    ∃ c, sales.compileStatement salesQuery = .ok c ∧ salesGroups ∈ c.plan.operators ∧
      (∀ call, Makes sales.functions c.analysis call → ∀ entry ∈ c.aggregation.calls,
        c.aggregation.columnFor? call = some entry.column → entry.call.same call = true) ∧
      sales.typing.infer c.analysis.input salesTotal = .ok .int64 := by
  have hview : (fun c => (c.analysis.exprs, c.analysis.having, c.aggregation.calls, c.plan)) <$>
      sales.compileStatement salesQuery = .ok
        ([.col "KSQL_AGG_VARIABLE_1", salesTotal],
          some (.compare none salesTotal .gt (.literal none (.integer 9))),
          [⟨salesTotal, "KSQL_AGG_VARIABLE_0"⟩], salesPlan) := by
    with_unfolding_all rfl
  obtain ⟨c, hc, hview⟩ := map_eq_ok.mp hview
  simp only [Prod.mk.injEq] at hview
  obtain ⟨hexprs, hhaving, hcalls, hplan⟩ := hview
  have hgroups : salesGroups ∈ c.plan.operators := by
    rw [hplan]
    simp [salesPlan, Plan.operators, salesGroups]
  have hproject : salesPlan ∈ c.plan.operators := by
    rw [hplan]
    simp [salesPlan, Plan.operators]
  have hsame : ∀ call, Makes sales.functions c.analysis call → ∀ entry ∈ c.aggregation.calls,
      c.aggregation.columnFor? call = some entry.column → entry.call.same call = true := by
    rintro call ⟨e, he, hcall⟩ entry hentry _
    have hscan : scanWithin sales.functions 3 3 e = .ok [] ∨
        scanWithin sales.functions 3 3 e = .ok [salesTotal] := by
      simp only [hexprs, hhaving, Option.toList_some, List.cons_append, List.nil_append,
        List.mem_cons, List.not_mem_nil, or_false] at he
      rcases he with rfl | rfl | rfl
      · exact Or.inl rfl
      · exact Or.inr rfl
      · exact Or.inr rfl
    have hcall : call = salesTotal := by
      rcases hscan with hscan | hscan
      · exact absurd ((mem_scanWithin hscan call).mpr hcall) (List.not_mem_nil)
      · exact List.mem_singleton.mp ((mem_scanWithin hscan call).mpr hcall)
    rw [hcalls, List.mem_singleton] at hentry
    rw [hentry, hcall]
    exact (Expr.same_iff _ _).mpr rfl
  have htypes := (compileStatement_types hc hgroups hsame).2.1 _ _ _ hproject
  rw [hexprs] at htypes
  obtain ⟨_, htypes⟩ := List.forall₂_cons.mp htypes.2
  exact ⟨c, hc, hgroups, hsame, (List.forall₂_cons.mp htypes).1⟩
end Planner

end StreamSql
