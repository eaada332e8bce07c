/-
  The columns of aggregate calls beside those of the input. Their names are made of a prefix and a
  number, and nothing keeps a relation from having a column of such a name. In the rows of groups,
  which are the input and then the results, a reference to a result finds it exactly if no column of
  the input is spelled so (`resolve_result_iff`); if one is, the reference is ambiguous.

  So an input column that the statement does not mention can make its planning fail, and it always
  does if its name is that of a result (`result_references`). If no name is, every column of what is
  evaluated on groups is found.
-/
import StreamSql.Proofs.Analysis.Resolution
import StreamSql.Proofs.Plan.GroupTypes

namespace StreamSql

open Outcome

/-! ## Names that a schema has -/

namespace Schema

variable {s : Schema} {c : ColumnRef} {l : Location}

/-- A column of the schema has this name, without regard to the case of letters. -/
def Spells (s : Schema) (name : String) : Prop :=
  ∃ f ∈ s.fields, Text.sameName f.name name = true

/-- Two fields that answer to a column make it ambiguous. -/
theorem resolve_of_two {f g : Field} {i j : Nat} (hij : i ≠ j) (hf : s.fields[i]? = some f)
    (hg : s.fields[j]? = some g) (haf : f.answers c = true) (hag : g.answers c = true) :
    ∃ several, s.resolve c l = .error (.ambiguousColumn c.text several l) := by
  have hmem : (f, i) ∈ s.candidates c := mem_candidates.mpr ⟨hf, haf⟩
  have hmem' : (g, j) ∈ s.candidates c := mem_candidates.mpr ⟨hg, hag⟩
  have hq : (c.qualifier.filter fun q => !s.hasQualifier q) = none := by
    cases hq : c.qualifier with
    | none => rfl
    | some q => simp [hasQualifier_of_answers (List.mem_of_getElem? hf) haf hq]
  unfold resolve
  rw [hq]
  match h : s.candidates c with
  | [] => simp [h] at hmem
  | [found] =>
      rw [h, List.mem_singleton] at hmem hmem'
      exact absurd (congrArg Prod.snd (hmem.trans hmem'.symm)) hij
  | x :: y :: rest => exact ⟨_, rfl⟩

end Schema

namespace Aggregation

variable {functions : Registry} {config : Config} {a : Aggregation} {limit n : Nat} {e e' : Expr}

/-! ## References in rewritten expressions -/

/-- The column of a call stands where the call did. -/
theorem within_of_rewritten (h : Expr.replaceWithin limit (columnOf functions a) n e = .ok e')
    {c : Expr} (hc : Outermost functions c e) {column : String}
    (hcolumn : a.columnFor? c = some column) :
    Expr.Within (.column c.loc? ⟨none, column⟩) e' := by
  induction n generalizing e e' with
  | zero => cases h
  | succ n ih =>
      rcases rewritten_iff.mp h with ⟨hcall, found, hfound, rfl⟩ | ⟨hcall, hparts⟩
      · cases hc with
        | self =>
            rw [hcolumn] at hfound
            cases hfound
            exact .self
        | part plain => exact absurd ((isAggregate_of_isCall hcall).mpr rfl) plain
      · cases hc with
        | self call => simp [isAggregate_of_isCall hcall] at call
        | part _ member inner =>
            obtain ⟨d', hd', hd⟩ := exists_right hparts.children member
            exact .part hd' (ih hd inner)

/-- The expression occurs in the other one outside its aggregate calls. -/
inductive Outside (functions : Registry) (c : Expr) : Expr → Prop
  | self : Outside functions c c
  | part {e d : Expr} (plain : ¬IsAggregate functions e) (member : d ∈ e.children)
      (inner : Outside functions c d) : Outside functions c e

theorem Outside.within {c : Expr} (h : Outside functions c e) : Expr.Within c e := by
  induction h with
  | self => exact .self
  | part _ member _ ih => exact .part member ih

/-- A column of a rewritten expression was there before, outside the calls, or it is the column of a
    call. -/
theorem outside_of_rewritten (h : Expr.replaceWithin limit (columnOf functions a) n e = .ok e')
    {l : Option Location} {c : ColumnRef} (hc : Expr.Within (.column l c) e') :
    Outside functions (.column l c) e ∨ ∃ entry ∈ a.calls, c = ⟨none, entry.column⟩ := by
  induction n generalizing e e' with
  | zero => cases h
  | succ n ih =>
      rcases rewritten_iff.mp h with ⟨_, column, hcolumn, rfl⟩ | ⟨hcall, hparts⟩
      · cases hc with
        | self =>
            obtain ⟨entry, hentry, _, rfl⟩ := mem_of_columnFor? hcolumn
            exact Or.inr ⟨entry, hentry, rfl⟩
        | part member => simp [Expr.children] at member
      · cases hc with
        | self =>
            cases hparts
            exact Or.inl .self
        | part member inner =>
            have hplain : ¬IsAggregate functions e := by simp [isAggregate_of_isCall hcall]
            obtain ⟨d, hd, hd'⟩ := exists_left hparts.children member
            exact (ih hd' inner).imp_left (.part hplain hd)

/-- A column outside the calls stays where it is. -/
theorem within_of_outside (h : Expr.replaceWithin limit (columnOf functions a) n e = .ok e')
    {l : Option Location} {c : ColumnRef} (hc : Outside functions (.column l c) e) :
    Expr.Within (.column l c) e' := by
  induction n generalizing e e' with
  | zero => cases h
  | succ n ih =>
      rcases rewritten_iff.mp h with ⟨hcall, _⟩ | ⟨_, hparts⟩
      · cases hc with
        | self => cases hcall
        | part plain => exact absurd ((isAggregate_of_isCall hcall).mpr rfl) plain
      · cases hc with
        | self =>
            cases hparts
            exact .self
        | part _ member inner =>
            obtain ⟨d', hd', hd⟩ := exists_right hparts.children member
            exact .part hd' (ih hd inner)

/-- A column of a rewritten expression was there before, or it is the column of a call. -/
theorem column_of_rewritten (h : Expr.replaceWithin limit (columnOf functions a) n e = .ok e')
    {l : Option Location} {c : ColumnRef} (hc : Expr.Within (.column l c) e') :
    Expr.Within (.column l c) e ∨ ∃ entry ∈ a.calls, c = ⟨none, entry.column⟩ :=
  (outside_of_rewritten h hc).imp_left Outside.within

/-! ## The rows of groups -/

/-- The schema of groups: the columns of the input, and then one without a qualifier for each
    call. -/
def GroupRows (input : Schema) (calls : List AggregateCall) (rows : Schema) : Prop :=
  ∃ results, List.Forall₂ (fun call f => f.qualifier = none ∧ f.name = call.column) calls results ∧
    rows = ⟨input.fields ++ results⟩

variable {input rows : Schema} {entry : AggregateCall} {i : Nat} {l : Location}

/-- The result of a call in the rows of groups. -/
theorem GroupRows.result (h : GroupRows input a.calls rows) (hi : a.calls[i]? = some entry) :
    ∃ f, rows.fields[input.width + i]? = some f ∧ f.answers ⟨none, entry.column⟩ = true := by
  obtain ⟨results, hresults, rfl⟩ := h
  obtain ⟨hlt, rfl⟩ := List.getElem?_eq_some_iff.mp hi
  have hlt' : i < results.length := hresults.length_eq ▸ hlt
  refine ⟨results[i], ?_, ?_⟩
  · rw [Schema.width, List.getElem?_append_right (Nat.le_add_right _ _), Nat.add_sub_cancel_left]
    exact List.getElem?_eq_getElem hlt'
  · have hname : results[i].name = a.calls[i].column := (hresults.get hlt hlt').2
    simp [Field.answers, hname, Text.sameName_refl]

/-- The columns of the input stay where they are. -/
theorem GroupRows.kept (h : GroupRows input a.calls rows) {j : Nat} {f : Field}
    (hj : input.fields[j]? = some f) : rows.fields[j]? = some f := by
  obtain ⟨results, _, rfl⟩ := h
  rw [List.getElem?_append_left (List.getElem?_eq_some_iff.mp hj).1]
  exact hj

/-- A field of the rows of groups is one of the input, or the result of a call. -/
theorem GroupRows.cases (h : GroupRows input a.calls rows) {j : Nat} {f : Field}
    (hj : rows.fields[j]? = some f) :
    input.fields[j]? = some f ∨
      ∃ k call, j = input.width + k ∧ a.calls[k]? = some call ∧ f.qualifier = none ∧
        f.name = call.column := by
  obtain ⟨results, hresults, rfl⟩ := h
  rcases Nat.lt_or_ge j input.fields.length with hlt | hge
  · rw [List.getElem?_append_left hlt] at hj
    exact Or.inl hj
  · rw [List.getElem?_append_right hge] at hj
    obtain ⟨hlt, rfl⟩ := List.getElem?_eq_some_iff.mp hj
    have hlt' : j - input.fields.length < a.calls.length := hresults.length_eq ▸ hlt
    refine Or.inr ⟨j - input.fields.length, _, by simp [Schema.width]; omega,
      List.getElem?_eq_getElem hlt', ?_⟩
    exact hresults.get hlt' hlt

/-- Beside an input column of its name, a result cannot be referred to. -/
theorem resolve_of_spells (h : GroupRows input a.calls rows) (hi : a.calls[i]? = some entry)
    (hs : input.Spells entry.column) :
    ∃ several, rows.resolve ⟨none, entry.column⟩ l =
      .error (.ambiguousColumn entry.column several l) := by
  obtain ⟨f, hf, hname⟩ := hs
  obtain ⟨j, hj⟩ := List.mem_iff_getElem?.mp hf
  obtain ⟨g, hg, hag⟩ := h.result hi
  have hne : j ≠ input.width + i := by
    have hlt := (List.getElem?_eq_some_iff.mp hj).1
    unfold Schema.width
    omega
  have haf : f.answers ⟨none, entry.column⟩ = true := by simpa [Field.answers] using hname
  exact Schema.resolve_of_two hne (h.kept hj) hg haf hag

/-- A reference to a result finds it exactly if the input does not have its name. -/
theorem resolve_result_iff (h : GroupRows input a.calls rows)
    (hapart : a.calls.Pairwise fun x y => Text.sameName x.column y.column = false)
    (hi : a.calls[i]? = some entry) :
    (∃ f, rows.resolve ⟨none, entry.column⟩ l = .ok (f, input.width + i)) ↔
      ¬input.Spells entry.column := by
  constructor
  · rintro ⟨f, hf⟩ hs
    obtain ⟨several, herror⟩ := resolve_of_spells (l := l) h hi hs
    rw [hf] at herror
    cases herror
  · intro hs
    obtain ⟨f, hf, ha⟩ := h.result hi
    refine ⟨f, Schema.resolve_of_unique hf ha fun j g hj hg => ?_⟩
    rw [Field.answers, Bool.and_eq_true] at hg
    rcases h.cases hj with hin | ⟨k, call, rfl, hk, _, hname⟩
    · exact absurd ⟨g, List.mem_of_getElem? hin, hg.1⟩ hs
    · -- two results of one name are one result
      rw [hname] at hg
      rw [Text.eq_of_sameName hapart hk hi hg.1]

/-- A column of the input is still found beside results if none of them has its name. -/
theorem resolve_of_input (h : GroupRows input a.calls rows)
    (hnone : ∀ entry ∈ a.calls, ¬input.Spells entry.column) {c : ColumnRef} {found : Field × Nat}
    (hc : input.resolve c l = .ok found) : rows.resolve c l = .ok found := by
  obtain ⟨f, i⟩ := found
  obtain ⟨hf, ha⟩ := Schema.found_of_resolve hc
  refine Schema.resolve_of_unique (h.kept hf) ha fun j g hj hg => ?_
  rcases h.cases hj with hin | ⟨k, call, rfl, hk, _, hname⟩
  · exact (congrArg Prod.snd (Schema.eq_of_resolve hc hin hg)).symm
  · refine absurd ⟨f, List.mem_of_getElem? hf, ?_⟩ (hnone call (List.mem_of_getElem? hk))
    -- both answer to the column, so they have the same name
    simp only [Field.answers, Bool.and_eq_true, hname] at ha hg
    rw [Text.sameName_right hg.1]
    exact ha.1

end Aggregation

/-! ## Plans -/

namespace Planner

open Aggregation

variable {p : Planner} {s : Analysis} {a : Aggregation} {st : Statement}

/-- Everything that is evaluated on the groups of a plan has its columns in their rows. -/
theorem resolve_of_build (hs : Analysis.ofStatement p.catalog p.config st = .ok s)
    (hg : groups s a = true) {plan : Plan} (h : p.build s a = .ok plan) :
    ∃ rows, GroupRows s.input a.calls rows ∧ ∀ e ∈ a.final ++ a.having.toList,
      ∀ l c, Expr.Within (.column l c) e →
        ∃ found, rows.resolve c (l.getD .unknown) = .ok found := by
  obtain ⟨base, below, grouped, filtered, result, hbase, hbelow, hgrouped, hhaving, hresult, _⟩ :=
    (build_eq_ok_of_groups hg).mp h
  have hschema : filtered.schema = grouped.schema := schema_of_havingFiltered hhaving
  obtain ⟨_, _, _, _, results, hresults, rfl⟩ := grouped_eq_ok.mp hgrouped
  refine ⟨⟨below.schema.fields ++ results⟩, ⟨results, ?_, ?_⟩, fun e he l c hc => ?_⟩
  · refine hresults.imp ?_
    rintro call _ ⟨type, _, rfl⟩
    exact ⟨rfl, rfl⟩
  · rw [schema_of_filtered hbelow, (base_of_sources hs hbase).2]
  · rcases List.mem_append.mp he with he | he
    · obtain ⟨hlen, columns, hcolumns, _⟩ := projected_eq_ok.mp hresult
      rw [← List.map_fst_zip (Nat.le_of_eq hlen), List.mem_map] at he
      obtain ⟨item, hitem, rfl⟩ := he
      obtain ⟨_, _, type, _, htype, _⟩ := exists_right hcolumns hitem
      rw [hschema] at htype
      exact Typing.resolve_of_infer htype hc
    · rcases havingFiltered_eq_ok.mp hhaving with ⟨hnone, _⟩ | ⟨e', he', hcheck, _⟩
      · simp [hnone] at he
      · rw [he', Option.toList_some, List.mem_singleton] at he
        subst he
        exact Typing.resolve_of_checkPredicate hcheck hc

/-- What is evaluated on groups are the expressions of the statement, rewritten one by one. -/
theorem rewritten_of_ofAnalysis (ha : Aggregation.ofAnalysis p.functions p.config s = .ok a) :
    List.Forall₂ (fun e e' => a.overColumns p.functions p.config e = .ok e')
      (s.exprs ++ s.having.toList) (a.final ++ a.having.toList) := by
  have hcomplete := complete_of_ofAnalysis ha
  exact List.rel_append hcomplete.final (forall₂_toList hcomplete.having)

/-- In a plan no column of the input has the name of a result: the reference to the result stands in
    something that is evaluated on groups, and would be ambiguous there. -/
theorem not_spells_of_build (hs : Analysis.ofStatement p.catalog p.config st = .ok s)
    (ha : Aggregation.ofAnalysis p.functions p.config s = .ok a) {plan : Plan}
    (h : p.build s a = .ok plan) : ∀ entry ∈ a.calls, ¬s.input.Spells entry.column := by
  intro entry hentry hspells
  obtain ⟨e, he, hcall⟩ := (complete_of_ofAnalysis ha).made entry hentry
  obtain ⟨e', he', hr⟩ := exists_right (rewritten_of_ofAnalysis ha) he
  obtain ⟨i, hi⟩ := List.mem_iff_getElem?.mp hentry
  have hcolumn : a.columnFor? entry.call = some entry.column := by
    obtain ⟨met, hcollects, _⟩ := collects_ofAnalysis ha
    exact (hcollects.columnFor?_eq_some hentry).mpr rfl
  have hg : groups s a = true := by
    cases hcalls : a.calls with
    | nil => simp [hcalls] at hentry
    | cons => simp [groups, hasAggregates, hcalls]
  obtain ⟨rows, hrows, hfound⟩ := resolve_of_build hs hg h
  obtain ⟨found, hok⟩ := hfound e' he' _ _ (within_of_rewritten hr hcall hcolumn)
  obtain ⟨several, herror⟩ :=
    resolve_of_spells (l := (entry.call.loc?.getD .unknown)) hrows hi hspells
  rw [hok] at herror
  cases herror

/-- An aggregate call of a statement becomes a reference to its result. The reference finds the
    result exactly if no column of the input has its name, and is ambiguous if one does; then the
    statement has no plan. If no input column has the name of a result, every column of what is
    evaluated on groups is found in their rows. -/
theorem result_references (hconfig : p.config.validate = .ok p.config)
    (hs : Analysis.ofStatement p.catalog p.config st = .ok s)
    (ha : Aggregation.ofAnalysis p.functions p.config s = .ok a) :
    (∀ e ∈ s.exprs ++ s.having.toList, ∀ call, Outermost p.functions call e →
      ∃ e' ∈ a.final ++ a.having.toList, a.overColumns p.functions p.config e = .ok e' ∧
        ∃ i entry, a.calls[i]? = some entry ∧ a.columnFor? call = some entry.column ∧
          Expr.Within (.column call.loc? ⟨none, entry.column⟩) e' ∧
          ∀ rows, GroupRows s.input a.calls rows → ∀ l,
            ((∃ f, rows.resolve ⟨none, entry.column⟩ l = .ok (f, s.input.width + i)) ↔
              ¬s.input.Spells entry.column) ∧
            (s.input.Spells entry.column → ∃ several, rows.resolve ⟨none, entry.column⟩ l =
              .error (.ambiguousColumn entry.column several l))) ∧
    (∀ entry ∈ a.calls, s.input.Spells entry.column → ∀ plan, p.build s a ≠ .ok plan) ∧
    ((∀ entry ∈ a.calls, ¬s.input.Spells entry.column) →
      ∀ rows, GroupRows s.input a.calls rows → ∀ e' ∈ a.final ++ a.having.toList,
        ∀ l c, Expr.Within (.column l c) e' →
          ∃ found, rows.resolve c (l.getD .unknown) = .ok found) := by
  have hcomplete := complete_of_ofAnalysis ha
  have hrewritten := rewritten_of_ofAnalysis ha
  refine ⟨fun e he call hcall => ?_, fun entry hentry hspells plan hplan => ?_,
    fun hnone rows hrows e' he' l c hc => ?_⟩
  · obtain ⟨e', he', hr⟩ := exists_right hrewritten he
    obtain ⟨entry, hentry, _, hcolumn⟩ := hcomplete.recorded call ⟨e, he, hcall⟩
    obtain ⟨i, hi⟩ := List.mem_iff_getElem?.mp hentry
    exact ⟨e', he', hr, i, entry, hi, hcolumn, within_of_rewritten hr hcall hcolumn,
      fun rows hrows l => ⟨resolve_result_iff hrows hcomplete.columns hi,
        resolve_of_spells hrows hi⟩⟩
  · exact not_spells_of_build hs ha hplan entry hentry hspells
  · obtain ⟨e, he, hr⟩ := exists_left hrewritten he'
    rcases column_of_rewritten hr hc with hwithin | ⟨entry, hentry, rfl⟩
    · obtain ⟨_, hspelled⟩ := Analysis.resolved_of_clauses hs (Config.maxDepth_pos hconfig)
        (Analysis.mem_clauses he)
      obtain ⟨f, i, _, hf, _⟩ := hspelled l c hwithin
      exact ⟨(f, i), resolve_of_input hrows hnone (hf _)⟩
    · obtain ⟨i, hi⟩ := List.mem_iff_getElem?.mp hentry
      obtain ⟨f, hf⟩ := (resolve_result_iff hrows hcomplete.columns hi).mpr (hnone entry hentry)
      exact ⟨_, hf⟩

/-- The one result of the query is found after the two columns of its input, of which one has the
    name of the result that would come next. -/
theorem result_references_sales :
    sales.config.validate = .ok sales.config ∧
      ∃ s a, Analysis.ofStatement sales.catalog sales.config salesQuery.statement = .ok s ∧
        Aggregation.ofAnalysis sales.functions sales.config s = .ok a ∧
        s.input.Spells "KSQL_AGG_VARIABLE_1" ∧
        ∃ f, salesGroups.schema.resolve ⟨none, "KSQL_AGG_VARIABLE_0"⟩ .unknown = .ok (f, 2) := by
  have hconfig : sales.config.validate = .ok sales.config := rfl
  have hview : (fun c => (c.analysis.exprs, c.analysis.input, c.aggregation.calls)) <$>
      sales.compileStatement salesQuery = .ok
        ([.col "KSQL_AGG_VARIABLE_1", salesTotal], salesRows.schema,
          [⟨salesTotal, "KSQL_AGG_VARIABLE_0"⟩]) := by with_unfolding_all rfl
  obtain ⟨c, hc, hview⟩ := map_eq_ok.mp hview
  simp only [Prod.mk.injEq] at hview
  obtain ⟨hexprs, hinput, hcalls⟩ := hview
  obtain ⟨hs, ha, _, _⟩ := compileStatement_eq_ok.mp hc
  have hcall : Outermost sales.functions salesTotal salesTotal :=
    .self ((isAggregate_of_isCall (b := true) rfl).mpr rfl)
  obtain ⟨_, _, _, i, entry, hi, _, _, hresolve⟩ :=
    (result_references hconfig hs ha).1 salesTotal (by simp [hexprs]) salesTotal hcall
  rw [hcalls, List.getElem?_singleton] at hi
  rw [hcalls, hinput] at hresolve
  have hrows : GroupRows salesRows.schema [⟨salesTotal, "KSQL_AGG_VARIABLE_0"⟩]
      salesGroups.schema :=
    ⟨[⟨none, "KSQL_AGG_VARIABLE_0", .int64⟩], .cons ⟨rfl, rfl⟩ .nil, rfl⟩
  split at hi
  · rename_i hzero
    cases hi
    subst hzero
    refine ⟨hconfig, c.analysis, c.aggregation, hs, ha, ?_, (hresolve _ hrows _).1.mpr ?_⟩
    · rw [hinput]
      exact ⟨_, List.mem_cons_self, by decide⟩
    · rintro ⟨f, hf, hname⟩
      rcases List.mem_pair.mp hf with rfl | rfl
      · exact absurd hname (by decide)
      · exact absurd hname (by decide)
  · cases hi

/-- Two calls; the second one gets the name that a column of the relation has. -/
def salesSums : Prepared where
  text := "SELECT SUM(amount), SUM(amount + 1) FROM sales"
  statement := .query {
    select := [.expr salesTotal none,
      .expr (.call none "SUM" [.arith none (.col "amount") .add (.lit (.integer 1))] false) none]
    source := .table ⟨"sales", none, none⟩ }

/-- The same relation with another name for that column. -/
def salesByRegion : Planner :=
  { sales with catalog := ⟨[("sales", [⟨"region", .utf8, true⟩, ⟨"amount", .int32, true⟩])]⟩ }

/-- A query is planned or not by the name of a column that it does not mention. -/
theorem exists_shadowed_result :
    sales.config.validate = .ok sales.config ∧
      (∃ s a, Analysis.ofStatement sales.catalog sales.config salesSums.statement = .ok s ∧
        Aggregation.ofAnalysis sales.functions sales.config s = .ok a ∧
        a.calls.map (·.column) = ["KSQL_AGG_VARIABLE_0", "KSQL_AGG_VARIABLE_1"]) ∧
      sales.compileStatement salesSums = .error (.within salesSums.text
        (.ambiguousColumn "KSQL_AGG_VARIABLE_1"
          ["sales.KSQL_AGG_VARIABLE_1", "KSQL_AGG_VARIABLE_1"] .unknown)) ∧
      ∃ c, salesByRegion.compileStatement salesSums = .ok c := by
  have hcalls : (fun a => a.calls.map (·.column)) <$>
      (Analysis.ofStatement sales.catalog sales.config salesSums.statement >>=
        Aggregation.ofAnalysis sales.functions sales.config) =
      .ok ["KSQL_AGG_VARIABLE_0", "KSQL_AGG_VARIABLE_1"] := by with_unfolding_all rfl
  have hplan : (fun _ => ()) <$> salesByRegion.compileStatement salesSums = .ok () := by
    with_unfolding_all rfl
  obtain ⟨a, ha, hcolumns⟩ := map_eq_ok.mp hcalls
  obtain ⟨s, hs, ha⟩ := bind_eq_ok.mp ha
  obtain ⟨c, hc, _⟩ := map_eq_ok.mp hplan
  exact ⟨rfl, ⟨s, a, hs, ha, hcolumns⟩, by with_unfolding_all rfl, c, hc⟩

end Planner

end StreamSql
