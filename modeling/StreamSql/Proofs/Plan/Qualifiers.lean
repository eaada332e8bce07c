/-
  Qualifiers in a query over one relation. Its columns can be written with the name of the relation
  or without, and mean the same either way. Whether the query is planned may depend on it all the
  same (`exists_version_without_plan`), because three later stages compare what is written:

  * an expression is a key of the groups if it is written as the key is;
  * a call that is written in two ways has two results, and a column of the relation may have the
    name of the second;
  * calls that are spelled alike share a column, though `"a.b"` and `a.b` are two columns.

  Where calls that are spelled alike have one type, a version of a query that is planned is planned
  itself exactly if it reads its groups properly, and if the keys are columns and no column of the
  relation has the name of a result, either all versions are planned or none is
  (`compileStatement_qualified`).
-/
import StreamSql.Proofs.Plan.Respelling
import StreamSql.Proofs.Plan.Stages

namespace StreamSql

open Outcome

/-! ## Qualified columns -/

/-- The column with a qualifier, this one if it has none. -/
def ColumnRef.qualify (q : String) (c : ColumnRef) : ColumnRef :=
  ⟨some (c.qualifier.getD q), c.name⟩

/-- Every column with a qualifier, and without positions. -/
def Respelling.qualified (q : String) : Respelling where
  position _ := none
  column := ColumnRef.qualify q
  all := id

section

variable {q : String}

/-- A field answers to its column with its qualifier and without. -/
theorem Field.answers_qualify {f : Field} (hf : f.qualifier = some q) (c : ColumnRef) :
    f.answers (c.qualify q) = f.answers c := by
  obtain ⟨written, name⟩ := c
  cases written with
  | none => simp [answers, ColumnRef.qualify, isOf, hf, Text.sameName_refl]
  | some => rfl

theorem Field.qualify_spelling {f : Field} (hf : f.qualifier = some q) (c : ColumnRef) :
    (f.spelling c).qualify q = ⟨some q, f.name⟩ := by
  obtain ⟨written, name⟩ := c
  cases written with
  | none => rfl
  | some => simp [spelling, ColumnRef.qualify, hf]

variable {schema : Schema} (hs : ∀ f ∈ schema.fields, f.qualifier = some q)

include hs

theorem Schema.alike_resolve_of_qualify {c c' : ColumnRef} (h : c.qualify q = c'.qualify q)
    (l l' : Location) :
    Alike (fun _ _ => True) Eq (schema.resolve c l) (schema.resolve c' l') := by
  have hcandidates : ∀ c : ColumnRef, schema.candidates (c.qualify q) = schema.candidates c := by
    intro c
    unfold candidates
    refine List.filter_congr fun x hx => ?_
    exact Field.answers_qualify (hs _ (List.fst_mem_of_mem_zipIdx hx)) c
  have hfound : ∀ found, schema.resolve c l = .ok found ↔ schema.resolve c' l' = .ok found := by
    intro found
    rw [resolve_eq_ok, resolve_eq_ok, ← hcandidates c, h, hcandidates]
  cases hc : schema.resolve c l with
  | ok found =>
      rw [(hfound found).mp hc]
      exact .ok rfl
  | error err =>
      cases hc' : schema.resolve c' l' with
      | ok found' =>
          rw [(hfound found').mpr hc'] at hc
          cases hc
      | error err' => exact .error trivial

theorem Analysis.uniform_qualified :
    Uniform (fun _ _ => True) (.qualified q) (.qualified q) schema where
  found h := schema.alike_resolve_of_qualify hs h
  spelled _ hf _ := by
    change ColumnRef.qualify q _ = ColumnRef.qualify q _
    rw [Field.qualify_spelling (hs _ hf), Field.qualify_spelling (hs _ hf)]
  refound h := schema.alike_resolve_of_qualify hs h
  qualifier h := congrArg Text.lower h

end

/-! ## Queries over one relation -/

namespace Analysis

variable {catalog : Catalog} {config : Config} {st st' : Statement} {s s' : Analysis} {t : TableRef}

/-- The analysis of a query over one relation. -/
theorem input_of_table (hone : st.body.source = .table t)
    (h : ofStatement catalog config st = .ok s) :
    ∃ columns, catalog.lookup t.name = some columns ∧ s.input = .ofRelation t.qualifier columns ∧
      s.join = none := by
  have hrelation := (ofStatement_eq_ok.mp h).1
  rw [hone] at hrelation
  rcases relation_inv hrelation with ⟨_, one, ht, hsource, _, hinput, hjoin⟩ |
    ⟨_, _, _, _, _, _, _, hj, _⟩
  · cases ht
    obtain ⟨columns, hcolumns, rfl⟩ := source_eq_ok.mp hsource
    exact ⟨columns, hcolumns, hinput, hjoin⟩
  · cases hj

theorem uniform_ofRelation (q : String) (columns : List Column) :
    Uniform (fun _ _ => True) (.qualified q) (.qualified q) (.ofRelation q columns) := by
  refine uniform_qualified fun f hf => ?_
  obtain ⟨column, _, rfl⟩ := List.mem_map.mp hf
  rfl

/-- Versions of a query over one relation have analyses that match, or none. -/
theorem alike_ofStatement_of_qualified (hone : st.body.source = .table t)
    (h : st.respell (.qualified t.qualifier) = st'.respell (.qualified t.qualifier)) :
    Alike (fun _ _ => True)
      (fun s s' => s.respell (.qualified t.qualifier) = s'.respell (.qualified t.qualifier))
      (ofStatement catalog config st) (ofStatement catalog config st') := by
  refine alike_ofStatement ⟨fun _ => trivial, fun _ _ _ _ => trivial⟩ rfl (fun schema hoffers => ?_) h
  rw [hone] at hoffers
  cases hoffers with
  | table found =>
      obtain ⟨columns, _, rfl⟩ := source_eq_ok.mp found
      exact uniform_ofRelation _ _

/-- A version of a query over one relation is over that relation. -/
theorem table_of_qualified (hone : st.body.source = .table t)
    (h : st.respell (.qualified t.qualifier) = st'.respell (.qualified t.qualifier)) :
    ∃ t', st'.body.source = .table t' ∧ t'.name = t.name ∧ t'.qualifier = t.qualifier := by
  have hsource : (Relation.table t).respell (.qualified t.qualifier) =
      st'.body.source.respell (.qualified t.qualifier) := by
    rw [← hone]
    exact congrArg Query.source (Statement.body_of_respell h)
  cases hs : st'.body.source with
  | join =>
      rw [hs] at hsource
      cases hsource
  | table t' =>
      rw [hs] at hsource
      obtain ⟨hname, halias, _⟩ := TableRef.mk.inj (Relation.table.inj hsource)
      refine ⟨t', rfl, hname.symm, ?_⟩
      unfold TableRef.qualifier
      rw [hname, halias]

/-- The keys of a version of a query are columns if those of the query are. -/
theorem column_keys_of_respell {r : Respelling} (h : st.respell r = st'.respell r)
    (hkeys : ∀ key ∈ st.body.groupBy, ∃ l c, key = .column l c) :
    ∀ key ∈ st'.body.groupBy, ∃ l c, key = .column l c := by
  have hmatches : List.Forall₂ (Expr.Matches r) st.body.groupBy st'.body.groupBy :=
    map_eq_map_iff.mp (congrArg Query.groupBy (Statement.body_of_respell h))
  intro key' hkey'
  obtain ⟨key, hkey, hm⟩ := exists_left hmatches hkey'
  obtain ⟨l, c, rfl⟩ := hkeys key hkey
  rcases Expr.matches_iff.mp hm with ⟨_, _, l', c', _, rfl, _⟩ | ⟨hno, _⟩
  · exact ⟨l', c', rfl⟩
  · cases hno

/-- Keys that are columns stay columns. -/
theorem column_keys (h : ofStatement catalog config st = .ok s)
    (hkeys : ∀ key ∈ st.body.groupBy, ∃ l c, key = .column l c) :
    ∀ key ∈ s.groupBy, ∃ l c, key = .column l c := by
  obtain ⟨_, _, _, hgroupBy, _⟩ := ofStatement_eq_ok.mp h
  intro key' hkey'
  obtain ⟨key, hkey, hresolve⟩ := exists_left hgroupBy hkey'
  obtain ⟨l, c, rfl⟩ := hkeys key hkey
  obtain ⟨n, hn⟩ : ∃ n, config.maxDepth = n + 1 := by
    refine Nat.exists_eq_succ_of_ne_zero fun hzero => ?_
    rw [resolve, hzero] at hresolve
    cases hresolve
  rw [resolve, Expr.replace, hn] at hresolve
  rcases resolved_iff.mp hresolve with ⟨l', _, f, _, _, _, rfl⟩ | ⟨hne, _⟩
  · exact ⟨_, _, rfl⟩
  · exact absurd rfl (hne l c)

end Analysis

namespace Planner

open Aggregation

variable {p : Planner}

/-- Calls of the statement that are spelled alike have one type. -/
def TypesCalls (p : Planner) (st : Statement) : Prop :=
  ∀ s, Analysis.ofStatement p.catalog p.config st = .ok s →
    ∀ c d, Makes p.functions s c → Makes p.functions s d → c.text = d.text →
      ∀ type, p.typing.infer s.input c = .ok type → p.typing.infer s.input d = .ok type

/-- The statement reads its groups properly: their results have names that no column of the input
    has, and of their rows it reads the keys only. -/
def GroupsProperly (p : Planner) (st : Statement) : Prop :=
  ∃ s a, Analysis.ofStatement p.catalog p.config st = .ok s ∧
    ofAnalysis p.functions p.config s = .ok a ∧
    (∀ entry ∈ a.calls, ¬s.input.Spells entry.column) ∧
    (groups s a = true → ∀ e ∈ s.exprs ++ s.having.toList,
      ReadsKeys p.functions s.input s.groupBy e)

theorem TypesCalls.keepsTypes {st : Statement} {s : Analysis} {a : Aggregation}
    (h : p.TypesCalls st) (hs : Analysis.ofStatement p.catalog p.config st = .ok s)
    (ha : ofAnalysis p.functions p.config s = .ok a) :
    ∀ e ∈ s.exprs ++ s.having.toList, KeepsTypes p.typing s.input p.functions a e := by
  intro e he c hc entry hentry hcolumn
  obtain ⟨met, hcollects, hmet⟩ := collects_ofAnalysis ha
  have htext := (hcollects.columnFor?_eq_some hentry).mp hcolumn
  have hmade := (hmet _).mp (hcollects.sound entry hentry)
  exact h s hs entry.call c hmade ⟨e, he, hc⟩ htext

/-- The text of an ordinary call tells it from all others. -/
theorem typesCalls_of_ordinary {st : Statement}
    (h : ∀ s, Analysis.ofStatement p.catalog p.config st = .ok s →
      ∀ c, Makes p.functions s c → c.Ordinary) : p.TypesCalls st :=
  fun s hs c d hc hd htext _ =>
    Typing.inferWithin_of_same (Expr.same_of_text_eq (h s hs c hc) (h s hs d hd) htext)

theorem exists_compileStatement_iff {text : Prepared} :
    (∃ c, p.compileStatement text = .ok c) ↔
      ∃ s a plan, Analysis.ofStatement p.catalog p.config text.statement = .ok s ∧
        ofAnalysis p.functions p.config s = .ok a ∧ p.build s a = .ok plan := by
  constructor
  · rintro ⟨c, hc⟩
    obtain ⟨hs, ha, hb, _⟩ := compileStatement_eq_ok.mp hc
    exact ⟨_, _, _, hs, ha, hb⟩
  · rintro ⟨s, a, plan, hs, ha, hb⟩
    exact ⟨⟨text.text, s, a, plan⟩, compileStatement_eq_ok.mpr ⟨hs, ha, hb, rfl⟩⟩

/-- No column of the relation has a name that is generated for a result. -/
def FreeOfResults (p : Planner) (relation : String) : Prop :=
  ∀ columns, p.catalog.lookup relation = some columns → ∀ column ∈ columns, ∀ i,
    Text.sameName column.name (p.config.aggregateName i) = false

section

variable {s s' : Prepared} {t : TableRef} (hone : s.statement.body.source = .table t)
  (hversion : s.statement.respell (.qualified t.qualifier) =
    s'.statement.respell (.qualified t.qualifier))

/-- What is planned reads its groups properly. -/
theorem groupsProperly_of_plan (htypes : p.TypesCalls s.statement)
    (h : ∃ c, p.compileStatement s = .ok c) : p.GroupsProperly s.statement := by
  obtain ⟨q, a, plan, hq, ha, hb⟩ := exists_compileStatement_iff.mp h
  obtain ⟨_, hnames, hreads⟩ :=
    (exists_build_iff hq ha (htypes.keepsTypes hq ha)).mp ⟨plan, hb⟩
  exact ⟨q, a, hq, ha, hnames, hreads⟩

include hone hversion

/-- A version of a query that is planned is planned if it reads its groups properly. -/
theorem exists_plan_of_version (htypes : p.TypesCalls s.statement)
    (htypes' : p.TypesCalls s'.statement) (h : ∃ c, p.compileStatement s = .ok c)
    (hreads : p.GroupsProperly s'.statement) : ∃ c', p.compileStatement s' = .ok c' := by
  obtain ⟨q, a, plan, hq, ha, hb⟩ := exists_compileStatement_iff.mp h
  obtain ⟨q', a', hq', ha', hnames', hreads'⟩ := hreads
  obtain ⟨_, hq'', hm⟩ := (Analysis.alike_ofStatement_of_qualified hone hversion).exists_ok hq
  rw [hq'] at hq''
  cases hq''
  obtain ⟨columns, _, hinput, hjoin⟩ := Analysis.input_of_table hone hq
  have hu := Analysis.uniform_ofRelation t.qualifier columns
  rw [← hinput] at hu
  obtain ⟨hsuits, _⟩ := (exists_build_iff hq ha (htypes.keepsTypes hq ha)).mp ⟨plan, hb⟩
  obtain ⟨plan', hb'⟩ := (hsuits.of_respell hm hu hjoin ha ha').exists_build hq' ha'
    (htypes'.keepsTypes hq' ha') hnames' hreads'
  exact exists_compileStatement_iff.mpr ⟨q', a', plan', hq', ha', hb'⟩

/-- Where the keys are columns and the results have names of their own, every version of a query that
    is planned reads its groups properly. -/
theorem groupsProperly_of_version (htypes : p.TypesCalls s.statement)
    (hkeys : ∀ key ∈ s.statement.body.groupBy, ∃ l c, key = .column l c)
    (hfree : p.FreeOfResults t.name) (h : ∃ c, p.compileStatement s = .ok c) :
    p.GroupsProperly s'.statement := by
  obtain ⟨q, a, plan, hq, ha, hb⟩ := exists_compileStatement_iff.mp h
  obtain ⟨q', hq', hm⟩ := (Analysis.alike_ofStatement_of_qualified hone hversion).exists_ok hq
  obtain ⟨a', ha'⟩ := exists_ofAnalysis_of_respell hm ha
  obtain ⟨columns, hcolumns, hinput, _⟩ := Analysis.input_of_table hone hq
  have hu := Analysis.uniform_ofRelation t.qualifier columns
  rw [← hinput] at hu
  obtain ⟨hsuits, _, hreads⟩ :=
    (exists_build_iff hq ha (htypes.keepsTypes hq ha)).mp ⟨plan, hb⟩
  have hinput' : q'.input = q.input := (Analysis.mk.inj hm).2.1.symm
  refine ⟨q', a', hq', ha', ?_, fun hg e' he' => ?_⟩
  · rintro entry hentry ⟨f, hf, hname⟩
    rw [hinput', hinput] at hf
    obtain ⟨column, hcolumn, rfl⟩ := List.mem_map.mp hf
    obtain ⟨_, hcollects, _⟩ := collects_ofAnalysis ha'
    obtain ⟨i, hi⟩ := List.mem_iff_getElem?.mp hentry
    rw [hcollects.named i entry hi, hfree columns hcolumns column hcolumn i] at hname
    cases hname
  · obtain ⟨e, he, hme⟩ := exists_left (Analysis.matches_read hm) he'
    rw [hinput']
    exact (hreads (groups_of_respell hm.symm ha' ha hg) e he).of_matches hu
      (Analysis.matches_groupBy hm) (Analysis.column_keys hq hkeys)
      (fun key hkey => (hsuits.keys key hkey).2) hme

end

/-- Of the versions of a query over one relation, in which calls that are spelled alike have one
    type: where one is planned, another is planned exactly if it reads its groups properly. If the
    keys are columns and no column of the relation has the name of a result, one is planned exactly
    if the other is. -/
theorem compileStatement_qualified (p : Planner) {s s' : Prepared} {t : TableRef}
    (hone : s.statement.body.source = .table t)
    (hversion : s.statement.respell (.qualified t.qualifier) =
      s'.statement.respell (.qualified t.qualifier))
    (htypes : p.TypesCalls s.statement) (htypes' : p.TypesCalls s'.statement) :
    ((∃ c, p.compileStatement s = .ok c) →
      ((∃ c', p.compileStatement s' = .ok c') ↔ p.GroupsProperly s'.statement)) ∧
    ((∀ key ∈ s.statement.body.groupBy, ∃ l c, key = .column l c) → p.FreeOfResults t.name →
      ((∃ c, p.compileStatement s = .ok c) ↔ ∃ c', p.compileStatement s' = .ok c')) := by
  refine ⟨fun hplan => ⟨groupsProperly_of_plan htypes',
    exists_plan_of_version hone hversion htypes htypes' hplan⟩, fun hkeys hfree => ⟨?_, ?_⟩⟩
  · intro hplan
    exact exists_plan_of_version hone hversion htypes htypes' hplan
      (groupsProperly_of_version hone hversion htypes hkeys hfree hplan)
  · intro hplan'
    obtain ⟨t', hone', hname, hqualifier⟩ := Analysis.table_of_qualified hone hversion
    have hback := hversion.symm
    rw [← hqualifier] at hback
    rw [← hname] at hfree
    exact exists_plan_of_version hone' hback htypes' htypes hplan'
      (groupsProperly_of_version hone' hback htypes' (Analysis.column_keys_of_respell hversion hkeys)
        hfree hplan')

/-- Three relations. The second one has a column with the name of a result, the third one a column
    `"a.b"`. -/
def relations : Planner where
  catalog := ⟨[("t", [⟨"k", .utf8, true⟩, ⟨"v", .int32, true⟩]),
    ("u", [⟨"v", .int32, true⟩, ⟨"KSQL_AGG_VARIABLE_1", .int32, true⟩]),
    ("a", [⟨"b", .utf8, true⟩, ⟨"a.b", .int32, true⟩])]⟩
  functions := ⟨[("SUM", .aggregate "SUM" .widened), ("MAX", .aggregate "MAX" .firstArg)]⟩
  config := {}

def callOf (function : String) (c : ColumnRef) : Expr :=
  .call none function [.column none c] false

/-- `SELECT k, SUM(v) AS a FROM t GROUP BY t.k HAVING SUM(v) > 9`, with this qualifier in the select
    list. -/
def sumsByKey (q : Option String) : Prepared where
  text := "SELECT " ++ ColumnRef.text ⟨q, "k"⟩ ++ ", SUM(" ++ ColumnRef.text ⟨q, "v"⟩ ++
    ") AS a FROM t GROUP BY t.k HAVING SUM(v) > 9"
  statement := .query {
    select := [.expr (.column none ⟨q, "k"⟩) none, .expr (callOf "SUM" ⟨q, "v"⟩) (some "a")]
    source := .table ⟨"t", none, none⟩
    groupBy := [.column none ⟨some "t", "k"⟩]
    having := some (.compare none (callOf "SUM" ⟨none, "v"⟩) .gt (.lit (.integer 9))) }

theorem ordinary_callOf {c : ColumnRef} (h : (Expr.column none c).isOrdinaryNode = true) :
    (callOf "SUM" c).Ordinary := by
  have hname : isPlainName "SUM" = true := by decide
  refine Expr.ordinary_iff.mpr ⟨hname, ?_⟩
  simp only [callOf, Expr.children, List.forall_mem_cons]
  exact ⟨Expr.ordinary_of_leaf h rfl, by simp⟩

theorem freeOfResults_relations : relations.FreeOfResults "t" := by
  intro columns hcolumns column hcolumn i
  cases hcolumns
  -- the generated names are longer
  have hshort : (Text.lower column.name).toList.length = 1 := by
    rcases List.mem_pair.mp hcolumn with rfl | rfl
    · decide
    · decide
  rw [Bool.eq_false_iff]
  intro hname
  rw [Text.sameName_iff.mp hname, Config.aggregateName, Text.lower_append_toString,
    List.length_append, List.length_map] at hshort
  have hlong : relations.config.aggregatePrefix.toList.length = 18 := by decide
  omega

theorem typesCalls_sumsByKey {q : Option String} (hq : q = none ∨ q = some "t") :
    relations.TypesCalls (sumsByKey q).statement := by
  have hview : (fun s => s.exprs ++ s.having.toList) <$>
      Analysis.ofStatement relations.catalog relations.config (sumsByKey q).statement = .ok
        [.column none ⟨q, "k"⟩, callOf "SUM" ⟨q, "v"⟩,
          .compare none (callOf "SUM" ⟨none, "v"⟩) .gt (.lit (.integer 9))] := by
    rcases hq with rfl | rfl
    · with_unfolding_all rfl
    · with_unfolding_all rfl
  have hnode : (Expr.column none ⟨q, "v"⟩).isOrdinaryNode = true := by
    rcases hq with rfl | rfl
    · decide
    · decide
  refine typesCalls_of_ordinary fun s hs c hc => ?_
  obtain ⟨e, he, hcall⟩ := hc
  rw [hs] at hview
  have hread : s.exprs ++ s.having.toList = _ := Except.ok.inj hview
  rw [hread] at he
  have hscan : ∃ found, scanWithin relations.functions 3 3 e = .ok found ∧
      ∀ c ∈ found, c.Ordinary := by
    simp only [List.mem_cons, List.not_mem_nil, or_false] at he
    rcases he with rfl | rfl | rfl
    · exact ⟨[], rfl, by simp⟩
    · exact ⟨_, rfl, by simpa using ordinary_callOf hnode⟩
    · exact ⟨_, rfl, by simpa using ordinary_callOf (by decide)⟩
  obtain ⟨found, hfound, hordinary⟩ := hscan
  exact hordinary c ((mem_scanWithin hfound c).mpr hcall)

theorem compileStatement_qualified_sumsByKey :
    (sumsByKey none).statement.respell (.qualified "t") =
        (sumsByKey (some "t")).statement.respell (.qualified "t") ∧
      relations.FreeOfResults "t" ∧ relations.TypesCalls (sumsByKey none).statement ∧
      relations.TypesCalls (sumsByKey (some "t")).statement ∧
      (∃ c, relations.compileStatement (sumsByKey none) = .ok c) ∧
      (∃ c, relations.compileStatement (sumsByKey (some "t")) = .ok c) ∧
      relations.GroupsProperly (sumsByKey (some "t")).statement := by
  have htypes := typesCalls_sumsByKey (Or.inl rfl)
  have htypes' := typesCalls_sumsByKey (Or.inr rfl)
  have hversion : (sumsByKey none).statement.respell (.qualified "t") =
      (sumsByKey (some "t")).statement.respell (.qualified "t") := rfl
  obtain ⟨hexact, hsame⟩ :=
    compileStatement_qualified relations (t := ⟨"t", none, none⟩) rfl hversion htypes htypes'
  have hview : (fun _ => ()) <$> relations.compileStatement (sumsByKey none) = .ok () := by
    with_unfolding_all rfl
  obtain ⟨c, hc, _⟩ := map_eq_ok.mp hview
  have hkeys : ∀ key ∈ (sumsByKey none).statement.body.groupBy, ∃ l c, key = .column l c := by
    intro key hkey
    exact ⟨none, _, List.mem_singleton.mp hkey⟩
  have hplan := (hsame hkeys freeOfResults_relations).mp ⟨c, hc⟩
  exact ⟨hversion, freeOfResults_relations, htypes, htypes', ⟨c, hc⟩, hplan,
    (hexact ⟨c, hc⟩).mp hplan⟩

/-- `SELECT v + 1 AS a FROM t GROUP BY v + 1`, with this qualifier in the select list. -/
def raisedByKey (q : Option String) : Prepared where
  text := "SELECT " ++ ColumnRef.text ⟨q, "v"⟩ ++ " + 1 AS a FROM t GROUP BY v + 1"
  statement := .query {
    select := [.expr (.arith none (.column none ⟨q, "v"⟩) .add (.lit (.integer 1))) (some "a")]
    source := .table ⟨"t", none, none⟩
    groupBy := [.arith none (.col "v") .add (.lit (.integer 1))] }

/-- `SELECT SUM(v) AS a, SUM(v) AS b FROM u`, with this qualifier in the second sum. -/
def sumsTwice (q : Option String) : Prepared where
  text := "SELECT SUM(v) AS a, SUM(" ++ ColumnRef.text ⟨q, "v"⟩ ++ ") AS b FROM u"
  statement := .query {
    select := [.expr (callOf "SUM" ⟨none, "v"⟩) (some "a"), .expr (callOf "SUM" ⟨q, "v"⟩) (some "b")]
    source := .table ⟨"u", none, none⟩ }

/-- `SELECT MAX("a.b") AS m, MAX(b) LIKE 'x' AS n FROM a`, with this qualifier in the second call. -/
def greatest (q : Option String) : Prepared where
  text := "SELECT MAX(\"a.b\") AS m, MAX(" ++ ColumnRef.text ⟨q, "b"⟩ ++ ") LIKE 'x' AS n FROM a"
  statement := .query {
    select := [.expr (callOf "MAX" ⟨none, "a.b"⟩) (some "m"),
      .expr (.like none (callOf "MAX" ⟨q, "b"⟩) (.lit (.string "x")) false) (some "n")]
    source := .table ⟨"a", none, none⟩ }

/-- The query is planned without the qualifier, and not planned with it. -/
def PlannedApart (p : Planner) (query : Option String → Prepared) (q : String) : Prop :=
  (query none).statement.respell (.qualified q) = (query (some q)).statement.respell (.qualified q) ∧
    (∃ c, p.compileStatement (query none) = .ok c) ∧
    ∃ err, p.compileStatement (query (some q)) = .error err

theorem exists_version_without_plan :
    relations.PlannedApart raisedByKey "t" ∧ relations.PlannedApart sumsTwice "u" ∧
      relations.PlannedApart greatest "a" := by
  have hraised : (fun _ => ()) <$> relations.compileStatement (raisedByKey none) = .ok () := by
    with_unfolding_all rfl
  have hsums : (fun _ => ()) <$> relations.compileStatement (sumsTwice none) = .ok () := by
    with_unfolding_all rfl
  have hgreatest : (fun _ => ()) <$> relations.compileStatement (greatest none) = .ok () := by
    with_unfolding_all rfl
  obtain ⟨c, hc, _⟩ := map_eq_ok.mp hraised
  obtain ⟨d, hd, _⟩ := map_eq_ok.mp hsums
  obtain ⟨e, he, _⟩ := map_eq_ok.mp hgreatest
  refine ⟨⟨rfl, ⟨c, hc⟩, ?_⟩, ⟨rfl, ⟨d, hd⟩, ?_⟩, ⟨rfl, ⟨e, he⟩, ?_⟩⟩
  · exact ⟨.within (raisedByKey (some "t")).text (.notGrouped "t.v" .unknown),
      by with_unfolding_all rfl⟩
  · exact ⟨.within (sumsTwice (some "u")).text (.ambiguousColumn "KSQL_AGG_VARIABLE_1"
      ["u.KSQL_AGG_VARIABLE_1", "KSQL_AGG_VARIABLE_1"] .unknown), by with_unfolding_all rfl⟩
  · exact ⟨.within (greatest (some "a")).text (.planning (.notString "value" .int32)),
      by with_unfolding_all rfl⟩

end Planner

end StreamSql
