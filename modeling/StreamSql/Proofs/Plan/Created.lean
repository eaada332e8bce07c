/-
  Relations that statements create. The columns of a result have no qualifier and different names,
  so each is found by its name alone (`resolve_of_apart`). A relation with such columns can be read:
  the query that selects everything from it is planned under any settings, and its result has the
  columns of the relation in their order (`compileStatement_everything`). Hence what one statement
  creates, the next one can read (`compileStatement_created`).
-/
import StreamSql.Proofs.Analysis.Resolution
import StreamSql.Proofs.Catalog
import StreamSql.Proofs.Plan.Folding

namespace StreamSql

open Outcome

/-! ## Columns of different names -/

namespace Schema

/-- No two columns have the same name. -/
def Apart (s : Schema) : Prop :=
  (s.fields.map (·.name)).Pairwise fun a b => Text.sameName a b = false

/-- Columns of different names are found by their names. -/
theorem resolve_of_apart {s : Schema} (h : s.Apart) {i : Nat} {f : Field}
    (hi : s.fields[i]? = some f) (l : Location) : s.resolve ⟨none, f.name⟩ l = .ok (f, i) := by
  have ha : f.answers ⟨none, f.name⟩ = true := by simp [Field.answers, Text.sameName_refl]
  refine resolve_of_unique hi ha fun j g hj hg => ?_
  have hname : Text.sameName g.name f.name = true := by simpa [Field.answers] using hg
  exact Text.eq_of_sameName (List.pairwise_map.mp h) hj hi hname

end Schema

namespace Planner

variable {p : Planner} {input plan : Plan}

/-! ## The columns of a result -/

/-- The columns of a projection have its names and no qualifier. -/
theorem fields_of_projected {exprs : List Expr} {names : List String}
    (h : p.projected exprs names input = .ok plan) :
    plan.schema.fields.map (·.name) = names ∧ ∀ f ∈ plan.schema.fields, f.qualifier = none := by
  obtain ⟨hlen, columns, hcolumns, rfl⟩ := projected_eq_ok.mp h
  constructor
  · rw [Plan.schema, List.map_map, ← List.map_snd_zip (Nat.le_of_eq hlen.symm),
      ← List.forall₂_eq_eq_eq, List.forall₂_map_left_iff, List.forall₂_map_right_iff]
    refine hcolumns.flip.imp ?_
    rintro _ item ⟨_, _, _, _, rfl⟩
    rfl
  · intro f hf
    obtain ⟨column, hcolumn, rfl⟩ := List.mem_map.mp hf
    obtain ⟨item, _, _, _, _, _, rfl⟩ := exists_left hcolumns hcolumn
    rfl

theorem schema_limited (s : Analysis) (input : Plan) : (limited s input).schema = input.schema := by
  unfold limited
  split <;> rfl

/-- A statement that creates a relation ends in the sink of its result, whose columns have different
    names and no qualifier. -/
theorem sink_of_create {text : Prepared} {c : Compiled} {kind : SinkKind} {name : String}
    {ps : List (String × String)} {q : Query} (hst : text.statement = .create kind name ps q)
    (hc : p.compileStatement text = .ok c) :
    ∃ input schema, c.plan = .sink name kind true ps input schema ∧ schema.Apart ∧
      ∀ f ∈ schema.fields, f.qualifier = none := by
  obtain ⟨hs, _, hb, _⟩ := compileStatement_eq_ok.mp hc
  obtain ⟨base, rows, kept, result, _, _, _, hresult, hsunk⟩ := build_eq_ok.mp hb
  obtain ⟨_, hselect, _, _, _, htarget, _⟩ := Analysis.ofStatement_eq_ok.mp hs
  have hsink : c.analysis.sink = some (.create kind name ps) := by
    rw [hst] at htarget
    simp only [Analysis.target] at htarget
    split at htarget
    · cases htarget
    · exact (Except.ok.inj htarget).symm
  obtain ⟨hnames, hqualifiers⟩ := fields_of_projected hresult
  rcases sunk_eq_ok.mp hsunk with ⟨hnone, _⟩ | ⟨kind', name', ps', hsome, hplan⟩ | ⟨_, _, hsome, _⟩
  · simp [hsink] at hnone
  · rw [hsink] at hsome
    cases hsome
    refine ⟨_, _, hplan, ?_, ?_⟩
    · rw [schema_limited, Schema.Apart, hnames]
      exact (Analysis.names_of_selectList hselect).2
    · rwa [schema_limited]
  · simp [hsink] at hsome

/-! ## Everything from a relation -/

/-- `SELECT * FROM name` -/
def everything (name : String) (l l' : Option Location) : Query where
  select := [.all none l]
  source := .table ⟨name, none, l'⟩

variable {name : String} {columns : List Column}

/-- The columns of a relation as `*` writes them out. -/
def writtenOut (columns : List Column) : List (Expr × String) :=
  columns.map fun c => (.col c.name, c.name)

/-- The analysis of the query that selects everything from a relation. -/
def everythingAnalysis (name : String) (columns : List Column) : Analysis where
  sources := [⟨name, none, columns⟩]
  input := .ofRelation name columns
  exprs := (writtenOut columns).map (·.1)
  names := (writtenOut columns).map (·.2)

theorem ofStatement_everything {config : Config} {catalog : Catalog} {l l' : Option Location}
    (hlookup : catalog.lookup name = some columns) (hapart : (Schema.ofRelation name columns).Apart) :
    Analysis.ofStatement catalog config (.query (everything name l l')) =
      .ok (everythingAnalysis name columns) := by
  have hrelation : Analysis.relation catalog config (.table ⟨name, none, l'⟩) =
      .ok ([⟨name, none, columns⟩], .ofRelation name columns, none) := by
    simp [Analysis.relation, Analysis.source_eq_ok, hlookup, Source.schema, Source.qualifier]
  have hexpand : (Schema.ofRelation name columns).fields.map (Analysis.expandField false) =
      writtenOut columns := by
    simp [Schema.ofRelation, writtenOut, Analysis.expandField]
  have hnames : Analysis.repeatedName? [] ((writtenOut columns).map (·.2)) = none := by
    rw [Analysis.repeatedName?_eq_none]
    refine ⟨by simp, ?_⟩
    simpa [writtenOut, Schema.Apart, Schema.ofRelation, Function.comp_def] using hapart
  have hselect : Analysis.selectList config (.ofRelation name columns) false [.all none l] =
      .ok ((writtenOut columns).map (·.1), (writtenOut columns).map (·.2)) := by
    rw [Analysis.selectList_star, hexpand, hnames]
  exact Analysis.ofStatement_eq_ok.mpr
    ⟨hrelation, hselect, .none, .nil, .none, rfl, rfl, rfl⟩

/-- A column taken in among the select expressions. -/
theorem addSelect_col {functions : Registry} {config : Config} (hdepth : 0 < config.maxDepth)
    (a : Aggregation) (n : String) :
    a.addSelect functions config (.col n) =
      .ok { a with plain := a.plain ++ [.col n], final := a.final ++ [.col n] } := by
  obtain ⟨d, hd⟩ := Nat.exists_eq_add_of_lt hdepth
  have hscan : Aggregation.scan functions config (.col n) = .ok [] := by
    rw [Aggregation.scan, hd]
    rfl
  have hrewritten : ∀ b : Aggregation, b.overColumns functions config (.col n) = .ok (.col n) := by
    intro b
    rw [Aggregation.overColumns, Expr.replace, hd]
    rfl
  simp [Aggregation.addSelect, hscan, hrewritten]

/-- Columns make no aggregate calls. -/
theorem ofAnalysis_everything {functions : Registry} {config : Config}
    (hdepth : 0 < config.maxDepth) :
    Aggregation.ofAnalysis functions config (everythingAnalysis name columns) =
      .ok { plain := (writtenOut columns).map (·.1), final := (writtenOut columns).map (·.1) } := by
  have hfold : ∀ (names : List String) (a : Aggregation),
      (names.map Expr.col).foldlM (Aggregation.addSelect functions config) a =
        .ok { a with plain := a.plain ++ names.map Expr.col,
                     final := a.final ++ names.map Expr.col } := by
    intro names
    induction names with
    | nil => simp
    | cons n names ih => simp [addSelect_col hdepth, ih]
  have hexprs : (writtenOut columns).map (·.1) = (columns.map (·.name)).map Expr.col := by
    simp [writtenOut]
  have htaken := hfold (columns.map (·.name)) {}
  rw [← hexprs] at htaken
  simp [Aggregation.ofAnalysis, everythingAnalysis, htaken]

/-- A column of a relation that has its type there, and that folding leaves alone. -/
theorem evaluated_col (hapart : (Schema.ofRelation name columns).Apart)
    (hdepth : 0 < p.config.maxDepth) {c : Column} (hc : c ∈ columns) :
    p.typing.infer (.ofRelation name columns) (.col c.name) = .ok c.type ∧
      p.fold (.col c.name) = .ok (.col c.name) := by
  obtain ⟨d, hd⟩ := Nat.exists_eq_add_of_lt hdepth
  obtain ⟨i, hi⟩ := List.mem_iff_getElem?.mp hc
  have hfield : (Schema.ofRelation name columns).fields[i]? = some ⟨some name, c.name, c.type⟩ := by
    simp [Schema.ofRelation, hi]
  constructor
  · rw [Typing.infer, typing, hd]
    simp [Typing.inferWithin, Expr.col, Schema.resolve_of_apart hapart hfield]
  · unfold fold
    split
    · rw [Expr.simplify, hd]
      rfl
    · rfl

/-- The plan that gives everything from a relation. -/
def everythingPlan (name : String) (columns : List Column) : Plan :=
  .project (writtenOut columns) (.source name none (.ofRelation name columns))
    ⟨columns.map fun c => ⟨none, c.name, c.type⟩⟩

theorem build_everything (hapart : (Schema.ofRelation name columns).Apart)
    (hdepth : 0 < p.config.maxDepth) :
    p.build (everythingAnalysis name columns)
        { plain := (writtenOut columns).map (·.1), final := (writtenOut columns).map (·.1) } =
      .ok (everythingPlan name columns) := by
  have hprojected : p.projected (everythingAnalysis name columns).exprs
      (everythingAnalysis name columns).names (.source name none (.ofRelation name columns)) =
      .ok (everythingPlan name columns) := by
    refine projected_eq_ok.mpr ⟨by simp [everythingAnalysis],
      columns.map fun c => ((.col c.name, c.name), ⟨none, c.name, c.type⟩), ?_, ?_⟩
    · have hzip : (everythingAnalysis name columns).exprs.zip (everythingAnalysis name columns).names =
          columns.map fun c => (.col c.name, c.name) := by
        simp [everythingAnalysis, writtenOut, List.zip_map', Function.comp_def]
      rw [hzip, List.forall₂_map_left_iff, List.forall₂_map_right_iff, List.forall₂_same]
      intro c hc
      obtain ⟨htype, hfold⟩ := evaluated_col (p := p) hapart hdepth hc
      exact ⟨c.type, _, htype, hfold, rfl⟩
    · simp [everythingPlan, writtenOut]
  refine (build_eq_ok_of_not_groups rfl).mpr ⟨rfl, rfl, _, _, _, rfl, rfl, hprojected, rfl⟩

/-- Everything can be read from a relation whose columns have different names. -/
theorem compileStatement_everything (hlookup : p.catalog.lookup name = some columns)
    (hapart : (Schema.ofRelation name columns).Apart) (hdepth : 0 < p.config.maxDepth)
    (label : String) (l l' : Option Location) :
    ∃ c, p.compileStatement ⟨label, .query (everything name l l')⟩ = .ok c ∧
      c.plan = everythingPlan name columns :=
  ⟨⟨label, _, _, _⟩, compileStatement_eq_ok.mpr ⟨ofStatement_everything hlookup hapart,
    ofAnalysis_everything hdepth, build_everything hapart hdepth, rfl⟩, rfl⟩

/-! ## What one statement creates -/

/-- The columns of a relation made of columns without qualifiers are these columns. -/
theorem fields_toColumns {s : Schema} (h : ∀ f ∈ s.fields, f.qualifier = none) :
    (⟨s.toColumns.map fun c => ⟨none, c.name, c.type⟩⟩ : Schema) = s := by
  obtain ⟨fields⟩ := s
  simp only [Schema.toColumns, List.map_map, Schema.mk.injEq]
  refine (List.map_congr_left fun f hf => ?_).trans (List.map_id fields)
  obtain ⟨q, n, type⟩ := f
  cases h _ hf
  rfl

/-- The relation that a statement creates can be read. Under any settings, once it is registered,
    selecting everything from it is planned and gives the columns that its sink has: their names and
    types in their order. Each of them is found at its place by its name alone. -/
theorem compileStatement_created {p : Planner} {text : Prepared} {c : Compiled} {kind : SinkKind}
    {name : String} {ps : List (String × String)} {q : Query}
    (hst : text.statement = .create kind name ps q) (hc : p.compileStatement text = .ok c) :
    ∃ input schema, c.plan = .sink name kind true ps input schema ∧
      (p.adopt c).1 = { p with catalog := p.catalog.withRelation name schema.toColumns } ∧
      (∀ p' : Planner, p'.catalog = p.catalog.withRelation name schema.toColumns →
        p'.config.validate = .ok p'.config → ∀ label l l', ∃ c' items,
          p'.compileStatement ⟨label, .query (everything name l l')⟩ = .ok c' ∧
          c'.plan = .project items (.source name none (.ofRelation name schema.toColumns)) schema) ∧
      ∀ i f, schema.fields[i]? = some f → ∀ l,
        schema.resolve ⟨none, f.name⟩ l = .ok (f, i) ∧
        (Schema.ofRelation name schema.toColumns).resolve ⟨none, f.name⟩ l =
          .ok (⟨some name, f.name, f.type⟩, i) := by
  obtain ⟨input, schema, hplan, hapart, hqualifiers⟩ := sink_of_create hst hc
  have hapart' : (Schema.ofRelation name schema.toColumns).Apart := by
    simpa [Schema.Apart, Schema.ofRelation, Schema.toColumns, Function.comp_def] using hapart
  refine ⟨input, schema, hplan, ?_, fun p' hcatalog hconfig label l l' => ?_, fun i f hi l => ⟨?_, ?_⟩⟩
  · simp [adopt, Compiled.created?, hplan, Catalog.withRelation]
  · have hlookup : p'.catalog.lookup name = some schema.toColumns := by
      rw [hcatalog, Catalog.lookup_withRelation, Text.sameName_refl, if_pos rfl]
    obtain ⟨c', hc', hplan'⟩ :=
      compileStatement_everything hlookup hapart' (Config.maxDepth_pos hconfig) label l l'
    rw [everythingPlan, fields_toColumns hqualifiers] at hplan'
    exact ⟨c', _, hc', hplan'⟩
  · exact Schema.resolve_of_apart hapart hi l
  · refine Schema.resolve_of_apart (f := ⟨some name, f.name, f.type⟩) hapart' ?_ l
    simp [Schema.ofRelation, Schema.toColumns, hi]

/-- `CREATE TABLE buyers WITH (...) AS SELECT O.*, NAME, 1 + O.ID FROM orders o INNER JOIN people p ON
    O.Buyer = P.ID` -/
def buyers : Prepared where
  text := "CREATE TABLE buyers WITH (KAFKA_TOPIC = 'buyers') AS SELECT O.*, NAME, 1 + O.ID " ++
    "FROM orders o INNER JOIN people p ON O.Buyer = P.ID"
  statement := .create .table "buyers" [("KAFKA_TOPIC", "buyers")] {
    select := [.all (some "O") none, .expr (.col "NAME") none,
      .expr (.arith none (.lit (.integer 1)) .add (.qualifiedCol "O" "ID")) none]
    source := .join .inner ⟨"orders", some "o", none⟩ ⟨"people", some "p", none⟩
      (.compare none (.qualifiedCol "O" "Buyer") .eq (.qualifiedCol "P" "ID")) }

def buyersSchema : Schema :=
  ⟨[⟨none, "o_id", .int32⟩, ⟨none, "o_buyer", .int32⟩, ⟨none, "p_Name", .utf8⟩,
    ⟨none, "KSQL_COL_3", .int32⟩]⟩

def market : Planner where
  catalog := Analysis.orders
  functions := ⟨[]⟩
  config := { maxDepth := 4 }

/-- Names of fields that are joined and a generated name become names of columns. -/
theorem compileStatement_created_buyers :
    ∃ c c' items, market.compileStatement buyers = .ok c ∧
      (market.adopt c).1.compileStatement
        ⟨"SELECT * FROM buyers", .query (everything "buyers" none none)⟩ = .ok c' ∧
      c'.plan = .project items (.source "buyers" none (.ofRelation "buyers" buyersSchema.toColumns))
        buyersSchema ∧
      buyersSchema.resolve ⟨none, "KSQL_COL_3"⟩ .unknown = .ok (⟨none, "KSQL_COL_3", .int32⟩, 3) := by
  have hview : (fun c => c.plan.schema) <$> market.compileStatement buyers = .ok buyersSchema := rfl
  obtain ⟨c, hc, hview⟩ := map_eq_ok.mp hview
  obtain ⟨input, schema, hplan, hadopt, hread, hfound⟩ := compileStatement_created rfl hc
  rw [hplan, Plan.schema] at hview
  subst hview
  obtain ⟨c', items, hc', hplan'⟩ := hread _ (congrArg Planner.catalog hadopt)
    (by rw [hadopt]; rfl) "SELECT * FROM buyers" none none
  exact ⟨c, c', items, hc, hc', hplan', (hfound 3 _ rfl .unknown).1⟩

end Planner

end StreamSql
