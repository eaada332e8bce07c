/-
  Where the depth of the expressions of a statement is decided. Every walk over an expression fails
  with `tooDeep` when it has no levels left; `Shallow x` says that the run `x` does not fail that way,
  whatever else it fails with. Resolving the columns of an expression goes down to every node of it,
  so an analysed statement has no expression above the limit (`height_of_ofStatement`), and none of
  the later walks needs more levels than the limit: what they go over is an expression of the
  analysed statement, a part of one, or one in which aggregate calls became columns. Hence the first
  stage alone decides (`compileStatement_depth`).

  This is about planning without folding constants; folding writes some expressions higher than they
  were.
-/
import StreamSql.Proofs.Analysis.Resolution
import StreamSql.Proofs.Plan.Failures

namespace StreamSql

open Outcome

/-! ## Errors of depth -/

/-- The error says that an expression is too deep. -/
def Error.isTooDeep (e : Error) : Bool :=
  match e.cause with
  | .tooDeep _ => true
  | _ => false

theorem Error.isTooDeep_inStatement (text : String) (e : Error) :
    (e.inStatement text).isTooDeep = e.isTooDeep := by
  cases e <;> rfl

/-- The run does not fail because an expression is too deep. -/
def Shallow {α : Type} (x : Except Error α) : Prop :=
  Fails (fun e => e.isTooDeep = false) x

theorem Error.ordinarily_shallow : Ordinarily fun e => e.isTooDeep = false := by
  intro err h
  cases err with
  | tooDeep | within => cases h
  | _ => rfl

theorem Expr.height_le_of_within {c e : Expr} (h : Within c e) : c.height ≤ e.height := by
  induction h with
  | self => exact Nat.le_refl _
  | @part d e member inner ih =>
      have := height_le_succ.mp (Nat.le_succ_of_le (Nat.le_refl e.height)) d member
      omega

namespace Analysis

variable {catalog : Catalog} {config : Config} {st : Statement} {s : Analysis} {schema : Schema}
  {e e' : Expr} {limit n : Nat}

/-- Only columns are replaced, and a column is one level: the walk went down to every node. -/
theorem height_le_of_resolved (h : Expr.replaceWithin limit (spell schema) n e = .ok e') :
    e.height ≤ n := by
  induction n generalizing e e' with
  | zero => cases h
  | succ n ih =>
      rcases resolved_iff.mp h with ⟨l, c, _, _, rfl, _, _⟩ | ⟨_, hparts⟩
      · simp [Expr.height]
      · rw [Expr.height_le_succ]
        intro c hc
        obtain ⟨c', _, hc'⟩ := exists_right hparts.children hc
        exact ih hc'

theorem shallow_ofStatement (h : ∀ e ∈ st.body.clauses, e.height ≤ config.maxDepth) :
    Shallow (ofStatement catalog config st) :=
  fails_ofStatement Error.ordinarily_shallow fun e he => .inl (h e he)

/-- A statement that was analysed has no expression above the limit. -/
theorem height_of_ofStatement (h : ofStatement catalog config st = .ok s)
    (he : e ∈ st.body.clauses) : e.height ≤ config.maxDepth := by
  obtain ⟨hrelation, hselect, hfilter, hgroupBy, hhaving, _⟩ := ofStatement_eq_ok.mp h
  simp only [Query.clauses, List.mem_append, or_assoc] at he
  rcases he with he | he | he | he | he
  · obtain ⟨item, hitem, hexpr⟩ := List.mem_filterMap.mp he
    cases item with
    | expr d aliasName =>
        cases hexpr
        obtain ⟨_, _, hr⟩ := exists_mem_selectList hselect hitem
        exact height_le_of_resolved hr
    | all q l => cases hexpr
  · obtain ⟨_, _, hr⟩ := exists_right (forall₂_toList hfilter) he
    exact height_le_of_resolved hr
  · obtain ⟨_, _, hr⟩ := exists_right hgroupBy he
    exact height_le_of_resolved hr
  · obtain ⟨_, _, hr⟩ := exists_right (forall₂_toList hhaving) he
    exact height_le_of_resolved hr
  · rcases relation_inv hrelation with
      ⟨_, _, hr, _⟩ | ⟨_, _, _, _, _, _, _, hr, _, _, _, _, _, _, hon⟩
    · simp [hr, Relation.criteria?] at he
    · rw [hr, Relation.criteria?, Option.toList_some, List.mem_singleton] at he
      rw [he]
      exact height_le_of_resolved hon

end Analysis

/-! ## The later stages -/

namespace Aggregation

variable {functions : Registry} {config : Config} {s : Analysis} {a : Aggregation} {e : Expr}

theorem shallow_ofAnalysis (h : ∀ e ∈ s.clauses, e.height ≤ config.maxDepth) :
    Shallow (ofAnalysis functions config s) :=
  fails_ofAnalysis Error.ordinarily_shallow fun e he => .inl (h e (Analysis.mem_clauses he))

theorem within_of_outermost {call : Expr} (h : Outermost functions call e) :
    Expr.Within call e := by
  induction h with
  | self => exact .self
  | part _ member _ ih => exact .part member ih

/-- What is evaluated on groups is no higher than the limit, nor are the calls. -/
theorem height_of_ofAnalysis (ha : ofAnalysis functions config s = .ok a)
    (h : ∀ e ∈ s.clauses, e.height ≤ config.maxDepth) :
    (∀ e ∈ a.final ++ a.having.toList, e.height ≤ config.maxDepth) ∧
      ∀ entry ∈ a.calls, entry.call.height ≤ config.maxDepth := by
  have hcomplete := complete_of_ofAnalysis ha
  constructor
  · intro e' he'
    exact height_of_rewritten (hcomplete.stable e' he')
  · intro entry hentry
    obtain ⟨e, he, hcall⟩ := hcomplete.made entry hentry
    have hheight := Expr.height_le_of_within (within_of_outermost hcall)
    exact Nat.le_trans hheight (h e (Analysis.mem_clauses he))

end Aggregation

namespace Planner

variable {p : Planner} {s : Analysis} {a : Aggregation} {input : Plan} {e : Expr}

theorem shallow_build (hn : 0 < p.config.maxDepth) (hf : p.config.foldConstants = false)
    (h : ∀ e ∈ s.clauses, e.height ≤ p.config.maxDepth)
    (ha : Aggregation.ofAnalysis p.functions p.config s = .ok a) : Shallow (p.build s a) := by
  obtain ⟨hfinal, hcalls⟩ := Aggregation.height_of_ofAnalysis ha h
  refine fails_build Error.ordinarily_shallow (.inl hn) (.inl hf) (fun e he => .inl (h e ?_))
    (fun e he => .inl (hfinal e he)) fun entry hentry => .inl (hcalls entry hentry)
  simp only [List.mem_append] at he
  simp only [Analysis.clauses, List.mem_append]
  tauto

/-! ## Statements -/

theorem compileStatement_of_error {text : Prepared} {err : Error}
    (h : Analysis.ofStatement p.catalog p.config text.statement = .error err) :
    p.compileStatement text = .error (err.inStatement text.text) := by
  have hstages : p.stages text = .error err := by
    unfold stages
    rw [h]
    rfl
  unfold compileStatement
  rw [hstages]

/-- **The depth of expressions is decided once.** If no expression of a statement is above the
    limit, nothing fails because of depth; if one is, its analysis fails and with it the whole
    statement; and what comes after the analysis never fails because of depth. -/
theorem compileStatement_depth (hconfig : p.config.validate = .ok p.config)
    (hf : p.config.foldConstants = false) (text : Prepared) :
    ((∀ e ∈ text.statement.body.clauses, e.height ≤ p.config.maxDepth) →
      Shallow (Analysis.ofStatement p.catalog p.config text.statement) ∧
        Shallow (p.compileStatement text)) ∧
    ((∃ e ∈ text.statement.body.clauses, p.config.maxDepth < e.height) →
      ∃ err, Analysis.ofStatement p.catalog p.config text.statement = .error err ∧
        p.compileStatement text = .error (err.inStatement text.text)) ∧
    ∀ s, Analysis.ofStatement p.catalog p.config text.statement = .ok s →
      Shallow (Aggregation.ofAnalysis p.functions p.config s) ∧
        ∀ a, Aggregation.ofAnalysis p.functions p.config s = .ok a → Shallow (p.build s a) := by
  have hn := Config.maxDepth_pos hconfig
  have hlater : ∀ s, Analysis.ofStatement p.catalog p.config text.statement = .ok s →
      Shallow (Aggregation.ofAnalysis p.functions p.config s) ∧
        ∀ a, Aggregation.ofAnalysis p.functions p.config s = .ok a → Shallow (p.build s a) := by
    intro s hs
    have hclauses : ∀ e ∈ s.clauses, e.height ≤ p.config.maxDepth := fun e he =>
      (Analysis.resolved_of_clauses hs hn he).1
    exact ⟨Aggregation.shallow_ofAnalysis hclauses, fun a ha => shallow_build hn hf hclauses ha⟩
  refine ⟨fun hheight => ?_, fun ⟨e, he, hhigh⟩ => ?_, hlater⟩
  · have hs : Shallow (Analysis.ofStatement p.catalog p.config text.statement) :=
      Analysis.shallow_ofStatement hheight
    refine ⟨hs, ?_⟩
    have hstages : Shallow (p.stages text) := hs.seq fun s hs =>
      (hlater s hs).1.seq fun a ha => ((hlater s hs).2 a ha).bind fun _ => .ok
    intro err herr
    unfold compileStatement at herr
    cases hresult : p.stages text with
    | ok c =>
        rw [hresult] at herr
        cases herr
    | error cause =>
        rw [hresult] at herr
        cases herr
        rw [Error.isTooDeep_inStatement]
        exact hstages cause hresult
  · cases hs : Analysis.ofStatement p.catalog p.config text.statement with
    | error err => exact ⟨err, rfl, compileStatement_of_error hs⟩
    | ok s =>
        have := Analysis.height_of_ofStatement hs he
        omega

def visits (depth : Nat) : Planner where
  catalog := ⟨[("visits", [⟨"page", .utf8, true⟩])]⟩
  functions := ⟨[("COUNT", (Signature.aggregate "COUNT" (.fixed .int64)).withWildcard)]⟩
  config := { maxDepth := depth, foldConstants := false }

def visitsCount : Expr :=
  .call none "COUNT" [.wildcard none] false

def visitsQuery : Prepared where
  text := "SELECT page, COUNT(*) FROM visits GROUP BY page HAVING COUNT(*) > 9"
  statement := .query {
    select := [.expr (.col "page") none, .expr visitsCount none]
    source := .table ⟨"visits", none, none⟩
    groupBy := [.col "page"]
    having := some (.compare none visitsCount .gt (.lit (.integer 9))) }

/-- The condition on groups has three levels. The lowest is the `*`, which no type and no column
    depends on; with a limit of two the statement fails all the same, and at once. -/
theorem compileStatement_depth_visits :
    (visits 3).config.validate = .ok (visits 3).config ∧
      visitsQuery.statement.body.clauses.map Expr.height = [1, 2, 1, 3] ∧
      Shallow ((visits 3).compileStatement visitsQuery) ∧
      (∃ c, (visits 3).compileStatement visitsQuery = .ok c) ∧
      (visits 2).compileStatement visitsQuery = .error (.within visitsQuery.text (.tooDeep 2)) := by
  have hheight : visitsQuery.statement.body.clauses.map Expr.height = [1, 2, 1, 3] := rfl
  have hplan : (fun _ => ()) <$> (visits 3).compileStatement visitsQuery = .ok () := by
    with_unfolding_all rfl
  obtain ⟨c, hc, _⟩ := map_eq_ok.mp hplan
  have hfits : ∀ e ∈ visitsQuery.statement.body.clauses, e.height ≤ 3 := by
    intro e he
    have hmem : e.height ∈ [1, 2, 1, 3] := hheight ▸ List.mem_map_of_mem he
    simp only [List.mem_cons, List.not_mem_nil, or_false] at hmem
    omega
  have hhigh : ∃ e ∈ visitsQuery.statement.body.clauses, 2 < e.height :=
    ⟨.compare none visitsCount .gt (.lit (.integer 9)), by simp [Query.clauses, visitsQuery,
      Statement.body], by decide⟩
  obtain ⟨hlow, _, _⟩ := compileStatement_depth (p := visits 3) rfl rfl visitsQuery
  obtain ⟨_, hfails, _⟩ := compileStatement_depth (p := visits 2) rfl rfl visitsQuery
  obtain ⟨err, herr, hcompile⟩ := hfails hhigh
  have hanalysis : Analysis.ofStatement (visits 2).catalog (visits 2).config
      visitsQuery.statement = .error (.tooDeep 2) := rfl
  rw [hanalysis] at herr
  cases herr
  exact ⟨rfl, hheight, (hlow hfits).2, ⟨c, hc⟩, hcompile⟩

end Planner

end StreamSql
