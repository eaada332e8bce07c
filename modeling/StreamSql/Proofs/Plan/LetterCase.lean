/-
  The case of the letters in the columns of a statement. Two statements that differ in it, and in
  nothing else, are planned alike (`compileStatement_letterCase`): they have one analysis and one
  plan, or both fail with errors of one variant.

  Everything after the analysis compares names letter by letter: the texts of aggregate calls, the
  keys of a GROUP BY, the columns of calls. It does not have to be gone through again, because the
  analysis spells each column as its relation does, and so the two analyses are equal.
-/
import StreamSql.Compile
import StreamSql.Proofs.Analysis.Respelling

namespace StreamSql

open Outcome

/-! ## Names in small letters -/

/-- The column with its qualifier and its name in small letters. -/
def ColumnRef.lower (c : ColumnRef) : ColumnRef :=
  ⟨c.qualifier.map Text.lower, Text.lower c.name⟩

/-- Columns and the qualifiers of `q.*` in small letters. -/
def Respelling.lower : Respelling where
  position := id
  column := ColumnRef.lower
  all := Text.lower

/-- Everything as it is written. -/
def Respelling.verbatim : Respelling where
  position := id
  column := id
  all := id

/-- The errors are of one variant, and both or neither is tied to a statement. -/
def Error.SameVariant (e e' : Error) : Prop :=
  e.statement?.isSome = e'.statement?.isSome ∧ e.cause.ctorIdx = e'.cause.ctorIdx

theorem Error.coarse_sameVariant : Analysis.Coarse Error.SameVariant where
  refl _ := ⟨rfl, rfl⟩
  relation _ _ _ _ := ⟨rfl, rfl⟩

theorem Error.SameVariant.inStatement {e e' : Error} (h : e.SameVariant e') (text text' : String) :
    (e.inStatement text).SameVariant (e'.inStatement text') := by
  have hcause : ∀ (e : Error) text, (e.inStatement text).cause = e.cause := by
    intro e text
    cases e <;> rfl
  have htied : ∀ (e : Error) text, (e.inStatement text).statement?.isSome = true := by
    intro e text
    cases e <;> rfl
  refine ⟨?_, ?_⟩
  · rw [htied, htied]
  · rw [hcause, hcause, h.2]

/-! ## Columns -/

/-- A field answers to a column however the letters of the column are written. -/
theorem Field.answers_of_lower {c c' : ColumnRef} (h : c.lower = c'.lower) (f : Field) :
    f.answers c = f.answers c' := by
  obtain ⟨q, name⟩ := c
  obtain ⟨q', name'⟩ := c'
  simp only [ColumnRef.lower, ColumnRef.mk.injEq] at h
  obtain ⟨hqualifier, hname⟩ := h
  have hnames : ∀ a, Text.sameName a name = Text.sameName a name' := by
    intro a
    rw [Text.sameName, Text.sameName, hname]
  cases option_map_eq_map_iff.mp hqualifier with
  | none => simp [answers, hnames]
  | @some q q' hq =>
      have hisOf : f.isOf q = f.isOf q' := by
        unfold isOf Text.sameName
        rw [hq]
      simp [answers, hnames, hisOf]

theorem Field.spelling_of_lower {c c' : ColumnRef} (h : c.lower = c'.lower) {f : Field}
    (ha : f.answers c = true) : f.spelling c = f.spelling c' := by
  obtain ⟨q, name⟩ := c
  obtain ⟨q', name'⟩ := c'
  simp only [ColumnRef.lower, ColumnRef.mk.injEq] at h
  cases option_map_eq_map_iff.mp h.1 with
  | none => rfl
  | some =>
      -- a field without a qualifier does not answer to a column with one
      cases hf : f.qualifier with
      | none => simp [answers, isOf, hf] at ha
      | some => simp [spelling, hf]

theorem Schema.alike_resolve_of_lower {c c' : ColumnRef} (h : c.lower = c'.lower) (s : Schema)
    (l l' : Location) : Alike Error.SameVariant Eq (s.resolve c l) (s.resolve c' l') := by
  have hcandidates : s.candidates c = s.candidates c' := by
    unfold candidates
    exact congrArg (List.filter · _) (funext fun x => x.1.answers_of_lower h)
  have hunknown : (c.qualifier.filter fun q => !s.hasQualifier q).isSome =
      (c'.qualifier.filter fun q => !s.hasQualifier q).isSome := by
    obtain ⟨q, name⟩ := c
    obtain ⟨q', name'⟩ := c'
    simp only [ColumnRef.lower, ColumnRef.mk.injEq] at h
    cases option_map_eq_map_iff.mp h.1 with
    | none => rfl
    | @some q q' hq =>
        have hhas : s.hasQualifier q = s.hasQualifier q' := by
          unfold hasQualifier Field.isOf Text.sameName
          rw [hq]
        simp only [Option.filter_some, hhas]
        split <;> rfl
  unfold resolve
  rw [hcandidates]
  generalize c.qualifier.filter _ = unknown at hunknown
  generalize c'.qualifier.filter _ = unknown' at hunknown
  cases unknown with
  | some =>
      cases unknown' with
      | none => cases hunknown
      | some => exact .error ⟨rfl, rfl⟩
  | none =>
      cases unknown' with
      | some => cases hunknown
      | none =>
          cases s.candidates c' with
          | nil => exact .error ⟨rfl, rfl⟩
          | cons x xs =>
              cases xs with
              | nil => exact .ok rfl
              | cons => exact .error ⟨rfl, rfl⟩

theorem Analysis.uniform_lower (schema : Schema) :
    Uniform Error.SameVariant .lower .verbatim schema where
  found h := schema.alike_resolve_of_lower h
  spelled h _ ha := Field.spelling_of_lower h ha
  refound h := schema.alike_resolve_of_lower (congrArg ColumnRef.lower h)
  qualifier h := h

/-! ## Statements -/

theorem Analysis.respell_verbatim (s : Analysis) : s.respell .verbatim = s := by
  have hexpr : Expr.respell .verbatim = id := funext (Expr.respell_self rfl rfl)
  have hjoin : JoinInfo.respell .verbatim = id := by
    funext j
    simp [JoinInfo.respell, hexpr]
  simp [respell, hexpr, hjoin]

theorem Analysis.alike_ofStatement_of_lower {s s' : Statement}
    (h : s.respell .lower = s'.respell .lower) (catalog : Catalog) (config : Config) :
    Alike Error.SameVariant Eq (ofStatement catalog config s) (ofStatement catalog config s') := by
  have halike : Alike Error.SameVariant (fun a a' => a.respell .verbatim = a'.respell .verbatim)
      (ofStatement catalog config s) (ofStatement catalog config s') := by
    refine alike_ofStatement Error.coarse_sameVariant ?_ (fun schema _ => uniform_lower schema) h
    rfl
  simpa only [respell_verbatim] using halike

namespace Planner

/-- One analysis leads to one plan, whatever the text of the statement. -/
theorem alike_stages {p : Planner} {s s' : Prepared}
    (h : Alike Error.SameVariant Eq (Analysis.ofStatement p.catalog p.config s.statement)
      (Analysis.ofStatement p.catalog p.config s'.statement)) :
    Alike Error.SameVariant (fun c c' => c.plan = c'.plan) (p.stages s) (p.stages s') := by
  refine h.bind ?_
  rintro a _ rfl
  refine (Alike.self Error.coarse_sameVariant.refl _).bind ?_
  rintro b _ rfl
  refine (Alike.self Error.coarse_sameVariant.refl _).bind ?_
  rintro plan _ rfl
  exact .ok rfl

/-- Statements that differ only in the case of the letters in their columns, and in the qualifiers of
    their `q.*`, have one analysis and one plan, or fail with errors of one variant. -/
theorem compileStatement_letterCase (p : Planner) {s s' : Prepared}
    (h : s.statement.respell .lower = s'.statement.respell .lower) :
    Alike Error.SameVariant Eq (Analysis.ofStatement p.catalog p.config s.statement)
      (Analysis.ofStatement p.catalog p.config s'.statement) ∧
    Alike Error.SameVariant Eq (Compiled.plan <$> p.compileStatement s)
      (Compiled.plan <$> p.compileStatement s') := by
  have hanalysis := Analysis.alike_ofStatement_of_lower h p.catalog p.config
  refine ⟨hanalysis, ?_⟩
  have hstages := alike_stages hanalysis
  unfold compileStatement
  generalize p.stages s = x at hstages
  generalize p.stages s' = x' at hstages
  cases hstages with
  | ok hplan => exact .ok hplan
  | error he => exact .error (he.inStatement s.text s'.text)

/-- Sums of `v` for each `k`. -/
def sums : Planner where
  catalog := ⟨[("t", [⟨"k", .utf8, true⟩, ⟨"v", .int32, true⟩])]⟩
  functions := ⟨[("SUM", .aggregate "SUM" .widened)]⟩
  config := {}

/-- The query for the sums, with its columns written in this way; `v'` is for HAVING. -/
def sumsQuery (text : String) (k key v v' : ColumnRef) : Prepared where
  text := text
  statement := .query {
    select := [.expr (.column none k) none, .expr (.call none "SUM" [.column none v] false) none]
    source := .table ⟨"t", none, none⟩
    groupBy := [.column none key]
    having := some (.compare none (.call none "SUM" [.column none v'] false) .gt (.lit (.integer 9))) }

def quietQuery : Prepared :=
  sumsQuery "SELECT t.k, SUM(v) FROM t GROUP BY t.k HAVING SUM(v) > 9" ⟨some "t", "k"⟩ ⟨some "t", "k"⟩
    ⟨none, "v"⟩ ⟨none, "v"⟩

def loudQuery : Prepared :=
  sumsQuery "SELECT t.K, SUM(V) FROM t GROUP BY T.k HAVING SUM(v) > 9" ⟨some "t", "K"⟩ ⟨some "T", "k"⟩
    ⟨none, "V"⟩ ⟨none, "v"⟩

theorem compileStatement_letterCase_sums :
    quietQuery.statement.respell .lower = loudQuery.statement.respell .lower ∧
    ∃ plan, plan.operators.map Plan.name = ["Project", "Filter", "Aggregate", "Source"] ∧
      Compiled.plan <$> sums.compileStatement quietQuery = .ok plan ∧
      Compiled.plan <$> sums.compileStatement loudQuery = .ok plan := by
  have hsame : quietQuery.statement.respell .lower = loudQuery.statement.respell .lower := by
    have hk : ColumnRef.lower ⟨some "t", "k"⟩ = ColumnRef.lower ⟨some "t", "K"⟩ := by decide
    have hkey : ColumnRef.lower ⟨some "t", "k"⟩ = ColumnRef.lower ⟨some "T", "k"⟩ := by decide
    have hv : ColumnRef.lower ⟨none, "v"⟩ = ColumnRef.lower ⟨none, "V"⟩ := by decide
    simp only [quietQuery, loudQuery, sumsQuery, Statement.respell, Query.respell, List.map_cons,
      List.map_nil, SelectItem.respell, Expr.respell, Expr.respellList, Respelling.lower, ← hk, ← hkey,
      ← hv]
  refine ⟨hsame, ?_⟩
  have hquiet : (·.plan.operators.map Plan.name) <$> sums.compileStatement quietQuery =
      .ok ["Project", "Filter", "Aggregate", "Source"] := by
    with_unfolding_all rfl
  obtain ⟨c, hc, hnames⟩ := map_eq_ok.mp hquiet
  have halike := (compileStatement_letterCase sums hsame).2
  rw [hc] at halike
  obtain ⟨plan, hplan, rfl⟩ := halike.exists_ok rfl
  exact ⟨c.plan, hnames, by rw [hc]; rfl, hplan⟩

end Planner

end StreamSql
