/-
  What the stages from a statement to its plan fail with. As for the walks over expressions, a
  property of errors holds of whatever a stage fails with if it holds of the ordinary errors, and if
  the expressions that the stage goes over are within the limit or the property holds of `tooDeep`
  too. There is one lemma for each step of the analysis (`fails_ofStatement`), for the search for
  aggregate calls (`fails_ofAnalysis`) and for each step of planning (`fails_build`).

  Two properties are of interest: not to be about depth, which needs the expressions to be within the
  limit, and not to be tied to a statement yet (`bare_stages`), which needs nothing.
-/
import StreamSql.Compile
import StreamSql.Proofs.Aggregation.Columns
import StreamSql.Proofs.Analysis
import StreamSql.Proofs.Expr.Failures
import StreamSql.Proofs.Plan.Stages

namespace StreamSql

open Outcome

/-! ## The expressions of a query -/

def SelectItem.expr? : SelectItem → Option Expr
  | .expr e _ => some e
  | .all _ _ => none

def Relation.criteria? : Relation → Option Expr
  | .table _ => none
  | .join _ _ _ e => some e

/-- The expressions of a query as they are written: its select list, its conditions and its
    grouping. -/
def Query.clauses (q : Query) : List Expr :=
  q.select.filterMap SelectItem.expr? ++ q.filter.toList ++ q.groupBy ++ q.having.toList ++
    q.source.criteria?.toList

variable {P : Error → Prop} (hP : Error.Ordinarily P)

include hP

/-! ## Analysis -/

namespace Analysis

variable {catalog : Catalog} {config : Config} {st : Statement} {schema : Schema} {e : Expr}
  {limit : Nat}

theorem fails_spell : Fails P (spell schema e) := by
  unfold spell
  split
  · exact .bind (schema.fails_resolve hP _ _) fun _ => .ok
  · exact .ok

theorem fails_resolve (h : e.Spared P limit limit) : Fails P (resolve limit schema e) :=
  Expr.fails_replaceWithin (fun _ => fails_spell hP) h

theorem fails_source (t : TableRef) : Fails P (source catalog t) := by
  unfold source
  split
  · exact .ok
  · exact hP.error rfl

theorem fails_relation {r : Relation}
    (h : ∀ e ∈ r.criteria?.toList, e.Spared P config.maxDepth config.maxDepth) :
    Fails P (relation catalog config r) := by
  cases r with
  | table t => exact .bind (fails_source hP t) fun _ => .ok
  | join type left right on =>
      refine .bind (fails_source hP left) fun l => .bind (fails_source hP right) fun r => ?_
      refine .ite (hP.error rfl) ?_
      exact .bind (fails_resolve hP (h on (by simp [Relation.criteria?]))) fun _ => .ok

theorem fails_selectItem {joined : Bool} {place : Nat} {item : SelectItem}
    (h : ∀ e ∈ item.expr?.toList, e.Spared P config.maxDepth config.maxDepth) :
    Fails P (selectItem config schema joined place item) := by
  cases item with
  | expr e aliasName =>
      refine .bind (fails_resolve hP (h e (by simp [SelectItem.expr?]))) fun e' => ?_
      split
      · exact .ok
      · exact .bind (schema.fails_resolve hP _ _) fun _ => .ok
      · exact .ok
  | all q l =>
      cases q with
      | none => exact .ok
      | some q => exact .ite (hP.error rfl) .ok

theorem fails_selectList {joined : Bool} {items : List SelectItem}
    (h : ∀ e ∈ items.filterMap SelectItem.expr?, e.Spared P config.maxDepth config.maxDepth) :
    Fails P (selectList config schema joined items) := by
  refine .bind (.foldlM fun item hitem done => ?_) fun done => ?_
  · refine .bind (fails_selectItem hP fun e he => h e ?_) fun _ => .ok
    exact List.mem_filterMap.mpr ⟨item, hitem, Option.mem_toList.mp he⟩
  · obtain ⟨exprs, names⟩ := done
    dsimp only
    split
    · exact hP.error rfl
    · exact .ok

theorem fails_target : Fails P (target catalog st) := by
  cases st with
  | query q => exact .ok
  | create kind name ps q => exact .ite (hP.error rfl) .ok
  | insert name q => exact .ite .ok (hP.error rfl)

theorem fails_ofStatement
    (h : ∀ e ∈ st.body.clauses, e.Spared P config.maxDepth config.maxDepth) :
    Fails P (ofStatement catalog config st) := by
  simp only [Query.clauses, List.forall_mem_append] at h
  obtain ⟨⟨⟨⟨hselect, hfilter⟩, hgroupBy⟩, hhaving⟩, hjoin⟩ := h
  exact .bind (fails_relation hP hjoin) fun _ =>
    .bind (fails_selectList hP hselect) fun _ =>
    .bind (.option_mapM fun e he => fails_resolve hP (hfilter e he)) fun _ =>
    .bind (.mapM fun e he => fails_resolve hP (hgroupBy e he)) fun _ =>
    .bind (.option_mapM fun e he => fails_resolve hP (hhaving e he)) fun _ =>
    .bind (fails_target hP) fun _ => .ok

end Analysis

/-! ## Aggregate calls -/

namespace Aggregation

variable {functions : Registry} {config : Config} {s : Analysis} {e : Expr}

theorem fails_scan (h : e.Spared P config.maxDepth config.maxDepth) :
    Fails P (scan functions config e) :=
  fails_scanWithin hP h

theorem fails_ofAnalysis
    (h : ∀ e ∈ s.exprs ++ s.having.toList, e.Spared P config.maxDepth config.maxDepth) :
    Fails P (ofAnalysis functions config s) := by
  intro err herr
  obtain ⟨e, he, hscan⟩ := scan_of_error herr
  exact fails_scan hP (h e he) err hscan

end Aggregation

/-! ## Planning -/

namespace Planner

variable {p : Planner} {s : Analysis} {a : Aggregation} {input : Plan} {e : Expr}

omit hP in
theorem fails_fold (h : p.config.foldConstants = false ∨ P (.tooDeep p.config.maxDepth)) :
    Fails P (p.fold e) := by
  rcases h with h | h
  · rw [(fold_eq_ok h).mpr rfl]
    exact .ok
  · exact .ite (Expr.fails_simplifyWithin h) .ok

theorem fails_aggregates (h : e.Spared P p.config.maxDepth p.config.maxDepth) :
    Fails P (p.aggregates e) :=
  .bind (Aggregation.fails_scan hP h) fun _ => .ok

theorem fails_keys (on : Expr) : Fails P (keys on) := by
  unfold keys
  split
  · exact .ite .ok (hP.error rfl)
  · exact hP.error rfl

omit hP in
/-- The sides of the criteria are columns, so that any limit is enough for their types. -/
theorem height_of_keys {on b c : Expr} (h : keys on = .ok (b, c)) :
    b.height = 1 ∧ c.height = 1 := by
  obtain ⟨_, _, hb, hc⟩ := keys_eq_ok.mp h
  have hcolumn : ∀ e : Expr, e.column?.isSome = true → e.height = 1 := by
    intro e he
    cases e with
    | column l c => rfl
    | _ => simp [Expr.column?] at he
  exact ⟨hcolumn b hb, hcolumn c hc⟩

theorem fails_keyPlace (schema : Schema) (key : Expr) : Fails P (keyPlace schema key) := by
  unfold keyPlace
  split
  · exact .bind (schema.fails_resolve hP _ _) fun _ => .ok
  · exact hP.error rfl

theorem fails_joinPlan (hn : 0 < p.config.maxDepth ∨ P (.tooDeep p.config.maxDepth)) (j : JoinInfo)
    (left right : Source) : Fails P (p.joinPlan j left right) := by
  refine .seq (fails_keys hP _) fun keys hkeys => ?_
  obtain ⟨b, c⟩ := keys
  obtain ⟨hb, hc⟩ := height_of_keys hkeys
  have hkey : ∀ e : Expr, e.height = 1 → ∀ schema, Fails P (p.typing.infer schema e) := by
    intro e he schema
    exact Typing.fails_infer hP (hn.imp_left fun hn => by rw [he]; exact hn)
  refine .bind (fails_keyPlace hP _ _) fun ib => .bind (fails_keyPlace hP _ _) fun ic => ?_
  -- the keys as they are written, or exchanged
  refine .ite ?_ (.ite ?_ (hP.error rfl))
  · refine .seq .ok fun sides hsides => ?_
    cases hsides
    exact .bind (hkey b hb _) fun _ => .bind (hkey c hc _) fun _ => .ite (hP.error rfl) .ok
  · refine .seq .ok fun sides hsides => ?_
    cases hsides
    exact .bind (hkey c hc _) fun _ => .bind (hkey b hb _) fun _ => .ite (hP.error rfl) .ok

theorem fails_sources (hn : 0 < p.config.maxDepth ∨ P (.tooDeep p.config.maxDepth)) :
    Fails P (p.sources s) := by
  unfold sources
  split
  · exact .ok
  · exact fails_joinPlan hP hn _ _ _
  · exact hP.error rfl

theorem fails_filtered (hf : p.config.foldConstants = false ∨ P (.tooDeep p.config.maxDepth))
    (h : ∀ e ∈ s.filter.toList, e.Spared P p.config.maxDepth p.config.maxDepth) :
    Fails P (p.filtered s input) := by
  unfold filtered
  split
  · exact .ok
  · rename_i e he
    have hspared := h e (by simp [he])
    refine .bind (fails_aggregates hP hspared) fun aggregates => .ite (hP.error rfl) ?_
    exact .bind (Typing.fails_checkPredicate hP hspared) fun _ => .bind (fails_fold hf) fun _ => .ok

theorem fails_keyColumns (schema : Schema) (groupBy : List Expr) :
    Fails P (keyColumns schema groupBy) := by
  refine .bind (.mapM fun key _ => ?_) fun _ => .ok
  split
  · exact .bind (schema.fails_resolve hP _ _) fun _ => .ok
  · exact .ok

theorem fails_checkGrouped {schema : Schema} {groupBy : List Expr} {places : List Nat}
    (h : e.Spared P p.config.maxDepth p.config.maxDepth) :
    Fails P (p.checkGrouped a schema groupBy places e) := by
  refine .ite .ok (.bind (Expr.fails_columnsWithin h) fun columns => .forM fun column _ => ?_)
  refine .ite .ok (.bind (schema.fails_resolve hP _ _) fun _ => .ite .ok ?_)
  exact hP.error rfl

theorem fails_grouped
    (hkeys : ∀ e ∈ s.groupBy, e.Spared P p.config.maxDepth p.config.maxDepth)
    (hfinal : ∀ e ∈ a.final ++ a.having.toList, e.Spared P p.config.maxDepth p.config.maxDepth)
    (hcalls : ∀ entry ∈ a.calls, entry.call.Spared P p.config.maxDepth p.config.maxDepth) :
    Fails P (p.grouped s a input) := by
  refine .bind (.forM fun key hkey => ?_) fun _ => .bind (fails_keyColumns hP _ _) fun places =>
    .bind (.forM fun e he => fails_checkGrouped hP (hfinal e he)) fun _ =>
    .bind (.mapM fun entry hentry => ?_) fun _ => .ok
  · refine .bind (fails_aggregates hP (hkeys key hkey)) fun aggregates => .ite (hP.error rfl) ?_
    exact .discard (Typing.fails_infer hP (hkeys key hkey))
  · exact .bind (Typing.fails_infer hP (hcalls entry hentry)) fun _ => .ok

theorem fails_havingFiltered
    (h : ∀ e ∈ a.having.toList, e.Spared P p.config.maxDepth p.config.maxDepth) :
    Fails P (p.havingFiltered a input) := by
  unfold havingFiltered
  split
  · exact .ok
  · rename_i e he
    exact .bind (Typing.fails_checkPredicate hP (h e (by simp [he]))) fun _ => .ok

theorem fails_projected (hf : p.config.foldConstants = false ∨ P (.tooDeep p.config.maxDepth))
    {exprs : List Expr} {names : List String}
    (h : ∀ e ∈ exprs, e.Spared P p.config.maxDepth p.config.maxDepth) :
    Fails P (p.projected exprs names input) := by
  refine .ite (hP.error rfl) (.bind (.mapM fun item hitem => ?_) fun _ => .ok)
  have hspared := h item.1 (List.of_mem_zip hitem).1
  exact .bind (Typing.fails_infer hP hspared) fun _ => .bind (fails_fold hf) fun _ => .ok

theorem fails_sunk : Fails P (p.sunk s input) := by
  unfold sunk
  split
  · exact .ok
  · exact .ok
  · split
    · exact hP.error rfl
    · refine .bind (.ite (hP.error rfl) (.forM fun _ _ => ?_)) fun _ => .ok
      exact .ite .ok (hP.error rfl)

theorem fails_build (hn : 0 < p.config.maxDepth ∨ P (.tooDeep p.config.maxDepth))
    (hf : p.config.foldConstants = false ∨ P (.tooDeep p.config.maxDepth))
    (hrows : ∀ e ∈ s.filter.toList ++ s.groupBy ++ s.exprs,
      e.Spared P p.config.maxDepth p.config.maxDepth)
    (hfinal : ∀ e ∈ a.final ++ a.having.toList, e.Spared P p.config.maxDepth p.config.maxDepth)
    (hcalls : ∀ entry ∈ a.calls, entry.call.Spared P p.config.maxDepth p.config.maxDepth) :
    Fails P (p.build s a) := by
  simp only [List.forall_mem_append] at hrows
  obtain ⟨⟨hfilter, hkeys⟩, hexprs⟩ := hrows
  obtain ⟨hselect, hhaving⟩ := List.forall_mem_append.mp hfinal
  refine .bind (fails_sources hP hn) fun base => .bind (fails_filtered hP hf hfilter) fun rows =>
    .ite ?_ ?_
  · exact .bind (fails_grouped hP hkeys hfinal hcalls) fun _ =>
      .bind (fails_havingFiltered hP hhaving) fun _ =>
      .bind (fails_projected hP hf hselect) fun _ => fails_sunk hP
  · refine .ite (hP.error rfl) ?_
    split
    · exact hP.error rfl
    · exact .bind (fails_projected hP hf hexprs) fun _ => fails_sunk hP

end Planner

omit hP

/-! ## Errors before they are tied to a statement -/

/-- The error is not tied to a statement. -/
def Error.Bare (e : Error) : Prop :=
  e.statement? = none

theorem Error.ordinarily_bare : Ordinarily Bare := by
  intro err h
  cases err with
  | within => cases h
  | _ => rfl

theorem Error.Bare.cause_eq {e : Error} (h : e.Bare) : e.cause = e := by
  cases e with
  | within => cases h
  | _ => rfl

theorem Error.Bare.inStatement_eq {e : Error} (h : e.Bare) (text : String) :
    e.inStatement text = .within text e := by
  cases e with
  | within => cases h
  | _ => rfl

/-- No stage ties its errors to a statement. -/
theorem Planner.bare_stages (p : Planner) (s : Prepared) : Fails Error.Bare (p.stages s) := by
  have hdeep : Error.Bare (.tooDeep p.config.maxDepth) := rfl
  have hspared : ∀ e : Expr, e.Spared Error.Bare p.config.maxDepth p.config.maxDepth := fun _ =>
    .inr hdeep
  refine .bind (Analysis.fails_ofStatement Error.ordinarily_bare fun e _ => hspared e) fun a =>
    .bind (Aggregation.fails_ofAnalysis Error.ordinarily_bare fun e _ => hspared e) fun g =>
    .bind ?_ fun _ => .ok
  exact fails_build Error.ordinarily_bare (.inr hdeep) (.inr hdeep) (fun e _ => hspared e)
    (fun e _ => hspared e) fun entry _ => hspared entry.call

end StreamSql
