/-
  Planning statements that are written in different ways. Two analyses that a respelling makes equal,
  over an input that does not tell matching columns apart, are asked the same things: they have the
  same types (`inferWithin_of_matches`), the same calls up to matching (`alike_scanWithin`), they are
  grouped or not together (`groups_of_respell`), and one suits the planner if the other does
  (`Suits.of_respell`).

  The later stages compare what is written, and there the two may part. What they evaluate on groups
  still has the same shape, since a column stands for a call in either: it matches once every column
  is written alike (`matches_of_rewritten`).
-/
import StreamSql.Proofs.Analysis.Respelling
import StreamSql.Proofs.Plan.Conditions

namespace StreamSql

open Outcome

variable {E : Error → Error → Prop} {r : Respelling} {e e' : Expr}

/-! ## Expressions that match -/

theorem Expr.Matches.isWildcard_eq (h : Matches r e e') : e.isWildcard = e'.isWildcard := by
  have hrespell : ∀ e : Expr, (e.respell r).isWildcard = e.isWildcard := by
    intro e
    cases e <;> rfl
  rw [← hrespell e, h, hrespell]

theorem Expr.Matches.position_eq (h : Matches r e e') : r.position e.loc? = r.position e'.loc? := by
  rw [← loc?_respell, h, loc?_respell]

/-- Over a schema that does not tell matching columns apart, matching expressions have one type. -/
theorem Typing.inferWithin_of_matches {t : Typing} {schema : Schema} {n : Nat} {type : DataType}
    (hu : Analysis.Uniform E r r schema) (h : Expr.Matches r e e')
    (htype : t.inferWithin schema n e = .ok type) : t.inferWithin schema n e' = .ok type := by
  induction n generalizing e e' type with
  | zero => cases htype
  | succ n ih =>
      rcases Expr.matches_iff.mp h with ⟨l, c, l', c', rfl, rfl, _, hc⟩ | ⟨_, hno, _, hparts⟩
      · simp only [inferWithin, bind_eq_ok, pure_eq_ok] at htype ⊢
        obtain ⟨found, hfound, rfl⟩ := htype
        obtain ⟨_, hfound', rfl⟩ := (hu.found hc _ (l'.getD .unknown)).exists_ok hfound
        exact ⟨found, hfound', rfl⟩
      · have hcarries : Expr.Congruent (fun c c' => Carries t schema n schema n c' c) e
            (e'.withLoc e.loc?) :=
          hparts.imp fun c c' hc => ⟨hc.isWildcard_eq.symm, fun type => ih hc⟩
        rw [← inferWithin_withLoc e.loc?]
        refine inferWithin_congruent hcarries.flip (fun l c he' => ?_) htype
        rw [← Expr.column?_withLoc e.loc?, he'] at hno
        cases hno

/-- Every column written alike. -/
def Respelling.erased (r : Respelling) : Respelling :=
  { r with column := fun _ => ⟨none, ""⟩ }

namespace Aggregation

variable {functions : Registry} {limit n : Nat} {a a' : Aggregation}

theorem alike_isCall (h : Expr.Matches r e e') :
    Alike (fun _ _ => True) Eq (isCall functions e) (isCall functions e') := by
  rcases Expr.matches_iff.mp h with ⟨l, c, l', c', rfl, rfl, _⟩ | ⟨_, _, _, hparts⟩
  · exact .ok rfl
  · have hcall : Alike (fun _ _ => True) Eq (isCall functions (e'.withLoc e.loc?))
        (isCall functions e') := by
      cases e' with
      | call l name args distinct =>
          simp only [Expr.withLoc, isCall]
          cases functions.lookup name with
          | none => exact .error trivial
          | some => exact .ok rfl
      | _ => exact .ok rfl
    rwa [isCall_congruent hparts] at hcall

/-- The search for calls goes side by side over expressions that match. -/
theorem alike_scanWithin (h : Expr.Matches r e e') :
    Alike (fun _ _ => True) (List.Forall₂ (Expr.Matches r)) (scanWithin functions limit n e)
      (scanWithin functions limit n e') := by
  induction n generalizing e e' with
  | zero => exact .error trivial
  | succ n ih =>
      refine (alike_isCall h).bind ?_
      rintro aggregate _ rfl
      cases aggregate with
      | true => exact .ok (.cons h .nil)
      | false =>
          exact (Alike.mapM h.children fun _ _ => ih).bind fun _ _ hparts =>
            .ok (List.rel_flatten hparts)

/-- A column outside the calls of the one expression has its counterpart in the other. -/
theorem outside_matches (h : Expr.Matches r e e') {l : Option Location} {c : ColumnRef}
    (hc : Outside functions (.column l c) e) :
    ∃ l' c', Outside functions (.column l' c') e' ∧ r.column c = r.column c' := by
  generalize hx : Expr.column l c = x at hc
  induction hc generalizing e' with
  | self =>
      subst hx
      rcases Expr.matches_iff.mp h with ⟨_, _, l', c', he, rfl, _, hcc⟩ | ⟨hno, _⟩
      · cases he
        exact ⟨l', c', .self, hcc⟩
      · cases hno
  | part plain member _ ih =>
      obtain ⟨d', hd', hd⟩ := exists_right h.children member
      obtain ⟨l', c', houtside, hcc⟩ := ih hd
      exact ⟨l', c', .part (mt (isAggregate_matches h).mpr plain) hd' houtside, hcc⟩

/-- What matching expressions are rewritten to matches but for its columns. -/
theorem matches_of_rewritten (h : Expr.Matches r e e') {d d' : Expr}
    (hd : Expr.replaceWithin limit (columnOf functions a) n e = .ok d)
    (hd' : Expr.replaceWithin limit (columnOf functions a') n e' = .ok d') :
    Expr.Matches r.erased d d' := by
  induction n generalizing e e' d d' with
  | zero => cases hd
  | succ n ih =>
      have hsame : IsAggregate functions e ↔ IsAggregate functions e' := isAggregate_matches h
      rcases rewritten_iff.mp hd with ⟨hcall, _, _, rfl⟩ | ⟨hcall, hparts⟩
      · rcases rewritten_iff.mp hd' with ⟨_, _, _, rfl⟩ | ⟨hcall', _⟩
        · exact Expr.matches_iff.mpr (Or.inl ⟨_, _, _, _, rfl, rfl, h.position_eq, rfl⟩)
        · simp [isAggregate_of_isCall hcall, isAggregate_of_isCall hcall'] at hsame
      · rcases rewritten_iff.mp hd' with ⟨hcall', _⟩ | ⟨_, hparts'⟩
        · simp [isAggregate_of_isCall hcall, isAggregate_of_isCall hcall'] at hsame
        · rcases Expr.matches_iff.mp h with ⟨l, c, l', c', rfl, rfl, hl, _⟩ | ⟨hno, hno', hl, hm⟩
          · cases hparts
            cases hparts'
            exact Expr.matches_iff.mpr (Or.inl ⟨_, _, _, _, rfl, rfl, hl, rfl⟩)
          · refine Expr.matches_iff.mpr (Or.inr ⟨hparts.column?_eq.trans hno,
              hparts'.column?_eq.trans hno', ?_, ?_⟩)
            · rw [hparts.loc?_eq, hparts'.loc?_eq]
              exact hl
            · have hforth : Expr.Congruent (fun c d' => ∃ c', Expr.Matches r c c' ∧
                  Expr.replaceWithin limit (columnOf functions a') n c' = .ok d') e
                  (d'.withLoc e.loc?) :=
                hm.comp (hparts'.withLoc e.loc?) fun _ c' _ hc hd' => ⟨c', hc, hd'⟩
              rw [hparts.loc?_eq]
              refine hparts.flip.comp hforth ?_
              rintro d c d' hd ⟨c', hc, hd'⟩
              exact ih hc hd hd'

/-- A statement whose calls were collected was searched for them everywhere. -/
theorem exists_scan_of_ofAnalysis {config : Config} {s : Analysis}
    (h : ofAnalysis functions config s = .ok a) (he : e ∈ s.exprs ++ s.having.toList) :
    ∃ found, scan functions config e = .ok found := by
  simp only [ofAnalysis, bind_eq_ok] at h
  obtain ⟨b, hb, h⟩ := h
  rcases List.mem_append.mp he with he | he
  · obtain ⟨c, c', hstep⟩ := exists_ok_of_foldlM hb he
    obtain ⟨found, hscan, _⟩ := calls_of_addSelect hstep
    exact ⟨found, hscan⟩
  · rw [Option.mem_toList.mp he] at h
    obtain ⟨found, hscan, _⟩ := calls_of_addHaving h
    exact ⟨found, hscan⟩

end Aggregation

/-! ## Analyses that match -/

section

variable {s s' : Analysis} (h : s.respell r = s'.respell r)

include h

namespace Analysis

theorem matches_exprs : List.Forall₂ (Expr.Matches r) s.exprs s'.exprs :=
  map_eq_map_iff.mp (congrArg exprs h)

theorem matches_filter : Option.Rel (Expr.Matches r) s.filter s'.filter :=
  option_map_eq_map_iff.mp (congrArg filter h)

theorem matches_groupBy : List.Forall₂ (Expr.Matches r) s.groupBy s'.groupBy :=
  map_eq_map_iff.mp (congrArg groupBy h)

theorem matches_having : Option.Rel (Expr.Matches r) s.having s'.having :=
  option_map_eq_map_iff.mp (congrArg having h)

theorem matches_read :
    List.Forall₂ (Expr.Matches r) (s.exprs ++ s.having.toList) (s'.exprs ++ s'.having.toList) :=
  List.rel_append (matches_exprs h) (forall₂_toList (matches_having h))

end Analysis

namespace Planner

open Aggregation

variable {p : Planner} {a a' : Aggregation}

omit h in
theorem alike_aggregates (h : Expr.Matches r e e') :
    Alike (fun _ _ => True) Eq (p.aggregates e) (p.aggregates e') := by
  refine (alike_scanWithin h).bind fun found found' hfound => .ok ?_
  cases hfound <;> rfl

/-- The calls of a statement can be collected if those of the other can. -/
theorem exists_ofAnalysis_of_respell (ha : ofAnalysis p.functions p.config s = .ok a) :
    ∃ a', ofAnalysis p.functions p.config s' = .ok a' := by
  cases ha' : ofAnalysis p.functions p.config s' with
  | ok a' => exact ⟨a', rfl⟩
  | error err =>
      obtain ⟨e', he', herror⟩ := scan_of_error ha'
      obtain ⟨e, he, hm⟩ := exists_left (Analysis.matches_read h) he'
      obtain ⟨found, hfound⟩ := exists_scan_of_ofAnalysis ha he
      obtain ⟨found', hfound', _⟩ := (alike_scanWithin hm).exists_ok hfound
      rw [scan, hfound'] at herror
      cases herror

section

variable (ha : ofAnalysis p.functions p.config s = .ok a)
  (ha' : ofAnalysis p.functions p.config s' = .ok a')

include ha ha'

theorem groups_of_respell (hg : groups s a = true) : groups s' a' = true := by
  rw [groups_eq_true_iff ha] at hg
  rw [groups_eq_true_iff ha']
  rcases hg with hkeys | ⟨e, he, hcalls⟩
  · refine Or.inl fun hnil => hkeys ?_
    have hlength := (Analysis.matches_groupBy h).length_eq
    simpa [hnil] using hlength
  · obtain ⟨e', he', hm⟩ := exists_right (Analysis.matches_read h) he
    exact Or.inr ⟨e', he', (callsAggregate_matches hm).mp hcalls⟩

theorem groups_eq_of_respell : groups s a = groups s' a' :=
  Bool.eq_iff_iff.mpr ⟨groups_of_respell h ha ha', groups_of_respell h.symm ha' ha⟩

/-- What is evaluated has the same levels. -/
theorem levels_evaluated :
    List.Forall₂ (fun e e' : Expr => e.levels = e'.levels) (evaluated s a) (evaluated s' a') := by
  refine List.rel_append ?_ ?_
  · exact (forall₂_toList (Analysis.matches_filter h)).imp fun _ _ => Expr.Matches.levels_eq
  · unfold results
    rw [← groups_eq_of_respell h ha ha']
    split
    · have hfinal := (complete_of_ofAnalysis ha).final
      have hfinal' := (complete_of_ofAnalysis ha').final
      have hback : List.Forall₂ (fun d e' => ∃ e, a.overColumns p.functions p.config e = .ok d ∧
          Expr.Matches r e e') a.final s'.exprs :=
        forall₂_comp hfinal.flip (Analysis.matches_exprs h) fun _ _ e _ hd hm => ⟨e, hd, hm⟩
      refine forall₂_comp hback hfinal' ?_
      rintro d _ e' d' ⟨e, hd, hm⟩ hd'
      exact (matches_of_rewritten hm hd hd').levels_eq
    · exact (Analysis.matches_exprs h).imp fun _ _ => Expr.Matches.levels_eq

end

omit h in
theorem exists_fold_of_levels (h : e.levels = e'.levels) (hfold : ∃ d, p.fold e = .ok d) :
    ∃ d', p.fold e' = .ok d' := by
  unfold fold at hfold ⊢
  split
  · rename_i hon
    rw [if_pos hon, Expr.exists_simplify_iff, h] at hfold
    exact Expr.exists_simplify_iff.mpr hfold
  · exact ⟨e', rfl⟩

section

variable (hu : Analysis.Uniform E r r s.input)

omit h in
include hu in
theorem IsCondition.of_matches {t : Typing} (h : Expr.Matches r e e')
    (hc : IsCondition t s.input e) : IsCondition t s.input e' := by
  obtain ⟨type, htype, hbool⟩ := hc
  exact ⟨type, Typing.inferWithin_of_matches hu h htype, hbool⟩

include hu in
/-- A statement over one relation suits the planner in whichever way it is written. -/
theorem Suits.of_respell (hone : s.join = none) (ha : ofAnalysis p.functions p.config s = .ok a)
    (ha' : ofAnalysis p.functions p.config s' = .ok a') (hsuits : Suits p s a) : Suits p s' a' := by
  obtain ⟨hsources, hinput, _, _, _, _, _, hwindow, _, hjoin, hsink⟩ := Analysis.mk.inj h
  have hone' : s'.join = none := by simpa [hone] using hjoin.symm
  have hplain : ∀ {e e'}, Expr.Matches r e e' → p.aggregates e = .ok false →
      p.aggregates e' = .ok false := by
    intro e e' hm hagg
    obtain ⟨_, hagg', rfl⟩ := (alike_aggregates hm).exists_ok hagg
    exact hagg'
  constructor
  · obtain ⟨base, hbase⟩ := hsuits.sources
    refine ⟨base, ?_⟩
    unfold Planner.sources at hbase ⊢
    rwa [← hsources, hone', ← hone]
  · intro e' he'
    obtain ⟨e, he, hm⟩ := exists_left (forall₂_toList (Analysis.matches_filter h))
      (Option.mem_toList.mpr he')
    obtain ⟨hagg, hcondition⟩ := hsuits.filter e (Option.mem_toList.mp he)
    rw [← hinput]
    exact ⟨hplain hm hagg, hcondition.of_matches hu hm⟩
  · intro key' hkey'
    obtain ⟨key, hkey, hm⟩ := exists_left (Analysis.matches_groupBy h) hkey'
    obtain ⟨hagg, type, htype⟩ := hsuits.keys key hkey
    rw [← hinput]
    exact ⟨hplain hm hagg, type, Typing.inferWithin_of_matches hu hm htype⟩
  · intro e' he'
    obtain ⟨e, he, hm⟩ := exists_left (forall₂_toList (Analysis.matches_having h))
      (Option.mem_toList.mpr he')
    rw [← hinput]
    exact (hsuits.having e (Option.mem_toList.mp he)).of_matches hu hm
  · obtain ⟨types, htypes, haccepts⟩ := hsuits.select
    unfold Accepts at haccepts ⊢
    rw [← hinput, ← hsink]
    refine ⟨types, forall₂_comp (Analysis.matches_exprs h.symm) htypes ?_, haccepts⟩
    exact fun _ _ _ _ hm => Typing.inferWithin_of_matches hu hm.symm
  · intro e' he'
    obtain ⟨e, he, hlevels⟩ := exists_left (levels_evaluated h ha ha') he'
    exact exists_fold_of_levels hlevels (hsuits.folds e he)
  · intro hg
    rw [← groups_eq_of_respell h ha ha'] at hg
    obtain ⟨hhaving, hnone⟩ := hsuits.rows hg
    have hrel := Analysis.matches_having h
    rw [hhaving] at hrel
    refine ⟨?_, hwindow.symm.trans hnone⟩
    cases hs' : s'.having with
    | none => rfl
    | some e' =>
        rw [hs'] at hrel
        cases hrel

end

omit h in
/-- Keys that are columns cover a column in whichever way it is written: they are looked up. -/
theorem ReadsKeys.of_matches {functions : Registry} {t : Typing} {input : Schema}
    {keys keys' : List Expr} (hu : Analysis.Uniform E r r input)
    (hkeys : List.Forall₂ (Expr.Matches r) keys keys')
    (hcolumns : ∀ key ∈ keys, ∃ l c, key = .column l c)
    (htyped : ∀ key ∈ keys, ∃ type, t.infer input key = .ok type) (h : Expr.Matches r e e')
    (hreads : ReadsKeys functions input keys e) : ReadsKeys functions input keys' e' := by
  have hcovered : ∀ l c, Outside functions (.column l c) e → ∃ kl kc found, .column kl kc ∈ keys ∧
      input.resolve kc (kl.getD .unknown) = .ok found ∧
      input.resolve c (l.getD .unknown) = .ok found := by
    rcases hreads with ⟨key, hkey, hsame⟩ | hreads
    · obtain ⟨kl, kc, rfl⟩ := hcolumns key hkey
      obtain ⟨type, htype⟩ := htyped _ hkey
      obtain ⟨found, hfound⟩ := Typing.resolve_of_infer htype .self
      intro l c hc
      obtain ⟨_, _, houtside, heq⟩ := outside_matches (Expr.same_iff_matches.mp hsame).symm hc
      cases houtside with
      | self =>
          change c = kc at heq
          rw [heq]
          exact ⟨kl, kc, found, hkey, hfound, Schema.resolve_eq_ok.mpr (Schema.resolve_eq_ok.mp hfound)⟩
      | part _ member => simp [Expr.children] at member
    · exact hreads
  refine Or.inr fun l' c' hc' => ?_
  obtain ⟨l, c, hc, heq⟩ := outside_matches h.symm hc'
  obtain ⟨kl, kc, found, hkey, hkfound, hfound⟩ := hcovered l c hc
  obtain ⟨key', hkey', hm⟩ := exists_right hkeys hkey
  obtain ⟨_, hfound', rfl⟩ := (hu.found heq.symm _ (l'.getD .unknown)).exists_ok hfound
  rcases Expr.matches_iff.mp hm with ⟨_, _, kl', kc', hk, rfl, _, hkc⟩ | ⟨hno, _⟩
  · cases hk
    obtain ⟨_, hkfound', rfl⟩ := (hu.found hkc _ (kl'.getD .unknown)).exists_ok hkfound
    exact ⟨kl', kc', _, hkey', hkfound', hfound'⟩
  · cases hno

end Planner

end

end StreamSql
