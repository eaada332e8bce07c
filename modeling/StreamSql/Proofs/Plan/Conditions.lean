/-
  When a statement is planned. Planning checks a statement in many places and over two schemas: its
  input, and the rows of its groups, in which each aggregate call has become a column. Said of the
  expressions of the statement and of its input alone, it asks for three things (`exists_build_iff`):
  types and functions that fit (`Suits`), no column of the input that has the name of a result, and,
  of a statement that groups its rows, that what it evaluates on groups reads their keys only
  (`ReadsKeys`).

  This holds where calls that are spelled alike, and so share a column, have one type.
-/
import StreamSql.Proofs.Expr.Respelling
import StreamSql.Proofs.Plan.Folding
import StreamSql.Proofs.Plan.ResultNames

namespace StreamSql

open Outcome

/-! ## Columns that are collected -/

namespace Expr

variable {limit n : Nat} {e : Expr} {found : List (ColumnRef × Location)}

theorem exists_columnsWithin (h : e.height ≤ n) : ∃ found, columnsWithin limit n e = .ok found := by
  induction n generalizing e with
  | zero =>
      have := height_pos e
      omega
  | succ n ih =>
      have hparts : ∃ parts, e.children.mapM (columnsWithin limit n) = .ok parts := by
        simp only [mapM_eq_ok]
        exact exists_forall₂ fun c hc => ih (height_le_succ.mp h c hc)
      obtain ⟨parts, hparts⟩ := hparts
      unfold columnsWithin
      cases e with
      | column l c => exact ⟨_, rfl⟩
      | _ => exact ⟨parts.flatten, by simp only [hparts]; rfl⟩

/-- Only columns that occur are collected. -/
theorem within_of_mem_columnsWithin (h : columnsWithin limit n e = .ok found)
    {x : ColumnRef × Location} (hx : x ∈ found) :
    ∃ l, x.2 = l.getD .unknown ∧ Within (.column l x.1) e := by
  induction n generalizing e found with
  | zero => cases h
  | succ n ih =>
      unfold columnsWithin at h
      split at h
      · rename_i l c
        cases h
        rw [List.mem_singleton.mp hx]
        exact ⟨l, rfl, .self⟩
      · simp only [bind_eq_ok, pure_eq_ok, mapM_eq_ok] at h
        obtain ⟨parts, hparts, rfl⟩ := h
        obtain ⟨part, hpart, hx⟩ := List.mem_flatten.mp hx
        obtain ⟨c, hc, hcolumns⟩ := exists_left hparts hpart
        obtain ⟨l, hl, hwithin⟩ := ih hcolumns hx
        exact ⟨l, hl, .part hc hwithin⟩

end Expr

/-! ## Expressions that match -/

namespace Aggregation

variable {functions : Registry} {r : Respelling} {e e' : Expr}

theorem isAggregate_withLoc {l : Option Location} :
    IsAggregate functions (e.withLoc l) ↔ IsAggregate functions e := by
  cases e <;> simp [IsAggregate, Expr.withLoc]

theorem isAggregate_matches (h : Expr.Matches r e e') :
    IsAggregate functions e ↔ IsAggregate functions e' := by
  rcases Expr.matches_iff.mp h with ⟨l, c, l', c', rfl, rfl, _⟩ | ⟨_, _, _, hparts⟩
  · simp [IsAggregate]
  · rw [← isAggregate_congruent hparts, isAggregate_withLoc]

/-- An outermost call of the one expression has its counterpart in the other. -/
theorem outermost_matches (h : Expr.Matches r e e') {c : Expr} (hc : Outermost functions c e) :
    ∃ c', Outermost functions c' e' ∧ Expr.Matches r c c' := by
  induction hc generalizing e' with
  | self call => exact ⟨e', .self ((isAggregate_matches h).mp call), h⟩
  | part plain member _ ih =>
      obtain ⟨d', hd', hd⟩ := exists_right h.children member
      obtain ⟨c', hc', hcc⟩ := ih hd
      exact ⟨c', .part (mt (isAggregate_matches h).mpr plain) hd' hc', hcc⟩

theorem callsAggregate_matches (h : Expr.Matches r e e') :
    CallsAggregate functions e ↔ CallsAggregate functions e' := by
  rw [callsAggregate_iff, callsAggregate_iff]
  constructor
  · rintro ⟨c, hc⟩
    obtain ⟨c', hc', _⟩ := outermost_matches h hc
    exact ⟨c', hc'⟩
  · rintro ⟨c, hc⟩
    obtain ⟨c', hc', _⟩ := outermost_matches h.symm hc
    exact ⟨c', hc'⟩

/-! ## Types over the rows of groups -/

section

variable {t : Typing} {a : Aggregation} {input : Schema} {results : List Field} {type : DataType}
  {limit n : Nat}

theorem groupRows_of_results (h : Planner.ResultsOf t input a.calls results) :
    GroupRows input a.calls ⟨input.fields ++ results⟩ := by
  refine ⟨results, h.imp ?_, rfl⟩
  rintro call _ ⟨type, _, rfl⟩
  exact ⟨rfl, rfl⟩

theorem Outermost.height_le {c : Expr} (h : Outermost functions c e) : c.height ≤ e.height := by
  induction h with
  | self => exact Nat.le_refl _
  | part _ member _ ih => exact Nat.le_trans ih (Nat.le_of_lt (Expr.height_of_mem_children member))

/-- The outermost calls of an expression that has a type have types. -/
theorem infer_of_outermost {c : Expr} (hc : Outermost functions c e) (hheight : e.height ≤ n)
    (h : t.inferWithin input n e = .ok type) : ∃ type', t.inferWithin input n c = .ok type' := by
  induction hc generalizing n type with
  | self => exact ⟨type, h⟩
  | @part e d plain member inner ih =>
      cases n with
      | zero => cases h
      | succ n =>
          have hd : d.height ≤ n := Expr.height_le_succ.mp hheight d member
          rcases Typing.inferWithin_children h member with hw | ⟨typed, hd'⟩
          · -- there is no call in a `*`
            cases d <;> simp only [Expr.isWildcard, Bool.false_eq_true] at hw
            cases inner with
            | self call => simp [IsAggregate] at call
            | part _ member => simp [Expr.children] at member
          · obtain ⟨type', h'⟩ := ih hd hd'
            have hc : c.height ≤ n + 1 := by
              have := inner.height_le
              omega
            exact ⟨type', Typing.inferWithin_of_height h' hc⟩

/-- Where the input has none of the names of the results, an expression keeps its type when it is
    rewritten. -/
theorem infer_rewritten (hr : Planner.ResultsOf t input a.calls results)
    (hcolumns : a.calls.Pairwise fun x y => Text.sameName x.column y.column = false)
    (hnames : ∀ entry ∈ a.calls, ¬input.Spells entry.column)
    (h : Expr.replaceWithin limit (columnOf functions a) n e = .ok e') (hn : n ≤ t.limit)
    (hheight : e.height ≤ n) (hkeeps : KeepsTypes t input functions a e)
    (htype : t.inferWithin input n e = .ok type) :
    t.inferWithin ⟨input.fields ++ results⟩ n e' = .ok type := by
  have hrows := groupRows_of_results hr
  induction n generalizing e e' type with
  | zero => cases h
  | succ n ih =>
      rcases rewritten_iff.mp h with ⟨hcall, column, hcolumn, rfl⟩ | ⟨hcall, hparts⟩
      · have he : IsAggregate functions e := (isAggregate_of_isCall hcall).mpr rfl
        obtain ⟨entry, hentry, _, rfl⟩ := mem_of_columnFor? hcolumn
        obtain ⟨i, hi⟩ := List.mem_iff_getElem?.mp hentry
        obtain ⟨f, hf⟩ := (resolve_result_iff (l := e.loc?.getD .unknown) hrows hcolumns hi).mpr
          (hnames entry hentry)
        have hcalled : t.infer input e = .ok f.type := type_of_column hr hkeeps he hcolumn hf
        have htyped : t.infer input e = .ok type :=
          Typing.inferWithin_of_height htype (Nat.le_trans hheight hn)
        rw [hcalled] at htyped
        cases htyped
        simp only [Typing.inferWithin, bind_eq_ok, pure_eq_ok]
        exact ⟨_, hf, rfl⟩
      · have hplain : ¬IsAggregate functions e := by simp [isAggregate_of_isCall hcall]
        have hcarries : Expr.Congruent
            (fun c c' => Typing.Carries t ⟨input.fields ++ results⟩ n input n c' c) e e' := by
          refine hparts.imp_mem fun c hc c' hc' =>
            ⟨(isWildcard_of_rewritten hc').symm, fun type => ?_⟩
          exact ih hc' (by omega) (Expr.height_le_succ.mp hheight c hc)
            (fun d hd => hkeeps d (.part hplain hc hd))
        cases e with
        | column l c =>
            cases hparts
            simp only [Typing.inferWithin, bind_eq_ok, pure_eq_ok] at htype ⊢
            obtain ⟨found, hfound, rfl⟩ := htype
            exact ⟨found, resolve_of_input hrows hnames hfound, rfl⟩
        | _ =>
            refine Typing.inferWithin_congruent hcarries.flip ?_ htype
            intro l c he'
            have hno := hparts.column?_eq
            rw [he'] at hno
            cases hno

end

end Aggregation

/-! ## What may be read of groups -/

namespace Planner

open Aggregation

/-- The expression is a grouping key, or each of its columns, those in aggregate calls apart, is a
    grouping key by itself. -/
def ReadsKeys (functions : Registry) (input : Schema) (keys : List Expr) (e : Expr) : Prop :=
  (∃ key ∈ keys, key.same e = true) ∨
    ∀ l c, Outside functions (.column l c) e → ∃ kl kc found, .column kl kc ∈ keys ∧
      input.resolve kc (kl.getD .unknown) = .ok found ∧ input.resolve c (l.getD .unknown) = .ok found

variable {p : Planner} {s : Analysis} {a : Aggregation} {input : Schema} {keys : List Expr}
  {places : List Nat} {e e' : Expr}

theorem mem_places {kl : Option Location} {kc : ColumnRef} {found : Field × Nat}
    (h : keyColumns input keys = .ok places) (hkey : .column kl kc ∈ keys)
    (hfound : input.resolve kc (kl.getD .unknown) = .ok found) : found.2 ∈ places := by
  simp only [keyColumns, bind_eq_ok, pure_eq_ok, mapM_eq_ok] at h
  obtain ⟨all, hall, rfl⟩ := h
  obtain ⟨place, hplace, hp⟩ := exists_right hall hkey
  simp only [hfound] at hp
  cases hp
  exact List.mem_filterMap.mpr ⟨_, hplace, rfl⟩

/-- A column that is found in the input passes the check if it stands at the place of a key. -/
theorem checkColumn_of_place {c : ColumnRef} {l : Location} {found : Field × Nat}
    (hfound : input.resolve c l = .ok found) (hplace : found.2 ∈ places) :
    checkColumn a input places (c, l) = .ok () := by
  unfold checkColumn
  simp only
  split
  · rfl
  · rw [hfound]
    exact if_pos hplace

/-- A key that is a column by itself. -/
theorem exists_key_of_place (hplaces : keyColumns input keys = .ok places) {c : ColumnRef}
    {l : Location} {f : Field} {i : Nat} (hf : input.resolve c l = .ok (f, i)) (hi : i ∈ places) :
    ∃ kl kc, .column kl kc ∈ keys ∧ input.resolve kc (kl.getD .unknown) = .ok (f, i) := by
  obtain ⟨kl, kc, f', hkey, hkr⟩ := mem_keyColumns hplaces hi
  have hff : f' = f := by
    have hat := (Schema.found_of_resolve hkr).1
    rw [(Schema.found_of_resolve hf).1] at hat
    exact (Option.some.inj hat).symm
  rw [hff] at hkr
  exact ⟨kl, kc, hkey, hkr⟩

theorem isColumn_of_mem {entry : AggregateCall} (h : entry ∈ a.calls) :
    a.isColumn entry.column = true :=
  List.any_eq_true.mpr ⟨entry, h, Text.sameName_refl _⟩

/-- What stands for a call is not found in the input. -/
theorem not_resolve_of_names (hnames : ∀ entry ∈ a.calls, ¬input.Spells entry.column)
    {c : ColumnRef} (hc : a.isColumn c.name = true) {l : Location} {found : Field × Nat} :
    input.resolve c l ≠ .ok found := by
  obtain ⟨f, i⟩ := found
  intro hfound
  obtain ⟨hat, ha⟩ := Schema.found_of_resolve hfound
  obtain ⟨entry, hentry, hname⟩ := List.any_eq_true.mp hc
  refine hnames entry hentry ⟨f, List.mem_of_getElem? hat, ?_⟩
  rw [Field.answers, Bool.and_eq_true] at ha
  rw [Text.sameName_right hname]
  exact ha.1

/-- An expression that becomes a key when it is rewritten makes no call: the column of the call would
    be a column of the key, and so of the input. -/
theorem plain_of_key (hr : a.overColumns p.functions p.config e = .ok e')
    (hrecorded : ∀ call, Outermost p.functions call e → ∃ column, a.columnFor? call = some column)
    (hnames : ∀ entry ∈ a.calls, ¬input.Spells entry.column) {key : Expr} {type : DataType}
    (htype : p.typing.infer input key = .ok type) (hsame : key.same e' = true) :
    ¬CallsAggregate p.functions e := by
  rw [callsAggregate_iff]
  rintro ⟨call, hcall⟩
  obtain ⟨column, hcolumn⟩ := hrecorded call hcall
  obtain ⟨entry, hentry, _, rfl⟩ := mem_of_columnFor? hcolumn
  have hmatches := (Expr.same_iff_matches.mp hsame).symm
  obtain ⟨l, c, hwithin, hc⟩ := hmatches.within (within_of_rewritten hr hcall hcolumn)
  change ⟨none, entry.column⟩ = c at hc
  subst hc
  obtain ⟨found, hresolve⟩ := Typing.resolve_of_infer htype hwithin
  exact not_resolve_of_names (c := ⟨none, entry.column⟩) hnames (isColumn_of_mem hentry) hresolve

/-- An expression passes the check on groups, rewritten, exactly if it reads keys only. -/
theorem checkGrouped_iff (hr : a.overColumns p.functions p.config e = .ok e')
    (hrecorded : ∀ call, Outermost p.functions call e → ∃ column, a.columnFor? call = some column)
    (hplaces : keyColumns input keys = .ok places)
    (hkeys : ∀ key ∈ keys, p.aggregates key = .ok false ∧
      ∃ type, p.typing.infer input key = .ok type)
    (hnames : ∀ entry ∈ a.calls, ¬input.Spells entry.column)
    (hfound : ∀ l c, Expr.Within (.column l c) e →
      ∃ found, input.resolve c (l.getD .unknown) = .ok found) :
    p.checkGrouped a input keys places e' = .ok () ↔ ReadsKeys p.functions input keys e := by
  have hplain : ∀ key ∈ keys, ¬CallsAggregate p.functions key := by
    intro key hkey
    simp [aggregates_eq_ok (hkeys key hkey).1]
  unfold checkGrouped
  constructor
  · intro h
    split at h
    · rename_i hany
      obtain ⟨key, hkey, hsame⟩ := List.any_eq_true.mp hany
      obtain ⟨type, htype⟩ := (hkeys key hkey).2
      have hno := plain_of_key hr hrecorded hnames htype hsame
      rw [overColumns_plain hr hno] at hsame
      exact Or.inl ⟨key, hkey, hsame⟩
    · simp only [bind_eq_ok, forM_eq_ok] at h
      obtain ⟨columns, hcolumns, hall⟩ := h
      refine Or.inr fun l c hc => ?_
      have hcheck := hall _ (Expr.mem_columns hcolumns (within_of_outside hr hc))
      rcases checkColumn_cases hcheck with ⟨_, hname⟩ | ⟨f, i, hresolve, hi⟩
      · obtain ⟨found, hresolve⟩ := hfound l c hc.within
        exact absurd hresolve (not_resolve_of_names hnames hname)
      · obtain ⟨kl, kc, hkey, hkr⟩ := exists_key_of_place hplaces hresolve hi
        exact ⟨kl, kc, (f, i), hkey, hkr, hresolve⟩
  · rintro (⟨key, hkey, hsame⟩ | hreads)
    · have hno : ¬CallsAggregate p.functions e := by
        rw [← callsAggregate_matches (Expr.same_iff_matches.mp hsame)]
        exact hplain key hkey
      rw [overColumns_plain hr hno]
      exact if_pos (List.any_eq_true.mpr ⟨key, hkey, hsame⟩)
    · split
      · rfl
      · simp only [bind_eq_ok, forM_eq_ok]
        obtain ⟨columns, hcolumns⟩ := Expr.exists_columnsWithin (height_of_rewritten hr)
        refine ⟨columns, hcolumns, ?_⟩
        rintro ⟨c, l'⟩ hc
        obtain ⟨l, rfl, hwithin⟩ := Expr.within_of_mem_columnsWithin hcolumns hc
        rcases outside_of_rewritten hr hwithin with houtside | ⟨entry, hentry, rfl⟩
        · obtain ⟨kl, kc, found, hkey, hkr, hresolve⟩ := hreads l c houtside
          exact checkColumn_of_place hresolve (mem_places hplaces hkey hkr)
        · exact if_pos (isColumn_of_mem hentry)

/-! ## What planning asks of a statement -/

/-- The expression is a condition over the input. -/
def IsCondition (t : Typing) (input : Schema) (e : Expr) : Prop :=
  ∃ type, t.infer input e = .ok type ∧ (type = .boolean ∨ type = .null)

/-- Where the result goes there is a column for each of its columns that takes values of its type. -/
def Accepts (p : Planner) (s : Analysis) (types : List DataType) : Prop :=
  ∀ name, s.sink = some (.insert name) → ∃ target, p.catalog.lookup name = some target ∧
    List.Forall₂ (fun type c => DataType.storableAs type c.type = true) types target

/-- What planning asks of a statement over its input, apart from what is read of groups. -/
structure Suits (p : Planner) (s : Analysis) (a : Aggregation) : Prop where
  sources : ∃ base, p.sources s = .ok base
  filter : ∀ e, s.filter = some e → p.aggregates e = .ok false ∧ IsCondition p.typing s.input e
  keys : ∀ key ∈ s.groupBy, p.aggregates key = .ok false ∧
    ∃ type, p.typing.infer s.input key = .ok type
  having : ∀ e, s.having = some e → IsCondition p.typing s.input e
  select : ∃ types, List.Forall₂ (fun e type => p.typing.infer s.input e = .ok type) s.exprs types ∧
    p.Accepts s types
  folds : ∀ e ∈ evaluated s a, ∃ e', p.fold e = .ok e'
  rows : groups s a = false → s.having = none ∧ s.window = none

variable {below plan : Plan}

theorem exists_filtered_iff :
    (∃ plan, p.filtered s below = .ok plan) ↔
      ∀ e, s.filter = some e → p.aggregates e = .ok false ∧ IsCondition p.typing below.schema e ∧
        ∃ e', p.fold e = .ok e' := by
  simp only [filtered_eq_ok, Typing.checkPredicate_eq_ok]
  constructor
  · rintro ⟨plan, ⟨hnone, _⟩ | ⟨e, e', he, hagg, hcondition, hfold, _⟩⟩ d hd
    · rw [hnone] at hd
      cases hd
    · rw [he] at hd
      cases hd
      exact ⟨hagg, hcondition, e', hfold⟩
  · intro h
    cases hf : s.filter with
    | none => exact ⟨below, Or.inl ⟨rfl, rfl⟩⟩
    | some e =>
        obtain ⟨hagg, hcondition, e', hfold⟩ := h e hf
        exact ⟨_, Or.inr ⟨e, e', rfl, hagg, hcondition, hfold, rfl⟩⟩

/-- The types of what a projection computes are those of its columns. -/
theorem types_of_result {exprs : List Expr} {names : List String}
    (h : p.projected exprs names below = .ok plan) :
    List.Forall₂ (fun e type => p.typing.infer below.schema e = .ok type) exprs
      (plan.schema.fields.map (·.type)) := by
  obtain ⟨_, columns, _, rfl⟩ := projected_eq_ok.mp h
  rw [List.forall₂_map_right_iff]
  exact types_of_projected h

theorem exists_projected {exprs : List Expr} {names : List String}
    (hlength : exprs.length = names.length)
    (htypes : ∀ e ∈ exprs, ∃ type, p.typing.infer below.schema e = .ok type)
    (hfolds : ∀ e ∈ exprs, ∃ e', p.fold e = .ok e') :
    ∃ plan, p.projected exprs names below = .ok plan := by
  simp only [projected_eq_ok]
  obtain ⟨columns, hcolumns⟩ : ∃ columns : List ((Expr × String) × Field), List.Forall₂
      (fun item column => ∃ type e', p.typing.infer below.schema item.1 = .ok type ∧
        p.fold item.1 = .ok e' ∧ ((e', item.2), ⟨none, item.2, type⟩) = column)
      (exprs.zip names) columns := by
    refine exists_forall₂ fun item hitem => ?_
    obtain ⟨type, htype⟩ := htypes item.1 (List.of_mem_zip hitem).1
    obtain ⟨e', he'⟩ := hfolds item.1 (List.of_mem_zip hitem).1
    exact ⟨_, type, e', htype, he', rfl⟩
  exact ⟨_, hlength, columns, hcolumns, rfl⟩

/-- A result goes where it is sent if it is accepted there. -/
theorem exists_sunk_iff {result : Plan} :
    (∃ plan, p.sunk s (limited s result) = .ok plan) ↔
      p.Accepts s (result.schema.fields.map (·.type)) := by
  have hschema : (limited s result).schema = result.schema := by
    unfold limited
    cases s.limit <;> rfl
  simp only [sunk_eq_ok, checkInsert_eq_ok, hschema, Accepts, List.forall₂_map_left_iff]
  constructor
  · rintro ⟨plan, ⟨hs, _⟩ | ⟨_, _, _, hs, _⟩ | ⟨name, target, hs, ht, hfits, _⟩⟩ name' hname
    · rw [hs] at hname
      cases hname
    · rw [hs] at hname
      cases hname
    · rw [hs] at hname
      cases hname
      exact ⟨target, ht, hfits⟩
  · intro h
    cases hs : s.sink with
    | none => exact ⟨_, Or.inl ⟨rfl, rfl⟩⟩
    | some sink =>
        cases sink with
        | create kind name ps => exact ⟨_, Or.inr (Or.inl ⟨kind, name, ps, rfl, rfl⟩)⟩
        | insert name =>
            obtain ⟨target, ht, hfits⟩ := h name hs
            exact ⟨_, Or.inr (Or.inr ⟨name, target, rfl, ht, hfits, rfl⟩)⟩

theorem exists_places (h : ∀ key ∈ keys, ∃ type, p.typing.infer input key = .ok type) :
    ∃ places, keyColumns input keys = .ok places := by
  cases hplaces : keyColumns input keys with
  | ok places => exact ⟨places, rfl⟩
  | error err =>
      simp only [keyColumns, bind_eq_error] at hplaces
      rcases hplaces with hplaces | ⟨_, _, hplaces⟩
      · obtain ⟨key, hkey, herror⟩ := exists_error_of_mapM hplaces
        obtain ⟨type, htype⟩ := h key hkey
        cases key with
        | column l c =>
            obtain ⟨found, hfound⟩ := Typing.resolve_of_infer htype .self
            simp only [hfound] at herror
            cases herror
        | _ => cases herror
      · cases hplaces

/-! ## Plans and their conditions -/

section

variable {st : Statement} (hs : Analysis.ofStatement p.catalog p.config st = .ok s)
  (ha : Aggregation.ofAnalysis p.functions p.config s = .ok a)
  (hkeeps : ∀ e ∈ s.exprs ++ s.having.toList, KeepsTypes p.typing s.input p.functions a e)

include hs in
theorem schema_of_rows {base rows : Plan} (hbase : p.sources s = .ok base)
    (hrows : p.filtered s base = .ok rows) : rows.schema = s.input := by
  rw [schema_of_filtered hrows, (base_of_sources hs hbase).2]

include hs hkeeps in
/-- An expression of the statement has the type of what it becomes. -/
theorem infer_of_final {results : List Field} {type : DataType}
    (hr : ResultsOf p.typing s.input a.calls results) (he : e ∈ s.exprs ++ s.having.toList)
    (hre : a.overColumns p.functions p.config e = .ok e')
    (htype : p.typing.infer ⟨s.input.fields ++ results⟩ e' = .ok type) :
    p.typing.infer s.input e = .ok type :=
  infer_of_keepsTypes hr hre
    (Analysis.known_of_ofStatement hs (depth_pos_of_infer htype) he) (hkeeps e he) htype

include hs ha hkeeps in
/-- An expression of the statement becomes one of its type. -/
theorem infer_final {results : List Field} {type : DataType}
    (hr : ResultsOf p.typing s.input a.calls results)
    (hnames : ∀ entry ∈ a.calls, ¬s.input.Spells entry.column)
    (he : e ∈ s.exprs ++ s.having.toList) (hre : a.overColumns p.functions p.config e = .ok e')
    (htype : p.typing.infer s.input e = .ok type) :
    p.typing.infer ⟨s.input.fields ++ results⟩ e' = .ok type := by
  have hknown := Analysis.known_of_ofStatement hs (depth_pos_of_infer htype) he
  exact infer_rewritten hr (complete_of_ofAnalysis ha).columns hnames hre (Nat.le_refl _) hknown.1
    (hkeeps e he) htype

include ha in
theorem checkGrouped_final (hplaces : keyColumns s.input s.groupBy = .ok places)
    (hkeys : ∀ key ∈ s.groupBy, p.aggregates key = .ok false ∧
      ∃ type, p.typing.infer s.input key = .ok type)
    (hnames : ∀ entry ∈ a.calls, ¬s.input.Spells entry.column) {type : DataType}
    (he : e ∈ s.exprs ++ s.having.toList) (hre : a.overColumns p.functions p.config e = .ok e')
    (htype : p.typing.infer s.input e = .ok type) :
    p.checkGrouped a s.input s.groupBy places e' = .ok () ↔
      ReadsKeys p.functions s.input s.groupBy e := by
  refine checkGrouped_iff hre (fun call hcall => ?_) hplaces hkeys hnames fun l c hc =>
    Typing.resolve_of_infer htype hc
  obtain ⟨entry, _, _, hcolumn⟩ := (complete_of_ofAnalysis ha).recorded call ⟨e, he, hcall⟩
  exact ⟨_, hcolumn⟩

include hs in
theorem suits_of_not_groups (hg : groups s a = false) {plan : Plan} (h : p.build s a = .ok plan) :
    Suits p s a := by
  obtain ⟨hhaving, hwindow, base, rows, result, hbase, hrows, hresult, hsunk⟩ :=
    (build_eq_ok_of_not_groups hg).mp h
  have hfilter := exists_filtered_iff.mp ⟨rows, hrows⟩
  rw [(base_of_sources hs hbase).2] at hfilter
  have htypes := types_of_result hresult
  rw [schema_of_rows hs hbase hrows] at htypes
  have hkeys : s.groupBy = [] := by
    simp only [groups, Bool.or_eq_false_iff] at hg
    simpa using hg.2
  exact {
    sources := ⟨base, hbase⟩
    filter := fun e he => ⟨(hfilter e he).1, (hfilter e he).2.1⟩
    keys := by simp [hkeys]
    having := by simp [hhaving]
    select := ⟨_, htypes, exists_sunk_iff.mp ⟨plan, hsunk⟩⟩
    folds := fun e he => (exists_fold_of_build h he).2
    rows := fun _ => ⟨hhaving, hwindow⟩ }

/-- What is evaluated on groups has a type over their rows, and a condition on groups is a
    condition there. -/
theorem infer_of_kept {grouped kept result : Plan} {exprs : List Expr} {names : List String}
    (hkept : p.havingFiltered a grouped = .ok kept)
    (hresult : p.projected exprs names kept = .ok result) :
    (∀ e' ∈ exprs, ∃ type, p.typing.infer grouped.schema e' = .ok type) ∧
      ∀ e', a.having = some e' → IsCondition p.typing grouped.schema e' := by
  refine ⟨fun e' he' => ?_, fun e' he' => ?_⟩
  · obtain ⟨type, _, htype⟩ := exists_right (types_of_result hresult) he'
    rw [schema_of_havingFiltered hkept] at htype
    exact ⟨type, htype⟩
  · rcases havingFiltered_eq_ok.mp hkept with ⟨hnone, _⟩ | ⟨e, he, hcheck, _⟩
    · rw [hnone] at he'
      cases he'
    · rw [he] at he'
      cases he'
      exact Typing.checkPredicate_eq_ok.mp hcheck

include hs ha hkeeps in
theorem suits_of_groups (hg : groups s a = true) {plan : Plan} (h : p.build s a = .ok plan) :
    Suits p s a ∧ ∀ e ∈ s.exprs ++ s.having.toList,
      ReadsKeys p.functions s.input s.groupBy e := by
  obtain ⟨base, rows, grouped, kept, result, hbase, hrows, hgrouped, hkept, hresult, hsunk⟩ :=
    (build_eq_ok_of_groups hg).mp h
  have hcomplete := complete_of_ofAnalysis ha
  have hfilter := exists_filtered_iff.mp ⟨rows, hrows⟩
  rw [(base_of_sources hs hbase).2] at hfilter
  have hinput := schema_of_rows hs hbase hrows
  obtain ⟨hfinal, hcondition⟩ := infer_of_kept hkept hresult
  have htypes := types_of_result hresult
  rw [schema_of_havingFiltered hkept] at htypes
  obtain ⟨hkeys, places, hplaces, hchecks, results, hresults, hplan⟩ := grouped_eq_ok.mp hgrouped
  rw [hinput] at hkeys hplaces hchecks hresults hplan
  have hschema : grouped.schema = ⟨s.input.fields ++ results⟩ := by
    rw [hplan]
    rfl
  rw [hschema] at hfinal hcondition htypes
  have hhaving : ∀ e, s.having = some e → IsCondition p.typing s.input e := by
    intro e he
    have hrel := hcomplete.having
    rw [he] at hrel
    generalize ha' : a.having = o at hrel
    cases hrel with
    | some hre =>
        obtain ⟨type, htype, hbool⟩ := hcondition _ ha'
        exact ⟨type, infer_of_final hs hkeeps hresults (by simp [he]) hre htype, hbool⟩
  refine ⟨?_, fun e he => ?_⟩
  · exact {
      sources := ⟨base, hbase⟩
      filter := fun e he => ⟨(hfilter e he).1, (hfilter e he).2.1⟩
      keys := hkeys
      having := hhaving
      select := ⟨_, forall₂_comp hcomplete.final htypes fun e he e' type =>
        infer_of_final hs hkeeps hresults (List.mem_append_left _ he), exists_sunk_iff.mp ⟨plan, hsunk⟩⟩
      folds := fun e he => (exists_fold_of_build h he).2
      rows := fun hno => by
        rw [hg] at hno
        cases hno }
  · obtain ⟨e', he', hre⟩ := exists_right (rewritten_of_ofAnalysis ha) he
    have htype : ∃ type, p.typing.infer s.input e = .ok type := by
      rcases List.mem_append.mp he' with he' | he'
      · obtain ⟨type, htype⟩ := hfinal e' he'
        exact ⟨type, infer_of_final hs hkeeps hresults he hre htype⟩
      · obtain ⟨type, htype, _⟩ := hcondition e' (Option.mem_toList.mp he')
        exact ⟨type, infer_of_final hs hkeeps hresults he hre htype⟩
    obtain ⟨type, htype⟩ := htype
    exact (checkGrouped_final ha hplaces hkeys (not_spells_of_build hs ha h) he hre htype).mp
      (hchecks e' he')

theorem Suits.typed (h : Suits p s a) (he : e ∈ s.exprs ++ s.having.toList) :
    ∃ type, p.typing.infer s.input e = .ok type := by
  rcases List.mem_append.mp he with he | he
  · obtain ⟨types, htypes, _⟩ := h.select
    obtain ⟨type, _, htype⟩ := exists_right htypes he
    exact ⟨type, htype⟩
  · obtain ⟨type, htype, _⟩ := h.having e (Option.mem_toList.mp he)
    exact ⟨type, htype⟩

include hs in
theorem Suits.exists_rows (h : Suits p s a) :
    ∃ base rows, p.sources s = .ok base ∧ p.filtered s base = .ok rows ∧ rows.schema = s.input := by
  obtain ⟨base, hbase⟩ := h.sources
  obtain ⟨rows, hrows⟩ : ∃ rows, p.filtered s base = .ok rows := by
    refine exists_filtered_iff.mpr fun e he => ?_
    rw [(base_of_sources hs hbase).2]
    exact ⟨(h.filter e he).1, (h.filter e he).2, h.folds e (List.mem_append_left _ (by simp [he]))⟩
  exact ⟨base, rows, hbase, hrows, schema_of_rows hs hbase hrows⟩

/-- Results of the types that are accepted can be projected and handed on. -/
theorem exists_delivered {exprs : List Expr} {names : List String} {types : List DataType}
    (hlength : exprs.length = names.length)
    (htypes : List.Forall₂ (fun e type => p.typing.infer below.schema e = .ok type) exprs types)
    (hfolds : ∀ e ∈ exprs, ∃ e', p.fold e = .ok e') (haccepts : p.Accepts s types) :
    ∃ result plan, p.projected exprs names below = .ok result ∧
      p.sunk s (limited s result) = .ok plan := by
  have htyped : ∀ e ∈ exprs, ∃ type, p.typing.infer below.schema e = .ok type := by
    intro e he
    obtain ⟨type, _, htype⟩ := exists_right htypes he
    exact ⟨type, htype⟩
  obtain ⟨result, hresult⟩ := exists_projected hlength htyped hfolds
  have hunique : types = result.schema.fields.map (·.type) := by
    refine Relator.RightUnique.forall₂ (fun e type type' h h' => ?_) htypes (types_of_result hresult)
    rw [h] at h'
    exact Except.ok.inj h'
  rw [hunique] at haccepts
  obtain ⟨plan, hplan⟩ := exists_sunk_iff.mpr haccepts
  exact ⟨result, plan, hresult, hplan⟩

include hs ha hkeeps in
/-- The groups of a statement that reads keys only, and those of them that are kept. -/
theorem Suits.exists_groups (h : Suits p s a)
    (hnames : ∀ entry ∈ a.calls, ¬s.input.Spells entry.column)
    (hreads : ∀ e ∈ s.exprs ++ s.having.toList, ReadsKeys p.functions s.input s.groupBy e)
    {rows : Plan} (hinput : rows.schema = s.input) :
    ∃ grouped kept results, p.grouped s a rows = .ok grouped ∧
      p.havingFiltered a grouped = .ok kept ∧ ResultsOf p.typing s.input a.calls results ∧
      kept.schema = ⟨s.input.fields ++ results⟩ := by
  have hcomplete := complete_of_ofAnalysis ha
  obtain ⟨places, hplaces⟩ := exists_places fun key hkey => (h.keys key hkey).2
  obtain ⟨results, hresults⟩ : ∃ results, ResultsOf p.typing s.input a.calls results := by
    refine exists_forall₂ fun entry hentry => ?_
    obtain ⟨e, he, hcall⟩ := hcomplete.made entry hentry
    obtain ⟨type, htype⟩ := h.typed he
    have hknown := Analysis.known_of_ofStatement hs (depth_pos_of_infer htype) he
    obtain ⟨type', htype'⟩ := infer_of_outermost hcall hknown.1 htype
    exact ⟨_, type', htype', rfl⟩
  have hchecks : ∀ e' ∈ a.final ++ a.having.toList,
      p.checkGrouped a s.input s.groupBy places e' = .ok () := by
    intro e' he'
    obtain ⟨e, he, hre⟩ := exists_left (rewritten_of_ofAnalysis ha) he'
    obtain ⟨type, htype⟩ := h.typed he
    exact (checkGrouped_final ha hplaces h.keys hnames he hre htype).mpr (hreads e he)
  have hgrouped : p.grouped s a rows = .ok (.aggregate s.groupBy a.calls s.window rows
      ⟨s.input.fields ++ results⟩) := by
    rw [grouped_eq_ok, hinput]
    exact ⟨h.keys, places, hplaces, hchecks, results, hresults, rfl⟩
  obtain ⟨kept, hkept⟩ : ∃ kept, p.havingFiltered a (.aggregate s.groupBy a.calls s.window rows
      ⟨s.input.fields ++ results⟩) = .ok kept := by
    simp only [havingFiltered_eq_ok]
    have hrel := hcomplete.having
    generalize ho : s.having = o, a.having = o' at hrel
    cases hrel with
    | none => exact ⟨_, Or.inl ⟨rfl, rfl⟩⟩
    | @some e e' hre =>
        obtain ⟨type, htype, hbool⟩ := h.having e ho
        have htype' := infer_final hs ha hkeeps hresults hnames (by simp [ho]) hre htype
        exact ⟨_, Or.inr ⟨e', rfl, Typing.checkPredicate_eq_ok.mpr ⟨type, htype', hbool⟩, rfl⟩⟩
  exact ⟨_, kept, results, hgrouped, hkept, hresults, schema_of_havingFiltered hkept⟩

include hs ha hkeeps in
theorem Suits.exists_build (h : Suits p s a)
    (hnames : ∀ entry ∈ a.calls, ¬s.input.Spells entry.column)
    (hreads : groups s a = true → ∀ e ∈ s.exprs ++ s.having.toList,
      ReadsKeys p.functions s.input s.groupBy e) : ∃ plan, p.build s a = .ok plan := by
  have hcomplete := complete_of_ofAnalysis ha
  have hlength : s.exprs.length = s.names.length :=
    (Analysis.names_of_selectList (Analysis.ofStatement_eq_ok.mp hs).2.1).1
  obtain ⟨base, rows, hbase, hrows, hinput⟩ := h.exists_rows hs
  obtain ⟨types, htypes, haccepts⟩ := h.select
  have hfolds : ∀ e ∈ results s a, ∃ e', p.fold e = .ok e' := fun e he =>
    h.folds e (List.mem_append_right _ he)
  unfold results at hfolds
  cases hg : groups s a with
  | false =>
      simp only [hg, Bool.false_eq_true, if_false] at hfolds
      rw [← hinput] at htypes
      obtain ⟨result, plan, hresult, hplan⟩ := exists_delivered hlength htypes hfolds haccepts
      obtain ⟨hhaving, hwindow⟩ := h.rows hg
      exact ⟨plan, (build_eq_ok_of_not_groups hg).mpr
        ⟨hhaving, hwindow, base, rows, result, hbase, hrows, hresult, hplan⟩⟩
  | true =>
      simp only [hg, if_true] at hfolds
      obtain ⟨grouped, kept, results, hgrouped, hkept, hresults, hschema⟩ :=
        h.exists_groups hs ha hkeeps hnames (hreads hg) hinput
      have hfinal : List.Forall₂ (fun e' type => p.typing.infer kept.schema e' = .ok type) a.final
          types := by
        obtain ⟨types', hfinal, heq⟩ := forall₂_lift (T := fun e' type =>
            p.typing.infer kept.schema e' = .ok type) (U := Eq) hcomplete.final htypes
          fun e e' type he _ hre htype => ⟨type, by
            rw [hschema]
            exact infer_final hs ha hkeeps hresults hnames (List.mem_append_left _ he) hre htype, rfl⟩
        rw [List.forall₂_eq_eq_eq] at heq
        rwa [heq] at hfinal
      have hlength' : a.final.length = s.names.length := by
        rw [← hcomplete.final.length_eq, hlength]
      obtain ⟨result, plan, hresult, hplan⟩ := exists_delivered hlength' hfinal hfolds haccepts
      exact ⟨plan, (build_eq_ok_of_groups hg).mpr
        ⟨base, rows, grouped, kept, result, hbase, hrows, hgrouped, hkept, hresult, hplan⟩⟩

include hs ha hkeeps in
/-- A statement in which calls that share a column have one type is planned exactly if it suits the
    planner, no column of its input has the name of a result, and, if it groups its rows, it reads
    keys only. -/
theorem exists_build_iff :
    (∃ plan, p.build s a = .ok plan) ↔
      Suits p s a ∧ (∀ entry ∈ a.calls, ¬s.input.Spells entry.column) ∧
        (groups s a = true → ∀ e ∈ s.exprs ++ s.having.toList,
          ReadsKeys p.functions s.input s.groupBy e) := by
  constructor
  · rintro ⟨plan, h⟩
    have hnames := not_spells_of_build hs ha h
    cases hg : groups s a with
    | false => exact ⟨suits_of_not_groups hs hg h, hnames, fun hno => by cases hno⟩
    | true =>
        obtain ⟨hsuits, hreads⟩ := suits_of_groups hs ha hkeeps hg h
        exact ⟨hsuits, hnames, fun _ => hreads⟩
  · rintro ⟨hsuits, hnames, hreads⟩
    exact hsuits.exists_build hs ha hkeeps hnames hreads

end

end Planner

end StreamSql
