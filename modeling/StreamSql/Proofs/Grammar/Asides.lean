/-
  Parts of a query that no statement has a place for: an order, a number of rows to fetch, a condition
  on windows, named windows, modifiers of the grouping, names for the columns of a relation, the
  escape character of a LIKE, the leniency of a TRY_CAST and others of the kind, wherever the syntax
  tree of the `sqlparser` library has them. `asides` are the parts of this kind that a query has, at any
  depth, and `plain` is the query without them. The plain queries are those that have none
  (`Query.asides_eq_nil`).

  A part that is kept only by its text may have such parts inside, which cannot be seen. `whole` says
  that a plain query has no part of this form left.
-/
import StreamSql.Grammar.Tree

namespace StreamSql

namespace Grammar

/-- A part of a query that its statement says nothing about. `order` stands for every ORDER BY: that of
    the query, one among the arguments of a call, and one WITHIN GROUP. -/
inductive Aside where
  | order
  | limitBy
  | settings
  | fetch
  | locks
  | forClause
  | format
  | top
  | into
  | lateralViews
  | prewhere
  | modifiers
  | clusterBy
  | distributeBy
  | sortBy
  | windows
  | qualify
  | connectBy
  | starOptions
  | columnNames
  | tableOptions
  | globalJoin
  | escape
  | likeAny
  | tryCast
  | safeCast
  | castFormat
  | parameters
  | callClause
  | nulls
  deriving DecidableEq, Inhabited

/-- The part, if it is there. -/
def Aside.when (a : Aside) (present : Bool) : List Aside :=
  if present then [a] else []

@[simp]
theorem Aside.when_eq_nil {a : Aside} {present : Bool} : a.when present = [] ↔ present = false := by
  cases present <;> simp [Aside.when]

/-! ## Terms -/

def CastForm.asides : CastForm → List Aside
  | .tryCast => [.tryCast]
  | .safeCast => [.safeCast]
  | .cast | .doubleColon => []

/-- The cast that fails where a lenient one gives NULL. -/
def CastForm.plain : CastForm → CastForm
  | .tryCast | .safeCast => .cast
  | f => f

theorem CastForm.asides_plain (f : CastForm) : f.plain.asides = [] := by
  cases f <;> rfl

theorem CastForm.plain_of_asides (f : CastForm) (h : f.asides = []) : f.plain = f := by
  cases f with
  | tryCast | safeCast => cases h
  | cast | doubleColon => rfl

def CallClause.aside : CallClause → Aside
  | .order _ => .order
  | .other _ => .callClause

def CallForm.asides (f : CallForm) : List Aside :=
  Aside.parameters.when f.parameters.isSome ++ f.clauses.map CallClause.aside ++
    Aside.order.when (!f.group.isEmpty) ++ Aside.nulls.when f.nulls.isSome

/-- What is left of the parts of a call: how duplicates are treated, whether it has parentheses, and
    the two forms that are refused. -/
def CallForm.plain (f : CallForm) : CallForm :=
  { f with parameters := none, clauses := [], group := [], nulls := none }

theorem CallForm.asides_plain (f : CallForm) : f.plain.asides = [] := rfl

theorem CallForm.plain_of_asides (f : CallForm) (h : f.asides = []) : f.plain = f := by
  simp only [asides, List.append_eq_nil_iff, Aside.when_eq_nil, List.map_eq_nil_iff,
    Bool.not_eq_false', List.isEmpty_iff, Option.isSome_eq_false_iff, Option.isNone_iff_eq_none,
    and_assoc] at h
  obtain ⟨hparameters, hclauses, hgroup, hnulls⟩ := h
  cases f
  simp only [plain, CallForm.mk.injEq, true_and, and_true]
  exact ⟨hparameters.symm, hclauses.symm, hgroup.symm, hnulls.symm⟩

namespace Term

mutual

/-- The parts of a term that are passed over. -/
def asides : Term → List Aside
  | name _ | path _ | value _ | star | argument _ _ | subquery _ | other _ _ => []
  | nested t | sign _ t | isNull t _ => asides t
  | binary l _ r => asides l ++ asides r
  | call _ as f => f.asides ++ listAsides as
  | case o bs e => optionAsides o ++ branchAsides bs ++ optionAsides e
  | cast f t _ fmt => f.asides ++ Aside.castFormat.when fmt.isSome ++ asides t
  | between t lo hi _ => asides t ++ asides lo ++ asides hi
  | like t p _ any esc =>
    Aside.likeAny.when any ++ Aside.escape.when esc.isSome ++ asides t ++ asides p
  | inList t ts _ => asides t ++ listAsides ts

def listAsides : List Term → List Aside
  | [] => []
  | t :: ts => asides t ++ listAsides ts

def branchAsides : List (Term × Term) → List Aside
  | [] => []
  | (w, t) :: bs => asides w ++ asides t ++ branchAsides bs

def optionAsides : Option Term → List Aside
  | none => []
  | some t => asides t

end

mutual

/-- The term without the parts that are passed over. -/
def plain : Term → Term
  | name i => name i
  | path is => path is
  | value v => value v
  | nested t => nested (plain t)
  | sign op t => sign op (plain t)
  | binary l op r => binary (plain l) op (plain r)
  | call fn as f => call fn (plainList as) f.plain
  | case o bs e => case (plainOption o) (plainBranches bs) (plainOption e)
  | cast f t ty _ => cast f.plain (plain t) ty none
  | isNull t n => isNull (plain t) n
  | between t lo hi n => between (plain t) (plain lo) (plain hi) n
  | like t p n _ _ => like (plain t) (plain p) n false none
  | inList t ts n => inList (plain t) (plainList ts) n
  | star => star
  | argument s o => argument s o
  | subquery q => subquery q
  | other s o => other s o

def plainList : List Term → List Term
  | [] => []
  | t :: ts => plain t :: plainList ts

def plainBranches : List (Term × Term) → List (Term × Term)
  | [] => []
  | (w, t) :: bs => (plain w, plain t) :: plainBranches bs

def plainOption : Option Term → Option Term
  | none => none
  | some t => some (plain t)

end

mutual

/-- A plain term has nothing that is passed over. -/
theorem asides_plain (t : Term) : t.plain.asides = [] := by
  cases t with
  | name | path | value | star | argument | subquery | other => simp only [plain, asides]
  | nested t | sign _ t | isNull t _ => simp only [plain, asides, asides_plain t]
  | binary l _ r =>
      simp only [plain, asides, asides_plain l, asides_plain r, List.append_nil]
  | call _ as f =>
      simp only [plain, asides, f.asides_plain, asides_plainList as, List.append_nil]
  | case o bs e =>
      simp only [plain, asides, asides_plainOption o, asides_plainBranches bs, asides_plainOption e,
        List.append_nil]
  | cast f t _ _ => simp [plain, asides, asides_plain t, f.asides_plain]
  | between t lo hi _ =>
      simp only [plain, asides, asides_plain t, asides_plain lo, asides_plain hi, List.append_nil]
  | like t p _ _ _ => simp [plain, asides, asides_plain t, asides_plain p]
  | inList t ts _ =>
      simp only [plain, asides, asides_plain t, asides_plainList ts, List.append_nil]

theorem asides_plainList (ts : List Term) : listAsides (plainList ts) = [] := by
  cases ts with
  | nil => rfl
  | cons t ts =>
      simp only [plainList, listAsides, asides_plain t, asides_plainList ts, List.append_nil]

theorem asides_plainBranches (bs : List (Term × Term)) : branchAsides (plainBranches bs) = [] := by
  cases bs with
  | nil => rfl
  | cons b bs =>
      obtain ⟨w, t⟩ := b
      simp only [plainBranches, branchAsides, asides_plain w, asides_plain t,
        asides_plainBranches bs, List.append_nil]

theorem asides_plainOption (o : Option Term) : optionAsides (plainOption o) = [] := by
  cases o with
  | none => rfl
  | some t => simp only [plainOption, optionAsides, asides_plain t]

end

mutual

/-- A term that has nothing that is passed over is plain. -/
theorem plain_of_asides (t : Term) (h : t.asides = []) : t.plain = t := by
  cases t with
  | name | path | value | star | argument | subquery | other => simp only [plain]
  | nested t | sign _ t | isNull t _ =>
      rw [asides] at h
      rw [plain, plain_of_asides t h]
  | binary l _ r =>
      simp only [asides, List.append_eq_nil_iff] at h
      rw [plain, plain_of_asides l h.1, plain_of_asides r h.2]
  | call _ as f =>
      simp only [asides, List.append_eq_nil_iff] at h
      rw [plain, f.plain_of_asides h.1, plainList_of_asides as h.2]
  | case o bs e =>
      simp only [asides, List.append_eq_nil_iff] at h
      rw [plain, plainOption_of_asides o h.1.1, plainBranches_of_asides bs h.1.2,
        plainOption_of_asides e h.2]
  | cast f t _ fmt =>
      simp only [asides, List.append_eq_nil_iff, Aside.when_eq_nil, Option.isSome_eq_false_iff,
        Option.isNone_iff_eq_none] at h
      rw [plain, plain_of_asides t h.2, f.plain_of_asides h.1.1, h.1.2]
  | between t lo hi _ =>
      simp only [asides, List.append_eq_nil_iff] at h
      rw [plain, plain_of_asides t h.1.1, plain_of_asides lo h.1.2, plain_of_asides hi h.2]
  | like t p _ any esc =>
      simp only [asides, List.append_eq_nil_iff, Aside.when_eq_nil, Option.isSome_eq_false_iff,
        Option.isNone_iff_eq_none] at h
      obtain ⟨⟨⟨hany, hescape⟩, ht⟩, hp⟩ := h
      rw [plain, plain_of_asides t ht, plain_of_asides p hp, hany, hescape]
  | inList t ts _ =>
      simp only [asides, List.append_eq_nil_iff] at h
      rw [plain, plain_of_asides t h.1, plainList_of_asides ts h.2]

theorem plainList_of_asides (ts : List Term) (h : listAsides ts = []) : plainList ts = ts := by
  cases ts with
  | nil => rfl
  | cons t ts =>
      simp only [listAsides, List.append_eq_nil_iff] at h
      rw [plainList, plain_of_asides t h.1, plainList_of_asides ts h.2]

theorem plainBranches_of_asides (bs : List (Term × Term)) (h : branchAsides bs = []) :
    plainBranches bs = bs := by
  cases bs with
  | nil => rfl
  | cons b bs =>
      obtain ⟨w, t⟩ := b
      simp only [branchAsides, List.append_eq_nil_iff] at h
      rw [plainBranches, plain_of_asides w h.1.1, plain_of_asides t h.1.2,
        plainBranches_of_asides bs h.2]

theorem plainOption_of_asides (o : Option Term) (h : optionAsides o = []) : plainOption o = o := by
  cases o with
  | none => rfl
  | some t =>
      rw [optionAsides] at h
      rw [plainOption, plain_of_asides t h]

end

end Term

/-! ## Queries -/

/-- A clause of terms that is passed over, with what is passed over inside. -/
def Aside.ofTerms (a : Aside) (ts : List Term) : List Aside :=
  a.when (!ts.isEmpty) ++ Term.listAsides ts

def Aside.ofTerm? (a : Aside) (o : Option Term) : List Aside :=
  a.when o.isSome ++ Term.optionAsides o

@[simp]
theorem Aside.ofTerms_eq_nil {a : Aside} {ts : List Term} : a.ofTerms ts = [] ↔ ts = [] := by
  cases ts <;> simp [ofTerms, Term.listAsides]

@[simp]
theorem Aside.ofTerm?_eq_nil {a : Aside} {o : Option Term} : a.ofTerm? o = [] ↔ o = none := by
  cases o <;> simp [ofTerm?, Term.optionAsides]

def Item.asides : Item → List Aside
  | .expr t _ => t.asides
  | .all o | .allOf _ o => Aside.starOptions.when (o ≠ {})

def Item.plain : Item → Item
  | .expr t a => .expr t.plain a
  | .all _ => .all {}
  | .allOf p _ => .allOf p {}

def FactorForm.asides : FactorForm → List Aside
  | .table _ o => Aside.tableOptions.when (o ≠ {})
  | .other _ _ _ => []

def FactorForm.plain : FactorForm → FactorForm
  | .table name _ => .table name {}
  | f => f

def Factor.asides (f : Factor) : List Aside :=
  f.form.asides ++ Aside.columnNames.when (f.aliasName.any (!·.columns.isEmpty))

def Factor.plain (f : Factor) : Factor :=
  ⟨f.form.plain, f.aliasName.map ({ · with columns := [] })⟩

def Constraint.asides : Constraint → List Aside
  | .on t => t.asides
  | .using _ | .natural | .none => []

def Constraint.plain : Constraint → Constraint
  | .on t => .on t.plain
  | c => c

def JoinKind.asides : JoinKind → List Aside
  | .asOf t => t.asides
  | _ => []

def JoinKind.plain : JoinKind → JoinKind
  | .asOf t => .asOf t.plain
  | k => k

def Join.asides (j : Join) : List Aside :=
  j.kind.asides ++ j.constraint.asides ++ j.factor.asides ++ Aside.globalJoin.when j.global

def Join.plain (j : Join) : Join :=
  ⟨j.kind.plain, j.constraint.plain, j.factor.plain, false⟩

def Joined.asides (s : Joined) : List Aside :=
  s.factor.asides ++ s.joins.flatMap Join.asides

def Joined.plain (s : Joined) : Joined :=
  ⟨s.factor.plain, s.joins.map Join.plain⟩

def Grouping.asides : Grouping → List Aside
  | .all ms => Aside.modifiers.when !ms.isEmpty
  | .keys ts ms => Term.listAsides ts ++ Aside.modifiers.when !ms.isEmpty

def Grouping.plain : Grouping → Grouping
  | .all _ => .all []
  | .keys ts _ => .keys (Term.plainList ts) []

def Select.asides (s : Select) : List Aside :=
  s.items.flatMap Item.asides ++ s.sources.flatMap Joined.asides ++ Term.optionAsides s.filter ++
    s.grouping.asides ++ Term.optionAsides s.having ++ Aside.top.when s.top.isSome ++
    Aside.into.when s.into.isSome ++ Aside.lateralViews.when (!s.lateralViews.isEmpty) ++
    Aside.prewhere.ofTerm? s.prewhere ++ Aside.clusterBy.ofTerms s.clusterBy ++
    Aside.distributeBy.ofTerms s.distributeBy ++ Aside.sortBy.ofTerms s.sortBy ++
    Aside.windows.when (!s.windows.isEmpty || s.windowsFirst) ++ Aside.qualify.ofTerm? s.qualify ++
    Aside.connectBy.when s.connectBy.isSome

/-- The clauses of a select that are not passed over. -/
def Select.plain (s : Select) : Select where
  distinct := s.distinct
  items := s.items.map Item.plain
  sources := s.sources.map Joined.plain
  filter := Term.plainOption s.filter
  grouping := s.grouping.plain
  having := Term.plainOption s.having

def Body.asides : Body → List Aside
  | .select s => s.asides
  | .other _ => []

def Body.plain : Body → Body
  | .select s => .select s.plain
  | .other s => .other s

/-- The parts of a query that are passed over. -/
def Query.asides (q : Query) : List Aside :=
  q.body.asides ++ Term.optionAsides q.limit ++
    Aside.order.when (!q.orderBy.isEmpty || q.interpolate.isSome) ++
    Aside.limitBy.ofTerms q.limitBy ++ Aside.settings.when (!q.settings.isEmpty) ++
    Aside.fetch.when q.fetch.isSome ++ Aside.locks.when (!q.locks.isEmpty) ++
    Aside.forClause.when q.forClause.isSome ++ Aside.format.when q.format.isSome

/-- The query without the parts that are passed over. -/
def Query.plain (q : Query) : Query where
  ctes := q.ctes
  body := q.body.plain
  limit := Term.plainOption q.limit
  offset := q.offset

/-! ### Plain queries -/

theorem Item.asides_plain (i : Item) : i.plain.asides = [] := by
  cases i with
  | expr t a => exact t.asides_plain
  | all | allOf => rfl

theorem FactorForm.asides_plain (f : FactorForm) : f.plain.asides = [] := by
  cases f <;> rfl

theorem Factor.asides_plain (f : Factor) : f.plain.asides = [] := by
  unfold asides plain
  cases f.aliasName <;> simp [f.form.asides_plain]

theorem Join.asides_plain (j : Join) : j.plain.asides = [] := by
  have hkind : j.kind.plain.asides = [] := by
    cases j.kind with
    | asOf t => exact t.asides_plain
    | _ => rfl
  have hconstraint : j.constraint.plain.asides = [] := by
    cases j.constraint with
    | on t => exact t.asides_plain
    | _ => rfl
  simp [asides, plain, hkind, hconstraint, j.factor.asides_plain]

theorem Joined.asides_plain (s : Joined) : s.plain.asides = [] := by
  simp [asides, plain, Factor.asides_plain, Join.asides_plain]

theorem Grouping.asides_plain (g : Grouping) : g.plain.asides = [] := by
  cases g with
  | all ms => rfl
  | keys ts ms => simp [asides, plain, Term.asides_plainList]

theorem Query.asides_plain (q : Query) : q.plain.asides = [] := by
  have hbody : q.body.plain.asides = [] := by
    cases q.body with
    | other s => rfl
    | select s =>
        simp [Body.asides, Body.plain, Select.asides, Select.plain, Item.asides_plain,
          Joined.asides_plain, Grouping.asides_plain, Term.asides_plainOption]
  simp [asides, plain, hbody, Term.asides_plainOption]

theorem Item.plain_of_asides (i : Item) (h : i.asides = []) : i.plain = i := by
  cases i with
  | expr t a => rw [plain, t.plain_of_asides h]
  | all o | allOf p o =>
      have ho : o = {} := by simpa [asides] using h
      rw [plain, ho]

theorem FactorForm.plain_of_asides (f : FactorForm) (h : f.asides = []) : f.plain = f := by
  cases f with
  | table name o =>
      have ho : o = {} := by simpa [asides] using h
      rw [plain, ho]
  | other head tail nested => rfl

theorem Factor.plain_of_asides (f : Factor) (h : f.asides = []) : f.plain = f := by
  obtain ⟨form, aliasName⟩ := f
  simp only [asides, List.append_eq_nil_iff, Aside.when_eq_nil] at h
  rw [plain, form.plain_of_asides h.1]
  cases aliasName with
  | none => rfl
  | some a =>
      obtain ⟨name, columns⟩ := a
      have hcolumns : columns = [] := by simpa using h.2
      rw [hcolumns]
      rfl

theorem Join.plain_of_asides (j : Join) (h : j.asides = []) : j.plain = j := by
  obtain ⟨kind, constraint, factor, global⟩ := j
  simp only [asides, List.append_eq_nil_iff, Aside.when_eq_nil] at h
  obtain ⟨⟨⟨hkind, hconstraint⟩, hfactor⟩, hglobal⟩ := h
  have hkind : kind.plain = kind := by
    cases kind with
    | asOf t => rw [JoinKind.plain, t.plain_of_asides hkind]
    | _ => rfl
  have hconstraint : constraint.plain = constraint := by
    cases constraint with
    | on t => rw [Constraint.plain, t.plain_of_asides hconstraint]
    | _ => rfl
  simp only [plain, hkind, hconstraint, factor.plain_of_asides hfactor, hglobal]

/-- A list of plain parts is as it was. -/
theorem map_of_asides {α : Type} {asides : α → List Aside} {plain : α → α} {as : List α}
    (hself : ∀ a, asides a = [] → plain a = a) (h : as.flatMap asides = []) :
    as.map plain = as := by
  rw [List.flatMap_eq_nil_iff] at h
  calc as.map plain = as.map id := List.map_congr_left fun a ha => hself a (h a ha)
    _ = as := List.map_id as

theorem Joined.plain_of_asides (s : Joined) (h : s.asides = []) : s.plain = s := by
  simp only [asides, List.append_eq_nil_iff] at h
  rw [plain, s.factor.plain_of_asides h.1, map_of_asides Join.plain_of_asides h.2]

theorem Grouping.plain_of_asides (g : Grouping) (h : g.asides = []) : g.plain = g := by
  cases g with
  | all ms =>
      simp only [asides, Aside.when_eq_nil, Bool.not_eq_false', List.isEmpty_iff] at h
      rw [plain, h]
  | keys ts ms =>
      simp only [asides, List.append_eq_nil_iff, Aside.when_eq_nil, Bool.not_eq_false',
        List.isEmpty_iff] at h
      rw [plain, Term.plainList_of_asides ts h.1, h.2]

theorem Select.plain_of_asides (s : Select) (h : s.asides = []) : s.plain = s := by
  simp only [asides, List.append_eq_nil_iff, Aside.when_eq_nil, Aside.ofTerms_eq_nil,
    Aside.ofTerm?_eq_nil, Bool.or_eq_false_iff, Bool.not_eq_false', List.isEmpty_iff,
    Option.isSome_eq_false_iff, Option.isNone_iff_eq_none, and_assoc] at h
  obtain ⟨hitems, hsources, hfilter, hgrouping, hhaving, hrest⟩ := h
  rw [plain, map_of_asides Item.plain_of_asides hitems,
    map_of_asides Joined.plain_of_asides hsources, Term.plainOption_of_asides _ hfilter,
    s.grouping.plain_of_asides hgrouping, Term.plainOption_of_asides _ hhaving]
  -- the other clauses are missing in both
  cases s
  simp only [Select.mk.injEq, true_and]
  obtain ⟨rfl, rfl, rfl, rfl, rfl, rfl, rfl, rfl, rfl, rfl, rfl⟩ := hrest
  trivial

theorem Query.plain_of_asides (q : Query) (h : q.asides = []) : q.plain = q := by
  simp only [asides, List.append_eq_nil_iff, Aside.when_eq_nil, Aside.ofTerms_eq_nil,
    Bool.or_eq_false_iff, Bool.not_eq_false', List.isEmpty_iff, Option.isSome_eq_false_iff,
    Option.isNone_iff_eq_none, and_assoc] at h
  obtain ⟨hbody, hlimit, hrest⟩ := h
  have hbody : q.body.plain = q.body := by
    generalize q.body = b at hbody
    cases b with
    | other s => rfl
    | select s => rw [Body.plain, s.plain_of_asides hbody]
  rw [plain, hbody, Term.plainOption_of_asides _ hlimit]
  cases q
  simp only [Query.mk.injEq, true_and]
  obtain ⟨rfl, rfl, rfl, rfl, rfl, rfl, rfl, rfl⟩ := hrest
  trivial

/-- The plain queries are those that have nothing that is passed over. -/
theorem Query.asides_eq_nil {q : Query} : q.asides = [] ↔ q.plain = q := by
  refine ⟨q.plain_of_asides, fun h => ?_⟩
  rw [← h]
  exact q.asides_plain

/-! ## Parts known by their text alone -/

namespace Term

mutual

/-- No part of the term is known by its text alone. -/
def whole : Term → Bool
  | value (.other _ _) | argument _ _ | subquery _ | other _ _ => false
  | name _ | path _ | value _ | star => true
  | nested t | sign _ t | isNull t _ | cast _ t _ _ => whole t
  | binary l _ r => whole l && whole r
  | call _ as f => f.subquery.isNone && f.window.isNone && wholeList as
  | case o bs e => wholeOption o && wholeBranches bs && wholeOption e
  | between t lo hi _ => whole t && whole lo && whole hi
  | like t p _ _ _ => whole t && whole p
  | inList t ts _ => whole t && wholeList ts

def wholeList : List Term → Bool
  | [] => true
  | t :: ts => whole t && wholeList ts

def wholeBranches : List (Term × Term) → Bool
  | [] => true
  | (w, t) :: bs => whole w && whole t && wholeBranches bs

def wholeOption : Option Term → Bool
  | none => true
  | some t => whole t

end

end Term

def Item.whole : Item → Bool
  | .expr t _ => t.whole
  | .all _ | .allOf _ _ => true

def Constraint.whole : Constraint → Bool
  | .on t => t.whole
  | .using _ | .natural | .none => true

def JoinKind.whole : JoinKind → Bool
  | .asOf t => t.whole
  | _ => true

def Join.whole (j : Join) : Bool :=
  j.kind.whole && j.constraint.whole && j.factor.table.isSome

def Joined.whole (s : Joined) : Bool :=
  s.factor.table.isSome && s.joins.all Join.whole

def Grouping.whole : Grouping → Bool
  | .all _ => true
  | .keys ts _ => Term.wholeList ts

def Select.whole (s : Select) : Bool :=
  s.distinct.isNone && s.items.all Item.whole && s.sources.all Joined.whole &&
    Term.wholeOption s.filter && s.grouping.whole && Term.wholeOption s.having

def Body.whole : Body → Bool
  | .select s => s.whole
  | .other _ => false

/-- No part of the query is known by its text alone, but for those that are passed over. -/
def Query.whole (q : Query) : Bool :=
  q.ctes.isNone && q.offset.isNone && q.body.whole && Term.wholeOption q.limit

end Grammar

end StreamSql
