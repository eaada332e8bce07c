/-
  What conversion (`convert_statement` and the `Converter` under it) makes of the parts of a query
  that no statement has a place for: nothing. Each of them is passed over without being looked at,
  so a query is converted exactly if it is without them, and into the same statement
  (`statement_plain`). The two may differ in the words of an error, where the text of a term or of a
  join is shown; hence `Agrees`, which compares results only.

  Parts that are known by their text alone are refused (`whole_queryOf`). So nothing is passed over
  inside of what is left.
-/
import StreamSql.Proofs.Grammar.Asides
import StreamSql.Proofs.Script.Constant

namespace StreamSql

namespace Script

open Outcome
open Grammar (Term)

variable {limit n : Nat}

/-- The term is given by its position among the arguments of a call. -/
def positional : Term → Bool
  | .star | .argument _ _ => false
  | _ => true

theorem positional_plain (t : Term) : positional t.plain = positional t := by
  cases t <;> simp only [Term.plain, positional]

theorem argumentExprs_cons {t : Term} (h : positional t = true) (ts : List Term) :
    argumentExprs limit n (t :: ts) = do
      let e ← expr limit n t
      return e :: (← argumentExprs limit n ts) := by
  cases t with
  | star | argument => cases h
  | _ => rfl

theorem eq_value_of_plain {t : Term} {v : Grammar.Value} (h : t.plain = .value v) :
    t = .value v := by
  cases t with
  | value w => exact h
  | _ => simp [Term.plain] at h

theorem expr_minus {t : Term} (h : ∀ digits long, t ≠ .value (.number digits long)) :
    expr limit (n + 1) (.sign .minus t) = do return .unary none .minus (← expr limit n t) := by
  cases t with
  | value v =>
      cases v with
      | number digits long => exact absurd rfl (h digits long)
      | _ => rfl
  | _ => rfl

mutual

/-- A term and the plain one are the same expression. -/
theorem expr_plain (n : Nat) (t : Term) : Agrees (expr limit n t.plain) (expr limit n t) := by
  cases n with
  | zero => cases t <;> exact .refl _
  | succ n =>
      cases t with
      | name | path | value | star | argument | subquery | other => exact .refl _
      | nested t => exact expr_plain n t
      | sign op t =>
          cases op with
          | factorial => exact .refl _
          | plus | not => exact .bind (expr_plain n t) fun _ => .refl _
          | minus =>
              by_cases hnumber : ∃ digits long, t = .value (.number digits long)
              · obtain ⟨digits, long, rfl⟩ := hnumber
                exact .refl _
              · have hplain : ∀ digits long, t.plain ≠ .value (.number digits long) := by
                  intro digits long h
                  exact hnumber ⟨digits, long, eq_value_of_plain h⟩
                rw [Term.plain, expr_minus hplain, expr_minus fun d l h => hnumber ⟨d, l, h⟩]
                exact .bind (expr_plain n t) fun _ => .refl _
      | binary l op r =>
          exact .bind (.refl _) fun form => .bind (expr_plain n l) fun _ =>
            .bind (expr_plain n r) fun _ => .refl _
      | call fn as form =>
          exact .guard (.bind (.refl _) fun loc => .guard
            (.bind (argumentExprs_plain n as) fun _ => .refl _))
      | case o bs e =>
          exact .bind (optionExpr_plain n o) fun _ => .bind (branchExprs_plain n bs) fun _ =>
            .bind (optionExpr_plain n e) fun _ => .refl _
      | cast f t type format =>
          rw [Term.plain, expr_cast, expr_cast]
          cases DataType.ofSqlName? type.text with
          | none => exact .refl _
          | some ty => exact .bind (expr_plain n t) fun _ => .refl _
      | isNull t neg => exact .bind (expr_plain n t) fun _ => .refl _
      | between t lo hi neg =>
          exact .bind (expr_plain n t) fun _ => .bind (expr_plain n lo) fun _ =>
            .bind (expr_plain n hi) fun _ => .refl _
      | like t p neg any esc =>
          exact .bind (expr_plain n t) fun _ => .bind (expr_plain n p) fun _ => .refl _
      | inList t ts neg =>
          exact .bind (expr_plain n t) fun _ => .bind (exprs_plain n ts) fun _ => .refl _

theorem argumentExprs_plain (n : Nat) (ts : List Term) :
    Agrees (argumentExprs limit n (Term.plainList ts)) (argumentExprs limit n ts) := by
  cases ts with
  | nil => exact .refl _
  | cons t ts =>
      cases h : positional t with
      | false =>
          cases t with
          | star | argument =>
              exact .bind (.refl _) fun _ => .bind (argumentExprs_plain n ts) fun _ => .refl _
          | _ => cases h
      | true =>
          have hplain : positional t.plain = true := by rw [positional_plain, h]
          rw [Term.plainList, argumentExprs_cons h, argumentExprs_cons hplain]
          exact .bind (expr_plain n t) fun _ => .bind (argumentExprs_plain n ts) fun _ => .refl _

theorem exprs_plain (n : Nat) (ts : List Term) :
    Agrees (exprs limit n (Term.plainList ts)) (exprs limit n ts) := by
  cases ts with
  | nil => exact .refl _
  | cons t ts =>
      exact .bind (expr_plain n t) fun _ => .bind (exprs_plain n ts) fun _ => .refl _

theorem branchExprs_plain (n : Nat) (bs : List (Term × Term)) :
    Agrees (branchExprs limit n (Term.plainBranches bs)) (branchExprs limit n bs) := by
  cases bs with
  | nil => exact .refl _
  | cons b bs =>
      obtain ⟨w, t⟩ := b
      exact .bind (expr_plain n w) fun _ => .bind (expr_plain n t) fun _ =>
        .bind (branchExprs_plain n bs) fun _ => .refl _

theorem optionExpr_plain (n : Nat) (o : Option Term) :
    Agrees (optionExpr limit n (Term.plainOption o)) (optionExpr limit n o) := by
  cases o with
  | none => exact .refl _
  | some t => exact .bind (expr_plain n t) fun _ => .refl _

end

/-! ### Queries -/

theorem selectItems_plain (is : List Grammar.Item) :
    Agrees (selectItems limit (is.map Grammar.Item.plain)) (selectItems limit is) := by
  induction is with
  | nil => exact .refl _
  | cons i is ih =>
      have hitem : Agrees (selectItem limit i.plain) (selectItem limit i) := by
        cases i with
        | expr t a => exact .bind (expr_plain limit t) fun _ => .refl _
        | all | allOf => exact .refl _
      exact .bind hitem fun _ => .bind ih fun _ => .refl _

theorem table_plain (f : Grammar.Factor) : f.plain.table = f.table := by
  obtain ⟨form, aliasName⟩ := f
  cases form <;> rfl

theorem tableRef_plain (f : Grammar.Factor) : tableRef f.plain = tableRef f := by
  unfold tableRef
  rw [table_plain]
  cases f.table with
  | none => rfl
  | some p => simp [Grammar.Factor.plain, Option.map_map, Function.comp_def]

theorem joinType_plain (j : Grammar.Join) (type : JoinType) :
    joinType j.plain = .ok type ↔ joinType j = .ok type := by
  obtain ⟨kind, constraint, factor, global⟩ := j
  cases kind <;> simp [joinType, Grammar.Join.plain, Grammar.JoinKind.plain]

theorem relation_plain (sources : List Grammar.Joined) :
    Agrees (relation limit (sources.map Grammar.Joined.plain)) (relation limit sources) := by
  match sources with
  | [] | _ :: _ :: _ => exact .refl _
  | [s] =>
      obtain ⟨factor, joins⟩ := s
      refine .bind (agrees_of_eq (tableRef_plain factor)) fun left => ?_
      match joins with
      | [] | _ :: _ :: _ => exact .refl _
      | [j] =>
          refine .bind (agrees_of_eq (tableRef_plain j.factor)) fun right =>
            .bind (agrees_lift (joinType_plain j)) fun type => ?_
          obtain ⟨kind, constraint, factor, global⟩ := j
          cases constraint with
          | on t => exact .bind (expr_plain limit t) fun _ => .refl _
          | _ => exact .refl _

theorem groupKeys_plain (g : Grammar.Grouping) :
    Agrees (groupKeys limit g.plain) (groupKeys limit g) := by
  cases g with
  | all ms => exact .refl _
  | keys ts ms => exact exprs_plain limit ts

theorem limitValue_plain (t : Term) (bound : Nat) :
    limitValue t.plain = .ok bound ↔ limitValue t = .ok bound := by
  cases t with
  | value v => rfl
  | _ => simp [limitValue, Term.plain]

theorem queryOf_plain (q : Grammar.Query) :
    Agrees (queryOf limit q.plain) (queryOf limit q) := by
  obtain ⟨ctes, body, orderBy, interpolate, bound, offset, limitBy, settings, fetch, locks,
    forClause, format⟩ := q
  refine .guard (.guard ?_)
  cases body with
  | other shown => exact .refl _
  | select s =>
      refine .guard (.bind (selectItems_plain s.items) fun _ =>
        .bind (relation_plain s.sources) fun _ =>
        .bind (optionExpr_plain limit s.filter) fun _ => .bind (groupKeys_plain s.grouping) fun _ =>
        .bind (optionExpr_plain limit s.having) fun _ => ?_)
      cases bound with
      | none => exact .refl _
      | some t => exact .bind (.map (agrees_lift (limitValue_plain t))) fun _ => .refl _

/-! ### Parts known by their text alone -/

mutual

theorem whole_expr (n : Nat) (t : Term) : Yields (fun _ => t.whole = true) (expr limit n t) := by
  cases n with
  | zero => cases t <;> exact .throw
  | succ n =>
      cases t with
      | name i => exact .bind fun _ => .pure rfl
      | path is =>
          match is with
          | [_, _] => exact .bind fun _ => .pure rfl
          | [] | [_] | _ :: _ :: _ :: _ => exact .throw
      | value v =>
          cases v with
          | other => exact .fails
          | _ => exact .bind fun _ => .pure rfl
      | nested t => exact whole_expr n t
      | sign op t =>
          cases op with
          | factorial => exact .throw
          | plus | not => exact .seq (whole_expr n t) fun _ ht => .pure ht
          | minus =>
              by_cases hnumber : ∃ digits long, t = .value (.number digits long)
              · obtain ⟨digits, long, rfl⟩ := hnumber
                exact .bind fun _ => .pure rfl
              · rw [expr_minus fun d l h => hnumber ⟨d, l, h⟩]
                exact .seq (whole_expr n t) fun _ ht => .pure ht
      | binary l op r =>
          exact .bind fun form => .seq (whole_expr n l) fun _ hl =>
            .seq (whole_expr n r) fun _ hr => .pure (by simp only [Term.whole, hl, hr, Bool.and_self])
      | call fn as form =>
          refine .guard fun hwindow => .bind fun loc => .guard fun hsubquery =>
            .seq (whole_argumentExprs n as) fun _ has => .lift fun _ _ => ?_
          rw [Option.not_isSome_iff_eq_none] at hwindow hsubquery
          simp only [Term.whole, hwindow, hsubquery, has, Option.isNone_none, Bool.and_self]
      | case o bs e =>
          exact .seq (whole_optionExpr n o) fun _ ho => .seq (whole_branchExprs n bs) fun _ hbs =>
            .seq (whole_optionExpr n e) fun _ he =>
            .pure (by simp only [Term.whole, ho, hbs, he, Bool.and_self])
      | cast f t type format =>
          rw [expr_cast]
          cases DataType.ofSqlName? type.text with
          | none => exact .throw
          | some ty => exact .seq (whole_expr n t) fun _ ht => .pure ht
      | isNull t neg => exact .seq (whole_expr n t) fun _ ht => .pure ht
      | between t lo hi neg =>
          exact .seq (whole_expr n t) fun _ ht => .seq (whole_expr n lo) fun _ hlo =>
            .seq (whole_expr n hi) fun _ hhi =>
            .pure (by simp only [Term.whole, ht, hlo, hhi, Bool.and_self])
      | like t p neg any esc =>
          exact .seq (whole_expr n t) fun _ ht => .seq (whole_expr n p) fun _ hp =>
            .pure (by simp only [Term.whole, ht, hp, Bool.and_self])
      | inList t ts neg =>
          exact .seq (whole_expr n t) fun _ ht => .seq (whole_exprs n ts) fun _ hts =>
            .pure (by simp only [Term.whole, ht, hts, Bool.and_self])
      | star | argument | subquery | other => exact .throw

theorem whole_argumentExprs (n : Nat) (ts : List Term) :
    Yields (fun _ => Term.wholeList ts = true) (argumentExprs limit n ts) := by
  cases ts with
  | nil => exact .pure rfl
  | cons t ts =>
      cases h : positional t with
      | true =>
          rw [argumentExprs_cons h]
          exact .seq (whole_expr n t) fun _ ht => .seq (whole_argumentExprs n ts) fun _ hts =>
            .pure (by simp only [Term.wholeList, ht, hts, Bool.and_self])
      | false =>
          cases t with
          | star => exact .bind fun _ => .seq (whole_argumentExprs n ts) fun _ hts => .pure hts
          | argument => exact .fails
          | _ => cases h

theorem whole_exprs (n : Nat) (ts : List Term) :
    Yields (fun _ => Term.wholeList ts = true) (exprs limit n ts) := by
  cases ts with
  | nil => exact .pure rfl
  | cons t ts =>
      exact .seq (whole_expr n t) fun _ ht => .seq (whole_exprs n ts) fun _ hts =>
        .pure (by simp only [Term.wholeList, ht, hts, Bool.and_self])

theorem whole_branchExprs (n : Nat) (bs : List (Term × Term)) :
    Yields (fun _ => Term.wholeBranches bs = true) (branchExprs limit n bs) := by
  cases bs with
  | nil => exact .pure rfl
  | cons b bs =>
      obtain ⟨w, t⟩ := b
      exact .seq (whole_expr n w) fun _ hw => .seq (whole_expr n t) fun _ ht =>
        .seq (whole_branchExprs n bs) fun _ hbs =>
        .pure (by simp only [Term.wholeBranches, hw, ht, hbs, Bool.and_self])

theorem whole_optionExpr (n : Nat) (o : Option Term) :
    Yields (fun _ => Term.wholeOption o = true) (optionExpr limit n o) := by
  cases o with
  | none => exact .pure rfl
  | some t => exact .seq (whole_expr n t) fun _ ht => .pure ht

end

theorem whole_selectItems (is : List Grammar.Item) :
    Yields (fun _ => is.all Grammar.Item.whole = true) (selectItems limit is) := by
  induction is with
  | nil => exact .pure rfl
  | cons i is ih =>
      have hitem : Yields (fun _ => i.whole = true) (selectItem limit i) := by
        cases i with
        | expr t a => exact .seq (whole_expr limit t) fun _ ht => .pure ht
        | all o => exact .pure rfl
        | allOf p o => exact .bind fun _ => .pure rfl
      exact .seq hitem fun _ hi => .seq ih fun _ his =>
        .pure (by rw [List.all_cons, hi, his, Bool.and_self])

theorem whole_tableRef (f : Grammar.Factor) :
    Yields (fun _ => f.table.isSome = true) (tableRef f) := by
  unfold tableRef
  cases f.table with
  | none => exact .throw
  | some p => exact .bind fun _ => .pure rfl

theorem whole_joinType {j : Grammar.Join} {type : JoinType} (h : joinType j = .ok type) :
    j.kind.whole = true := by
  obtain ⟨kind, constraint, factor, global⟩ := j
  cases kind with
  | asOf t => cases h
  | _ => rfl

theorem whole_relation (sources : List Grammar.Joined) :
    Yields (fun _ => sources.all Grammar.Joined.whole = true) (relation limit sources) := by
  match sources with
  | [] | _ :: _ :: _ => exact .throw
  | [s] =>
      obtain ⟨factor, joins⟩ := s
      refine .seq (whole_tableRef factor) fun left hleft => ?_
      match joins with
      | [] => exact .pure (by simp [Grammar.Joined.whole, hleft])
      | _ :: _ :: _ => exact .throw
      | [j] =>
          refine .seq (whole_tableRef j.factor) fun right hright =>
            .seq (.lift fun type => whole_joinType) fun type hkind => ?_
          obtain ⟨kind, constraint, factor, global⟩ := j
          cases constraint with
          | on t =>
              refine .seq (whole_expr limit t) fun _ ht => .pure ?_
              simp [Grammar.Joined.whole, Grammar.Join.whole, Grammar.Constraint.whole, hleft, hright,
                hkind, ht]
          | _ => exact .throw

theorem whole_groupKeys (g : Grammar.Grouping) :
    Yields (fun _ => g.whole = true) (groupKeys limit g) := by
  cases g with
  | all ms => exact .throw
  | keys ts ms => exact whole_exprs limit ts

theorem whole_limitValue {t : Term} {bound : Nat} (h : limitValue t = .ok bound) :
    t.whole = true := by
  cases t with
  | value v =>
      cases v with
      | number digits long => rfl
      | _ => cases h
  | _ => cases h

theorem whole_queryOf (q : Grammar.Query) :
    Yields (fun _ => q.whole = true) (queryOf limit q) := by
  obtain ⟨ctes, body, orderBy, interpolate, bound, offset, limitBy, settings, fetch, locks,
    forClause, format⟩ := q
  refine .guard fun hctes => .guard fun hoffset => ?_
  cases body with
  | other shown => exact .throw
  | select s =>
      refine .guard fun hdistinct => .seq (whole_selectItems s.items) fun _ hitems =>
        .seq (whole_relation s.sources) fun _ hsources =>
        .seq (whole_optionExpr limit s.filter) fun _ hfilter =>
        .seq (whole_groupKeys s.grouping) fun _ hgrouping =>
        .seq (whole_optionExpr limit s.having) fun _ hhaving => ?_
      have hwhole (hbound : Term.wholeOption bound = true) : Grammar.Query.whole
          { ctes, body := .select s, orderBy, interpolate, limit := bound, offset, limitBy, settings,
            fetch, locks, forClause, format } = true := by
        simp_all [Grammar.Query.whole, Grammar.Body.whole, Grammar.Select.whole]
      cases bound with
      | none => exact .pure (hwhole rfl)
      | some t =>
          exact .seq (.map (.lift fun _ => whole_limitValue)) fun _ ht => .pure (hwhole ht)

/-- The entry without the parts of its query that are passed over. -/
def Entry.plain (e : Entry) : Entry :=
  { e with query := e.query.plain }

/-- **Clauses that a statement has no place for are passed over.** Whatever of them a query has, it
    is converted exactly if it is without them, and into the same statement; and then no part of what
    is left is known by its text alone, so nothing is passed over out of sight. -/
theorem statement_plain (limit : Nat) (e : Entry) :
    (∀ st, e.statement limit = .ok st ↔ e.plain.statement limit = .ok st) ∧
      e.plain.query.asides = [] ∧ (e.query.asides = [] ↔ e.plain = e) ∧
      ∀ st, e.statement limit = .ok st → e.plain.query.whole = true := by
  have hplain (st : Statement) : e.statement limit = .ok st ↔ e.plain.statement limit = .ok st := by
    unfold Entry.statement
    simp only [bind_eq_ok]
    exact exists_congr fun r => and_congr_left fun _ => (queryOf_plain e.query _ r).symm
  refine ⟨hplain, e.query.asides_plain, ?_, fun st hst => ?_⟩
  · rw [Grammar.Query.asides_eq_nil]
    cases e
    simp [Entry.plain]
  · obtain ⟨r, hquery, _⟩ := bind_eq_ok.mp ((hplain st).mp hst)
    exact whole_queryOf e.plain.query _ _ _ hquery

/-- A query with every kind of part that is passed over. -/
def everyAside : Entry where
  text := "SELECT TOP 1 * EXCLUDE (x), TRY_CAST(a AS INT), SAFE_CAST(a AS INT FORMAT 'x'), p(0)(a), " ++
    "f(a ORDER BY b LIMIT 1) IGNORE NULLS INTO z FROM t PARTITION (p) AS u (b) GLOBAL JOIN v ON a " ++
    "LATERAL VIEW g(a) y AS c PREWHERE a WHERE a LIKE ANY 'x' ESCAPE '!' GROUP BY a WITH CUBE " ++
    "CLUSTER BY a DISTRIBUTE BY a SORT BY a WINDOW w AS () QUALIFY a START WITH a CONNECT BY a " ++
    "ORDER BY a LIMIT 1 BY a SETTINGS m = 1 FETCH FIRST ROW ONLY FOR UPDATE FOR JSON AUTO FORMAT CSV"
  envelope := .query
  window := none
  words := []
  query := {
    body := .select {
      items := [
        .all { exclude := some ⟨"EXCLUDE (x)", ""⟩ },
        .expr (.cast .tryCast (.name ⟨"a", none⟩) { text := "INT", outline := "Int(None)" } none) none,
        .expr (.cast .safeCast (.name ⟨"a", none⟩) { text := "INT", outline := "Int(None)" }
          (some ⟨"'x'", ""⟩)) none,
        .expr (.call [⟨"p", none⟩] [.name ⟨"a", none⟩] { parameters := some ⟨"(0)", ""⟩ }) none,
        .expr (.call [⟨"f", none⟩] [.name ⟨"a", none⟩]
          { clauses := [.order [⟨"b", ""⟩], .other ⟨"LIMIT 1", ""⟩],
            nulls := some ⟨"IGNORE NULLS", ""⟩ }) none]
      top := some ⟨"TOP 1", ""⟩
      into := some ⟨"INTO z", ""⟩
      sources := [⟨
        ⟨.table [⟨"t", none⟩] { partitions := [⟨"p", none⟩] }, some ⟨⟨"u", none⟩, [⟨"b", none⟩]⟩⟩,
        [⟨.inner, .on (.name ⟨"a", none⟩), ⟨.table [⟨"v", none⟩] {}, none⟩, true⟩]⟩]
      lateralViews := [⟨" LATERAL VIEW g(a) y AS c", ""⟩]
      prewhere := some (.name ⟨"a", none⟩)
      filter := some (.like (.name ⟨"a", none⟩) (.value (.string "x")) false true (some "!"))
      grouping := .keys [.name ⟨"a", none⟩] [⟨"WITH CUBE", "Cube"⟩]
      clusterBy := [.name ⟨"a", none⟩]
      distributeBy := [.name ⟨"a", none⟩]
      sortBy := [.name ⟨"a", none⟩]
      windows := [⟨"w AS ()", ""⟩]
      qualify := some (.name ⟨"a", none⟩)
      windowsFirst := true
      connectBy := some ⟨"START WITH a CONNECT BY a", ""⟩ }
    orderBy := [⟨"a", ""⟩]
    limit := some (.value (.number "1" false))
    limitBy := [.name ⟨"a", none⟩]
    settings := [⟨"m = 1", ""⟩]
    fetch := some ⟨"FETCH FIRST ROWS ONLY", ""⟩
    locks := [⟨"FOR UPDATE", ""⟩]
    forClause := some ⟨"FOR JSON AUTO", ""⟩
    format := some ⟨"FORMAT CSV", ""⟩ }

/-- What is left of it is `SELECT *, CAST(a AS INT), CAST(a AS INT), p(a), f(a) FROM t AS u JOIN v ON a
    WHERE a LIKE 'x' GROUP BY a LIMIT 1`. -/
theorem statement_plain_everyAside :
    (∀ a, a ∈ everyAside.query.asides) ∧ ∃ st, everyAside.statement 4 = .ok st ∧
      everyAside.plain.statement 4 = .ok st ∧ everyAside.plain.query.whole = true ∧
      st.body.filter.map Expr.text = some "(a LIKE 'x')" ∧
      st.body.groupBy.map Expr.text = ["a"] := by
  have hview : (fun st => (st.body.filter.map Expr.text, st.body.groupBy.map Expr.text)) <$>
      everyAside.statement 4 = .ok (some "(a LIKE 'x')", ["a"]) := rfl
  obtain ⟨st, hst, hview⟩ := map_eq_ok.mp hview
  obtain ⟨hfilter, hgroupBy⟩ := Prod.mk.inj hview
  obtain ⟨hplain, _, _, hwhole⟩ := statement_plain 4 everyAside
  refine ⟨fun a => ?_, st, hst, (hplain st).mp hst, hwhole st hst, hfilter, hgroupBy⟩
  cases a <;> decide

/-- An order is read and passed over. -/
theorem exists_order_passed_over : ∃ e st,
    parse 4 "SELECT a FROM t ORDER BY a" = .ok [e] ∧ e.query.asides = [.order] ∧
      prepare 4 "SELECT a FROM t ORDER BY a" = .ok [⟨e.text, st⟩] := by
  have hview : (parse 4 "SELECT a FROM t ORDER BY a").toOption.map
      (·.map fun e => (e.query.asides, (e.statement 4).toOption.isSome)) =
      some [([.order], true)] := by
    decide +kernel
  cases hparse : parse 4 "SELECT a FROM t ORDER BY a" with
  | error err =>
      rw [hparse] at hview
      cases hview
  | ok es =>
      rw [hparse] at hview
      simp only [Except.toOption, Option.map_some, Option.some.injEq] at hview
      obtain ⟨e, rfl, hentry⟩ := List.map_eq_singleton_iff.mp hview
      obtain ⟨hasides, hsome⟩ := Prod.mk.inj hentry
      cases hst : e.statement 4 with
      | error err =>
          rw [hst] at hsome
          cases hsome
      | ok st =>
          refine ⟨e, st, rfl, hasides, bind_eq_ok.mpr ⟨[e], hparse, mapM_eq_ok.mpr (.cons ?_ .nil)⟩⟩
          simp only [hst]

end Script

end StreamSql
