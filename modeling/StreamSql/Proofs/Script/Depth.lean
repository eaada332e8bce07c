/-
  How deep the expressions of a converted statement are. Conversion takes a level for every term that
  it goes into; the `*` among the arguments of a call is no term that it goes into, so it takes none.
  What comes out is therefore within the limit but for such arguments, which may stand one level
  below it (`fitsIn_expr`, by induction on the term; `fitsIn_queryOf` for a whole query).

  Analysis counts every node. Hence it is exactly a `*` on that level that lets a statement be
  converted and then be too deep under the same limit (`statement_depth`,
  `exists_converted_then_too_deep`).
-/
import StreamSql.Proofs.Plan.Depth
import StreamSql.Proofs.Script.Asides

namespace StreamSql

open Outcome

/-! ## Nodes by level -/

namespace Expr

/-- The node stands on this level of the expression, the expression itself on the first. -/
inductive NodeAt : Expr → Nat → Expr → Prop
  | self {e : Expr} : e.NodeAt 1 e
  | part {k : Nat} {c d e : Expr} (member : c ∈ e.children) (inner : c.NodeAt k d) :
      e.NodeAt (k + 1) d

variable {d e : Expr} {k n m : Nat}

theorem height_le_iff : e.height ≤ n ↔ ∀ k d, e.NodeAt k d → k ≤ n := by
  constructor
  · intro h k d hd
    induction hd generalizing n with
    | self => exact Nat.lt_of_lt_of_le (height_pos _) h
    | part member _ ih =>
        cases n with
        | zero => exact absurd (height_pos _) (Nat.not_lt.mpr h)
        | succ n => exact Nat.succ_le_succ (ih (height_le_succ.mp h _ member))
  · induction e using inductParts generalizing n with
    | step e ih =>
        intro h
        cases n with
        | zero => exact absurd (h 1 e .self) (by decide)
        | succ n =>
            rw [height_le_succ]
            intro c hc
            exact ih c hc fun k d hd => Nat.le_of_succ_le_succ (h (k + 1) d (.part hc hd))

/-- All nodes are within the levels, or are a `*` on the next one. -/
def FitsIn (n : Nat) (e : Expr) : Prop :=
  ∀ k d, e.NodeAt k d → k ≤ n ∨ k = n + 1 ∧ ∃ l, d = .wildcard l

theorem fitsIn_node (h : ∀ c ∈ e.children, c.FitsIn n) : e.FitsIn (n + 1) := by
  intro k d hd
  cases hd with
  | self => exact Or.inl (Nat.succ_le_succ (Nat.zero_le n))
  | part member inner =>
      rcases h _ member _ _ inner with hle | ⟨rfl, hstar⟩
      · exact Or.inl (Nat.succ_le_succ hle)
      · exact Or.inr ⟨rfl, hstar⟩

theorem fitsIn_wildcard (l : Option Location) : FitsIn n (.wildcard l) := by
  intro k d hd
  cases hd with
  | self =>
      cases n with
      | zero => exact Or.inr ⟨rfl, l, rfl⟩
      | succ n => exact Or.inl (Nat.succ_le_succ (Nat.zero_le n))
  | part member => cases member

theorem FitsIn.succ (h : e.FitsIn n) : e.FitsIn (n + 1) := by
  intro k d hd
  rcases h k d hd with hle | ⟨rfl, _⟩
  · exact Or.inl (Nat.le_succ_of_le hle)
  · exact Or.inl (Nat.le_refl _)

/-- What fits is within the levels exactly if no `*` stands on the next one. -/
theorem FitsIn.height_le (h : e.FitsIn n) : e.height ≤ n ↔ ∀ l, ¬e.NodeAt (n + 1) (.wildcard l) := by
  rw [height_le_iff]
  constructor
  · intro hle l hd
    exact absurd (hle _ _ hd) (Nat.not_succ_le_self n)
  · intro hnone k d hd
    rcases h k d hd with hle | ⟨rfl, l, rfl⟩
    · exact hle
    · exact absurd hd (hnone l)

end Expr

/-! ## Conversion -/

namespace Script

open Grammar (Term)

variable {limit n : Nat}

theorem fitsIn_form {l r : Expr} (hl : l.FitsIn n) (hr : r.FitsIn n) (form : InfixForm) :
    (form.expr l r).FitsIn (n + 1) := by
  have hboth : ∀ c ∈ [l, r], c.FitsIn n := by
    simp only [List.forall_mem_cons, List.not_mem_nil, false_imp_iff, implies_true, and_true]
    exact ⟨hl, hr⟩
  cases form <;> exact Expr.fitsIn_node hboth

theorem fitsIn_callExpr {loc : Option Location} {name : String} {args : List Expr} {distinct : Bool}
    {e : Expr} (hargs : ∀ c ∈ args, c.FitsIn n) (h : callExpr loc name args distinct = .ok e) :
    e.FitsIn (n + 1) := by
  unfold callExpr at h
  split at h
  · split at h
    · cases h
      exact Expr.fitsIn_node hargs
    · cases h
  · cases h
    exact Expr.fitsIn_node hargs

theorem fitsIn_single {e : Expr} (node : Expr) (hchildren : node.children = [e]) (h : e.FitsIn n) :
    node.FitsIn (n + 1) :=
  Expr.fitsIn_node (by simpa [hchildren] using h)

mutual

theorem fitsIn_expr (n : Nat) (t : Term) : Yields (·.FitsIn n) (expr limit n t) := by
  cases n with
  | zero => cases t <;> exact .throw
  | succ n =>
      have hleaf {e : Expr} (h : e.children = []) : e.FitsIn (n + 1) :=
        Expr.fitsIn_node (by simp [h])
      cases t with
      | name i => exact .bind fun _ => .pure (hleaf rfl)
      | path is =>
          match is with
          | [q, c] => exact .bind fun _ => .pure (hleaf rfl)
          | [] | [_] | _ :: _ :: _ :: _ => exact .throw
      | value v => exact .bind fun _ => .pure (hleaf rfl)
      | nested t => exact fun s e s' h => (fitsIn_expr n t s e s' h).succ
      | sign op t =>
          have hunary (op : UnaryOp) : Yields (·.FitsIn (n + 1))
              (do return .unary none op (← expr limit n t) : Reading Expr) :=
            .seq (fitsIn_expr n t) fun _ he => .pure (fitsIn_single _ rfl he)
          cases op with
          | factorial => exact .throw
          | plus | not => exact hunary _
          | minus =>
              by_cases hnumber : ∃ digits long, t = .value (.number digits long)
              · obtain ⟨digits, long, rfl⟩ := hnumber
                exact .bind fun _ => .pure (hleaf rfl)
              · rw [expr_minus fun d l h => hnumber ⟨d, l, h⟩]
                exact hunary _
      | binary l op r =>
          exact .bind fun form => .seq (fitsIn_expr n l) fun _ hl =>
            .seq (fitsIn_expr n r) fun _ hr => .pure (fitsIn_form hl hr form)
      | call fn as form =>
          have hcall (loc : Option Location) (name : String) (distinct : Bool) :
              Yields (·.FitsIn (n + 1))
                (do callExpr loc name (← argumentExprs limit n as) distinct : Reading Expr) :=
            .seq (fitsIn_argumentExprs n as) fun _ hargs => .lift fun _ h => fitsIn_callExpr hargs h
          refine .ite .fails (.bind fun loc => .ite .fails (hcall _ _ _))
      | case o bs e =>
          refine .seq (fitsIn_optionExpr n o) fun _ ho => .seq (fitsIn_branchExprs n bs) fun _ hbs =>
            .seq (fitsIn_optionExpr n e) fun _ he => .pure (Expr.fitsIn_node ?_)
          simp only [Expr.children, List.forall_mem_append]
          exact ⟨⟨ho, hbs⟩, he⟩
      | cast f t type format =>
          rw [expr_cast]
          cases DataType.ofSqlName? type.text with
          | none => exact .throw
          | some ty => exact .seq (fitsIn_expr n t) fun _ he => .pure (fitsIn_single _ rfl he)
      | isNull t neg => exact .seq (fitsIn_expr n t) fun _ he => .pure (fitsIn_single _ rfl he)
      | between t lo hi neg =>
          exact .seq (fitsIn_expr n t) fun _ he => .seq (fitsIn_expr n lo) fun _ hlo =>
            .seq (fitsIn_expr n hi) fun _ hhi =>
            .pure (Expr.fitsIn_node (by simp [Expr.children, he, hlo, hhi]))
      | like t p neg any esc =>
          exact .seq (fitsIn_expr n t) fun _ he => .seq (fitsIn_expr n p) fun _ hp =>
            .pure (Expr.fitsIn_node (by simp [Expr.children, he, hp]))
      | inList t ts neg =>
          exact .seq (fitsIn_expr n t) fun _ he => .seq (fitsIn_exprs n ts) fun _ hes =>
            .pure (Expr.fitsIn_node (List.forall_mem_cons.mpr ⟨he, hes⟩))
      | star | argument | subquery | other => exact .throw

theorem fitsIn_argumentExprs (n : Nat) (ts : List Term) :
    Yields (fun es => ∀ e ∈ es, e.FitsIn n) (argumentExprs limit n ts) := by
  cases ts with
  | nil => exact .pure (by simp)
  | cons t ts =>
      cases h : positional t with
      | true =>
          rw [argumentExprs_cons h]
          exact .seq (fitsIn_expr n t) fun _ he => .seq (fitsIn_argumentExprs n ts) fun _ hes =>
            .pure (List.forall_mem_cons.mpr ⟨he, hes⟩)
      | false =>
          cases t with
          | star =>
              -- it fits even where no level is left
              exact .seq (.pure (Expr.fitsIn_wildcard none)) fun _ he =>
                .seq (fitsIn_argumentExprs n ts) fun _ hes =>
                .pure (List.forall_mem_cons.mpr ⟨he, hes⟩)
          | argument => exact .fails
          | _ => cases h

theorem fitsIn_exprs (n : Nat) (ts : List Term) :
    Yields (fun es => ∀ e ∈ es, e.FitsIn n) (exprs limit n ts) := by
  cases ts with
  | nil => exact .pure (by simp)
  | cons t ts =>
      exact .seq (fitsIn_expr n t) fun _ he => .seq (fitsIn_exprs n ts) fun _ hes =>
        .pure (List.forall_mem_cons.mpr ⟨he, hes⟩)

theorem fitsIn_branchExprs (n : Nat) (bs : List (Term × Term)) :
    Yields (fun bs => ∀ e ∈ bs.flatMap fun b => [b.1, b.2], e.FitsIn n) (branchExprs limit n bs) := by
  cases bs with
  | nil => exact .pure (by simp)
  | cons b bs =>
      obtain ⟨w, t⟩ := b
      refine .seq (fitsIn_expr n w) fun _ hw => .seq (fitsIn_expr n t) fun _ ht =>
        .seq (fitsIn_branchExprs n bs) fun _ hbs => .pure ?_
      simp only [List.flatMap_cons, List.forall_mem_append, List.forall_mem_cons]
      exact ⟨⟨hw, ht, by simp⟩, hbs⟩

theorem fitsIn_optionExpr (n : Nat) (o : Option Term) :
    Yields (fun o => ∀ e ∈ o.toList, e.FitsIn n) (optionExpr limit n o) := by
  cases o with
  | none => exact .pure (by simp)
  | some t => exact .seq (fitsIn_expr n t) fun _ he => .pure (by simpa using he)

end

/-! ### Queries -/

theorem fitsIn_selectItems (is : List Grammar.Item) :
    Yields (fun items => ∀ e ∈ items.filterMap SelectItem.expr?, e.FitsIn limit)
      (selectItems limit is) := by
  induction is with
  | nil => exact .pure (by simp)
  | cons i is ih =>
      have hitem : Yields (fun item => ∀ e ∈ item.expr?, e.FitsIn limit) (selectItem limit i) := by
        cases i with
        | expr t a =>
            exact .seq (fitsIn_expr limit t) fun _ he =>
              .pure (by simpa [SelectItem.expr?] using he)
        | all o => exact .pure (by simp [SelectItem.expr?])
        | allOf p o => exact .bind fun _ => .pure (by simp [SelectItem.expr?])
      refine .seq hitem fun item he => .seq ih fun items hes => .pure ?_
      rw [List.filterMap_cons]
      cases hexpr : item.expr? with
      | none => exact hes
      | some e => exact List.forall_mem_cons.mpr ⟨he e hexpr, hes⟩

theorem fitsIn_relation (sources : List Grammar.Joined) :
    Yields (fun r => ∀ e ∈ r.criteria?.toList, e.FitsIn limit) (relation limit sources) := by
  match sources with
  | [] | _ :: _ :: _ => exact .throw
  | [s] =>
      obtain ⟨factor, joins⟩ := s
      refine .bind fun left => ?_
      match joins with
      | [] => exact .pure (by simp [Relation.criteria?])
      | _ :: _ :: _ => exact .throw
      | [j] =>
          obtain ⟨kind, constraint, factor, global⟩ := j
          refine .bind fun right => .bind fun type => ?_
          cases constraint with
          | on t =>
              exact .seq (fitsIn_expr limit t) fun _ he =>
                .pure (by simpa [Relation.criteria?] using he)
          | _ => exact .throw

theorem fitsIn_groupKeys (g : Grammar.Grouping) :
    Yields (fun es => ∀ e ∈ es, e.FitsIn limit) (groupKeys limit g) := by
  cases g with
  | all ms => exact .throw
  | keys ts ms => exact fitsIn_exprs limit ts

theorem fitsIn_queryOf (q : Grammar.Query) :
    Yields (fun q => ∀ e ∈ q.clauses, e.FitsIn limit) (queryOf limit q) := by
  refine .ite .fails (.ite .fails ?_)
  cases q.body with
  | other shown => exact .throw
  | select s =>
      refine .ite .fails (.seq (fitsIn_selectItems s.items) fun select hselect =>
        .seq (fitsIn_relation s.sources) fun source hsource =>
        .seq (fitsIn_optionExpr limit s.filter) fun filter hfilter =>
        .seq (fitsIn_groupKeys s.grouping) fun groupBy hgroupBy =>
        .seq (fitsIn_optionExpr limit s.having) fun having hhaving => ?_)
      have hclauses (bound : Option Nat) :
          ∀ e ∈ Query.clauses { select, source, filter, groupBy, having, limit := bound },
            e.FitsIn limit := by
        simp only [Query.clauses, List.forall_mem_append]
        exact ⟨⟨⟨⟨hselect, hfilter⟩, hgroupBy⟩, hhaving⟩, hsource⟩
      cases q.limit with
      | none => exact .pure (hclauses none)
      | some t => exact .bind fun bound => .pure (hclauses bound)

theorem fitsIn_statement {e : Entry} {st : Statement} (h : e.statement limit = .ok st) :
    ∀ x ∈ st.body.clauses, x.FitsIn limit := by
  obtain ⟨⟨q, words⟩, hquery, h⟩ := bind_eq_ok.mp h
  cases h
  have hfits := fitsIn_queryOf e.query _ _ _ hquery
  cases he : e.envelope <;> exact hfits

/-- **A converted statement is within the limit but for arguments `*`.** Every node of its
    expressions is on a level up to the limit, or it is a `*` on the next one. Without such a `*`
    no expression is too high, and analysis under the same limit never fails because of depth; with
    one the statement is never analysed. -/
theorem statement_depth (limit : Nat) (e : Entry) {st : Statement}
    (h : e.statement limit = .ok st) :
    (∀ x ∈ st.body.clauses,
      (∀ k d, x.NodeAt k d → k ≤ limit ∨ k = limit + 1 ∧ ∃ l, d = .wildcard l) ∧
        (x.height ≤ limit ↔ ∀ l, ¬x.NodeAt (limit + 1) (.wildcard l))) ∧
    ∀ (catalog : Catalog) (config : Config), config.maxDepth = limit →
      (Shallow (Analysis.ofStatement catalog config st) ∨
        ∃ x ∈ st.body.clauses, ∃ l, x.NodeAt (limit + 1) (.wildcard l)) ∧
      ∀ s, Analysis.ofStatement catalog config st = .ok s →
        ∀ x ∈ st.body.clauses, ∀ l, ¬x.NodeAt (limit + 1) (.wildcard l) := by
  have hfits := fitsIn_statement h
  refine ⟨fun x hx => ⟨hfits x hx, (hfits x hx).height_le⟩, fun catalog config hlimit => ⟨?_, ?_⟩⟩
  · by_cases hstar : ∃ x ∈ st.body.clauses, ∃ l, x.NodeAt (limit + 1) (.wildcard l)
    · exact Or.inr hstar
    · refine Or.inl (Analysis.shallow_ofStatement fun x hx => ?_)
      rw [hlimit, (hfits x hx).height_le]
      exact fun l hl => hstar ⟨x, hx, l, hl⟩
  · intro s hs x hx
    rw [← (hfits x hx).height_le, ← hlimit]
    exact Analysis.height_of_ofStatement hs hx

/-- `SELECT COUNT(*) + 1 FROM visits` -/
def counted : Entry where
  text := "SELECT COUNT(*) + 1 FROM visits"
  envelope := .query
  window := none
  words := []
  query := {
    body := .select {
      items := [.expr (.binary (.call [⟨"COUNT", none⟩] [.star] {}) .plus (.value (.number "1" false)))
        none]
      sources := [⟨⟨.table [⟨"visits", none⟩] {}, none⟩, []⟩] } }

/-- Two levels are enough to convert the three of it, and not to analyse them. -/
theorem statement_depth_counted : ∃ st x, counted.statement 2 = .ok st ∧ st.body.clauses = [x] ∧
    x.text = "(COUNT(*) + 1)" ∧ x.height = 3 ∧ x.NodeAt 3 (.wildcard none) ∧
    (∀ k d, x.NodeAt k d → k ≤ 2 ∨ k = 3 ∧ ∃ l, d = .wildcard l) ∧
    ∀ catalog s, Analysis.ofStatement catalog { maxDepth := 2 } st ≠ .ok s := by
  have hst : counted.statement 2 = .ok (.query {
      select := [.expr (.arith none (.call none "COUNT" [.wildcard none] false) .add
        (.literal none (.integer 1))) none]
      source := .table ⟨"visits", none, none⟩ }) := rfl
  have hstar : Expr.NodeAt (.arith none (.call none "COUNT" [.wildcard none] false) .add
      (.literal none (.integer 1))) 3 (.wildcard none) :=
    .part List.mem_cons_self (.part List.mem_cons_self .self)
  obtain ⟨hnodes, hanalysis⟩ := statement_depth 2 counted hst
  refine ⟨_, _, hst, rfl, by decide +kernel, rfl, hstar, (hnodes _ List.mem_cons_self).1, ?_⟩
  intro catalog s hs
  exact (hanalysis catalog { maxDepth := 2 } rfl).2 s hs _ List.mem_cons_self none hstar

/-- The limit that a run found to be exceeded. -/
def exceeded? {α : Type} : Except Error α → Option Nat
  | .error (.tooDeep limit) => some limit
  | _ => none

theorem eq_of_exceeded? {α : Type} {x : Except Error α} (h : exceeded? x = some limit) :
    x = .error (.tooDeep limit) := by
  unfold exceeded? at h
  split at h <;> cases h
  rfl

/-- A statement that is converted and then too deep for the same limit. -/
theorem exists_converted_then_too_deep :
    ∃ st, prepare 4 "SELECT COUNT(*) + 1 + 1 + 1 FROM stream1" =
        .ok [⟨"SELECT COUNT(*) + 1 + 1 + 1 FROM stream1", st⟩] ∧
      st.body.clauses.map Expr.height = [5] ∧
      Analysis.ofStatement ⟨[("stream1", [⟨"col1", .utf8, true⟩])]⟩ { maxDepth := 4 } st =
        .error (.tooDeep 4) := by
  have hview : (prepare 4 "SELECT COUNT(*) + 1 + 1 + 1 FROM stream1").toOption.map
      (·.map fun p => (p.text, p.statement.body.clauses.map Expr.height,
        exceeded? (Analysis.ofStatement ⟨[("stream1", [⟨"col1", .utf8, true⟩])]⟩ { maxDepth := 4 }
          p.statement))) =
      some [("SELECT COUNT(*) + 1 + 1 + 1 FROM stream1", [5], some 4)] := by
    decide +kernel
  cases hprepare : prepare 4 "SELECT COUNT(*) + 1 + 1 + 1 FROM stream1" with
  | error err =>
      rw [hprepare] at hview
      cases hview
  | ok ps =>
      rw [hprepare] at hview
      simp only [Except.toOption, Option.map_some, Option.some.injEq] at hview
      obtain ⟨⟨text, st⟩, rfl, hentry⟩ := List.map_eq_singleton_iff.mp hview
      simp only [Prod.mk.injEq] at hentry
      obtain ⟨rfl, hheights, hlimit⟩ := hentry
      exact ⟨st, rfl, hheights, eq_of_exceeded? hlimit⟩

end Script

end StreamSql
