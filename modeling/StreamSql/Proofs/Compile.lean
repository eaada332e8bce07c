/-
  Which error a script is answered with. A script is scanned, its statements are split into their
  parts, all of them are converted, and only then are they planned. Up to the parts an error stands
  for itself; from conversion on it is tied to the text of its statement. `Planner.Reports` lists the
  five ways to fail in this order, and `errors_of_script` says that compiling, planning and explaining
  a script end with exactly those errors.

  An error is tied to a statement only once, so what matters about the stages is that none of them
  does so itself: each fails with a bare error (`bare_statement`, `Planner.bare_stages`).
-/
import StreamSql.Proofs.Plan.Failures
import StreamSql.Proofs.Script.Asides

namespace StreamSql

open Outcome

/-- An error that was not tied to a statement is tied to the one that is given. -/
theorem Error.mapError_inStatement {α : Type} {x : Except Error α} (hx : Fails Bare x)
    {text : String} {err : Error} :
    x.mapError (·.inStatement text) = .error err ↔
      ∃ cause, x = .error cause ∧ err = .within text cause := by
  cases x with
  | ok a => simp [Except.mapError]
  | error cause => simp [Except.mapError, (hx cause rfl).inStatement_eq, eq_comm]

namespace Script

open Grammar (Term)

variable {limit n : Nat}

/-! ## Conversion -/

theorem bare_numberLiteral (negative : Bool) (digits : String) :
    Fails Error.Bare (numberLiteral negative digits) := by
  unfold numberLiteral
  refine .ite ?_ ?_
  · split
    · exact .ok
    · exact .error rfl
  · split
    · exact .ok
    · exact .error rfl

theorem bare_literal (v : Grammar.Value) : Fails Error.Bare (literal v) := by
  cases v with
  | number digits long => exact bare_numberLiteral false digits
  | other => exact .error rfl
  | _ => exact .ok

theorem bare_infixForm (op : Grammar.InfixOp) : Fails Error.Bare (infixForm op) := by
  cases op with
  | other => exact .error rfl
  | _ => exact .ok

theorem bare_callExpr (l : Option Location) (name : String) (args : List Expr) (distinct : Bool) :
    Fails Error.Bare (callExpr l name args distinct) := by
  unfold callExpr
  refine .ite ?_ .ok
  split
  · exact .ok
  · exact .error rfl

theorem bare_locate (name : String) : FailsAt Error.Bare (locate name) := by
  refine .bind (fun _ => .ok) fun l => ?_
  dsimp only
  split
  · exact .bind (fun _ => .ok) fun _ => .pure
  · exact .pure

mutual

theorem bare_expr (n : Nat) (t : Term) : FailsAt Error.Bare (expr limit n t) := by
  cases n with
  | zero => cases t <;> exact .throw rfl
  | succ n =>
      cases t with
      | name i => exact .bind (bare_locate _) fun _ => .pure
      | path is =>
          match is with
          | [q, c] => exact .bind (bare_locate _) fun _ => .pure
          | [] | [_] | _ :: _ :: _ :: _ => exact .throw rfl
      | value v => exact .bind (.lift (bare_literal v)) fun _ => .pure
      | nested t => exact bare_expr n t
      | sign op t =>
          cases op with
          | factorial => exact .throw rfl
          | plus | not => exact .bind (bare_expr n t) fun _ => .pure
          | minus =>
              by_cases hnumber : ∃ digits long, t = .value (.number digits long)
              · obtain ⟨digits, long, rfl⟩ := hnumber
                exact .bind (.lift (bare_numberLiteral true digits)) fun _ => .pure
              · rw [expr_minus fun d l h => hnumber ⟨d, l, h⟩]
                exact .bind (bare_expr n t) fun _ => .pure
      | binary l op r =>
          exact .bind (.lift (bare_infixForm op)) fun form => .bind (bare_expr n l) fun _ =>
            .bind (bare_expr n r) fun _ => .pure
      | call fn as form =>
          exact .guard rfl (.bind (bare_locate _) fun loc => .guard rfl
            (.bind (bare_argumentExprs n as) fun _ => .lift (bare_callExpr _ _ _ _)))
      | case o bs e =>
          exact .bind (bare_optionExpr n o) fun _ => .bind (bare_branchExprs n bs) fun _ =>
            .bind (bare_optionExpr n e) fun _ => .pure
      | cast f t type format =>
          rw [expr_cast]
          cases DataType.ofSqlName? type.text with
          | none => exact .throw rfl
          | some ty => exact .bind (bare_expr n t) fun _ => .pure
      | isNull t neg => exact .bind (bare_expr n t) fun _ => .pure
      | between t lo hi neg =>
          exact .bind (bare_expr n t) fun _ => .bind (bare_expr n lo) fun _ =>
            .bind (bare_expr n hi) fun _ => .pure
      | like t p neg any esc =>
          exact .bind (bare_expr n t) fun _ => .bind (bare_expr n p) fun _ => .pure
      | inList t ts neg =>
          exact .bind (bare_expr n t) fun _ => .bind (bare_exprs n ts) fun _ => .pure
      | star | argument | subquery | other => exact .throw rfl

theorem bare_argumentExprs (n : Nat) (ts : List Term) :
    FailsAt Error.Bare (argumentExprs limit n ts) := by
  cases ts with
  | nil => exact .pure
  | cons t ts =>
      have hrest : ∀ e : Expr, FailsAt Error.Bare (do return e :: (← argumentExprs limit n ts)) :=
        fun e => .bind (bare_argumentExprs n ts) fun _ => .pure
      cases h : positional t with
      | true =>
          rw [argumentExprs_cons h]
          exact .bind (bare_expr n t) hrest
      | false =>
          cases t with
          | star => exact .bind .pure hrest
          | argument => exact .bind (.throw rfl) hrest
          | _ => cases h

theorem bare_exprs (n : Nat) (ts : List Term) : FailsAt Error.Bare (exprs limit n ts) := by
  cases ts with
  | nil => exact .pure
  | cons t ts => exact .bind (bare_expr n t) fun _ => .bind (bare_exprs n ts) fun _ => .pure

theorem bare_branchExprs (n : Nat) (bs : List (Term × Term)) :
    FailsAt Error.Bare (branchExprs limit n bs) := by
  cases bs with
  | nil => exact .pure
  | cons b bs =>
      obtain ⟨w, t⟩ := b
      exact .bind (bare_expr n w) fun _ => .bind (bare_expr n t) fun _ =>
        .bind (bare_branchExprs n bs) fun _ => .pure

theorem bare_optionExpr (n : Nat) (o : Option Term) :
    FailsAt Error.Bare (optionExpr limit n o) := by
  cases o with
  | none => exact .pure
  | some t => exact .bind (bare_expr n t) fun _ => .pure

end

/-! ### Queries -/

theorem bare_selectItems (is : List Grammar.Item) : FailsAt Error.Bare (selectItems limit is) := by
  induction is with
  | nil => exact .pure
  | cons i is ih =>
      have hitem : FailsAt Error.Bare (selectItem limit i) := by
        cases i with
        | expr t a => exact .bind (bare_expr limit t) fun _ => .pure
        | all => exact .pure
        | allOf => exact .bind (bare_locate _) fun _ => .pure
      exact .bind hitem fun _ => .bind ih fun _ => .pure

theorem bare_tableRef (f : Grammar.Factor) : FailsAt Error.Bare (tableRef f) := by
  unfold tableRef
  split
  · exact .bind (bare_locate _) fun _ => .pure
  · exact .throw rfl

theorem bare_joinType (j : Grammar.Join) : Fails Error.Bare (joinType j) := by
  unfold joinType
  split
  all_goals first | exact .ok | exact .error rfl

theorem bare_relation (sources : List Grammar.Joined) :
    FailsAt Error.Bare (relation limit sources) := by
  match sources with
  | [] | _ :: _ :: _ => exact .throw rfl
  | [s] =>
      obtain ⟨factor, joins⟩ := s
      refine .bind (bare_tableRef factor) fun left => ?_
      match joins with
      | [] => exact .pure
      | _ :: _ :: _ => exact .throw rfl
      | [j] =>
          refine .bind (bare_tableRef j.factor) fun right =>
            .bind (.lift (bare_joinType j)) fun type => ?_
          obtain ⟨kind, constraint, factor, global⟩ := j
          cases constraint with
          | on t => exact .bind (bare_expr limit t) fun _ => .pure
          | _ => exact .throw rfl

theorem bare_groupKeys (g : Grammar.Grouping) : FailsAt Error.Bare (groupKeys limit g) := by
  cases g with
  | all ms => exact .throw rfl
  | keys ts ms => exact bare_exprs limit ts

theorem bare_limitValue (t : Term) : Fails Error.Bare (limitValue t) := by
  unfold limitValue
  split
  · split
    · exact .ok
    · exact .error rfl
  · exact .error rfl

theorem bare_queryOf (q : Grammar.Query) : FailsAt Error.Bare (queryOf limit q) := by
  refine .guard rfl (.guard rfl ?_)
  split
  · exact .throw rfl
  · refine .guard rfl (.bind (bare_selectItems _) fun _ => .bind (bare_relation _) fun _ =>
      .bind (bare_optionExpr limit _) fun _ => .bind (bare_groupKeys _) fun _ =>
      .bind (bare_optionExpr limit _) fun _ => ?_)
    split
    · rename_i t _
      exact .bind (.bind (.lift (bare_limitValue t)) fun _ => .pure) fun _ => .pure
    · exact .bind .pure fun _ => .pure

theorem bare_statement (limit : Nat) (e : Entry) : Fails Error.Bare (e.statement limit) :=
  .bind (bare_queryOf e.query _) fun _ => .ok

/-! ## Parts -/

theorem bare_orFail {α : Type} (x : Except ParseFault α) : Fails Error.Bare (orFail x) := by
  cases x with
  | ok a => exact .ok
  | error f => exact .error rfl

theorem bare_onlyQuery (limit : Nat) (text : String) : Fails Error.Bare (onlyQuery limit text) := by
  have hsentences : Fails Error.Bare (sentences limit text) := by
    unfold sentences
    split
    · exact .error rfl
    · split
      · exact .ok
      · exact .error rfl
      · exact .error rfl
  refine .bind hsentences fun ss => ?_
  split
  · exact .ok
  · exact .error rfl
  · exact .error rfl

theorem bare_parse (limit : Nat) (chunk : List Lexeme) :
    Fails Error.Bare (Entry.parse limit chunk) :=
  .bind (bare_orFail _) fun _ => .bind (bare_orFail _) fun _ => .bind (bare_onlyQuery limit _) fun _ =>
    .ok

/-! ## Scripts -/

/-- The tokens of the statements of a script: what stands between semicolons, unless it is blank. -/
def filled (ls : List Lexeme) : List (List Lexeme) :=
  (chunks ls).filter (!·.all (·.token.isGap))

/-- The parts of a script that was scanned. -/
theorem parse_of_scan {sql : String} {ls : List Lexeme} (h : Lexeme.scan sql = .ok ls) :
    parse limit sql = (filled ls).mapM (Entry.parse limit) >>= fun entries =>
      if entries.isEmpty then .error (.parse .noStatement) else .ok entries := by
  unfold parse
  rw [h]
  rfl

/-- A script that was scanned has no parts if it has no statement, or because of its first statement
    that cannot be split. -/
theorem parse_eq_error {sql : String} {ls : List Lexeme} {err : Error}
    (h : Lexeme.scan sql = .ok ls) :
    parse limit sql = .error err ↔ filled ls = [] ∧ err = .parse .noStatement ∨
      ∃ chunk, FirstError (Entry.parse limit) (filled ls) chunk err := by
  rw [parse_of_scan h, bind_eq_error, mapM_eq_error, or_comm]
  refine or_congr_left ?_
  constructor
  · rintro ⟨entries, hentries, herr⟩
    cases entries with
    | nil =>
        cases herr
        exact ⟨List.forall₂_nil_right_iff.mp (mapM_eq_ok.mp hentries), rfl⟩
    | cons entry entries => cases herr
  · rintro ⟨hnil, rfl⟩
    exact ⟨[], by rw [hnil]; rfl, rfl⟩

theorem ne_nil_of_parse {sql : String} {entries : List Entry} (h : parse limit sql = .ok entries) :
    entries ≠ [] := by
  rintro rfl
  cases hscan : Lexeme.scan sql with
  | error fault =>
      unfold parse at h
      rw [hscan] at h
      cases h
  | ok ls =>
      rw [parse_of_scan hscan, bind_eq_ok] at h
      obtain ⟨entries, _, h⟩ := h
      cases entries with
      | nil => cases h
      | cons => cases h

/-- Conversion ties its errors to the statement. -/
theorem prepare_eq (limit : Nat) (sql : String) :
    prepare limit sql = parse limit sql >>= fun entries => entries.mapM fun e =>
      (⟨e.text, ·⟩ : Statement → Prepared) <$> (e.statement limit).mapError (·.inStatement e.text) := by
  unfold prepare
  refine bind_congr fun entries => congrArg (fun f => entries.mapM f) (funext fun e => ?_)
  cases e.statement limit with
  | ok s => rfl
  | error err => rfl

/-- The statement that the parts were converted into. -/
def Entry.Converted (limit : Nat) (e : Entry) (s : Prepared) : Prop :=
  e.statement limit = .ok s.statement ∧ e.text = s.text

theorem prepare_eq_ok {sql : String} {ss : List Prepared} :
    prepare limit sql = .ok ss ↔ ∃ entries, parse limit sql = .ok entries ∧
      List.Forall₂ (Entry.Converted limit) entries ss := by
  rw [prepare_eq, bind_eq_ok]
  refine exists_congr fun entries => and_congr_right fun _ => mapM_eq_ok.trans ?_
  refine forall₂_iff fun e _ s => ?_
  obtain ⟨text, st⟩ := s
  simp [Entry.Converted, mapError_eq_ok, and_comm]

theorem prepare_eq_error {sql : String} {err : Error} :
    prepare limit sql = .error err ↔ parse limit sql = .error err ∨
      ∃ entries entry cause, parse limit sql = .ok entries ∧
        FirstError (Entry.statement limit) entries entry cause ∧ err = .within entry.text cause := by
  rw [prepare_eq, bind_eq_error]
  refine or_congr_right (exists_congr fun entries => ?_)
  simp only [exists_and_left]
  refine and_congr_right fun _ => mapM_eq_error_iff (List.forall₂_same.mpr fun _ _ => rfl) ?_
  rintro e _ rfl d
  rw [map_eq_error, Error.mapError_inStatement (bare_statement limit e)]

end Script

namespace Planner

open Script (Entry)

variable {p : Planner} {sql : String} {err : Error}

/-- What is known about a statement from its parts, or why it is not. -/
def attempt (p : Planner) (e : Entry) : Except Error Compiled := do
  p.stages ⟨e.text, ← e.statement p.config.maxDepth⟩

/-- Which error a script is answered with, if the statements `asked` are to be planned. Conversion
    comes first, for all statements; only then is one planned. -/
inductive Reports (p : Planner) (sql : String) (asked : List Entry → List Entry) : Error → Prop
  | unscanned {fault : ScanError} (scan : Lexeme.scan sql = .error fault) :
      Reports p sql asked (.parse (.scan fault))
  | empty {ls : List Lexeme} (scan : Lexeme.scan sql = .ok ls) (blank : Script.filled ls = []) :
      Reports p sql asked (.parse .noStatement)
  | unsplit {ls chunk : List Lexeme} {cause : Error} (scan : Lexeme.scan sql = .ok ls)
      (first : FirstError (Entry.parse p.config.maxDepth) (Script.filled ls) chunk cause)
      (bare : cause.Bare) : Reports p sql asked cause
  | unconverted {entries : List Entry} {entry : Entry} {cause : Error}
      (parts : Script.parse p.config.maxDepth sql = .ok entries)
      (first : FirstError (Entry.statement p.config.maxDepth) entries entry cause)
      (bare : cause.Bare) : Reports p sql asked (.within entry.text cause)
  | unplanned {entries : List Entry} {entry : Entry} {cause : Error}
      (parts : Script.parse p.config.maxDepth sql = .ok entries)
      (converted : ∀ e ∈ entries, ∃ s, e.statement p.config.maxDepth = .ok s)
      (first : FirstError p.attempt (asked entries) entry cause)
      (bare : cause.Bare) : Reports p sql asked (.within entry.text cause)

theorem compileStatement_eq (p : Planner) (s : Prepared) :
    p.compileStatement s = (p.stages s).mapError (·.inStatement s.text) := by
  unfold compileStatement
  cases p.stages s with
  | ok c => rfl
  | error e => rfl

/-- A converted statement fails to compile as an attempt at its parts does. -/
theorem compileStatement_eq_error {e : Entry} {s : Prepared}
    (h : e.Converted p.config.maxDepth s) (err : Error) :
    p.compileStatement s = .error err ↔
      ∃ cause, p.attempt e = .error cause ∧ err = .within e.text cause := by
  have hattempt : p.attempt e = p.stages s := by
    unfold attempt
    rw [h.1, h.2]
    rfl
  rw [compileStatement_eq, Error.mapError_inStatement (p.bare_stages s), hattempt, h.2]

theorem bare_attempt (p : Planner) (e : Entry) : Fails Error.Bare (p.attempt e) :=
  .bind (Script.bare_statement _ e) fun s => p.bare_stages ⟨e.text, s⟩

/-- A script fails before any statement is planned, or at the first of those asked for that cannot
    be planned. -/
theorem reports_iff {asked : List Entry → List Entry} :
    p.Reports sql asked err ↔ p.prepare sql = .error err ∨
      ∃ entries ss, Script.parse p.config.maxDepth sql = .ok entries ∧
        List.Forall₂ (Entry.Converted p.config.maxDepth) entries ss ∧
        ∃ entry cause, FirstError p.attempt (asked entries) entry cause ∧
          err = .within entry.text cause := by
  unfold prepare
  rw [Script.prepare_eq_error]
  constructor
  · intro h
    cases h with
    | unscanned scan =>
        refine .inl (.inl ?_)
        unfold Script.parse
        rw [scan]
    | empty scan blank => exact .inl (.inl ((Script.parse_eq_error scan).mpr (.inl ⟨blank, rfl⟩)))
    | unsplit scan first => exact .inl (.inl ((Script.parse_eq_error scan).mpr (.inr ⟨_, first⟩)))
    | unconverted parts first => exact .inl (.inr ⟨_, _, _, parts, first, rfl⟩)
    | @unplanned entries entry cause parts converted first =>
        have hprepared : ∀ e ∈ entries, ∃ s, Entry.Converted p.config.maxDepth e s := by
          intro e he
          obtain ⟨s, hs⟩ := converted e he
          exact ⟨⟨e.text, s⟩, hs, rfl⟩
        obtain ⟨ss, hss⟩ := exists_forall₂ hprepared
        exact .inr ⟨entries, ss, parts, hss, entry, cause, first, rfl⟩
  · rintro ((h | ⟨entries, entry, cause, hparts, hfirst, rfl⟩) |
      ⟨entries, ss, hparts, hss, entry, cause, hfirst, rfl⟩)
    · cases hscan : Lexeme.scan sql with
      | error fault =>
          unfold Script.parse at h
          rw [hscan] at h
          cases h
          exact .unscanned hscan
      | ok ls =>
          rcases (Script.parse_eq_error hscan).mp h with ⟨hblank, rfl⟩ | ⟨chunk, hfirst⟩
          · exact .empty hscan hblank
          · exact .unsplit hscan hfirst (Script.bare_parse _ chunk _ hfirst.error)
    · exact .unconverted hparts hfirst (Script.bare_statement _ entry _ hfirst.error)
    · refine .unplanned hparts (fun e he => ?_) hfirst (p.bare_attempt entry _ hfirst.error)
      obtain ⟨s, _, hs, _⟩ := exists_right hss he
      exact ⟨s.statement, hs⟩

theorem compile_eq_error : p.compile sql = .error err ↔ p.Reports sql id err := by
  unfold compile
  rw [reports_iff, bind_eq_error]
  refine or_congr_right ?_
  unfold prepare
  simp only [Script.prepare_eq_ok]
  constructor
  · rintro ⟨ss, ⟨entries, hparts, hss⟩, h⟩
    exact ⟨entries, ss, hparts, hss,
      (mapM_eq_error_iff hss fun _ _ hes => compileStatement_eq_error hes).mp h⟩
  · rintro ⟨entries, ss, hparts, hss, h⟩
    exact ⟨ss, ⟨entries, hparts, hss⟩,
      (mapM_eq_error_iff hss fun _ _ hes => compileStatement_eq_error hes).mpr h⟩

theorem plan_eq_error : p.plan sql = .error err ↔ p.Reports sql (·.take 1) err := by
  unfold plan
  rw [reports_iff, bind_eq_error]
  refine or_congr_right ?_
  unfold prepare
  simp only [Script.prepare_eq_ok]
  constructor
  · rintro ⟨ss, ⟨entries, hparts, hss⟩, h⟩
    refine ⟨entries, ss, hparts, hss, ?_⟩
    cases hss with
    | nil => exact absurd rfl (Script.ne_nil_of_parse hparts)
    | @cons e s es ss hes _ =>
        rcases bind_eq_error.mp h with h | ⟨c, _, h⟩
        · obtain ⟨cause, hcause, rfl⟩ := (compileStatement_eq_error hes err).mp h
          exact ⟨e, cause, firstError_cons.mpr (.inl ⟨rfl, hcause⟩), rfl⟩
        · cases h
  · rintro ⟨entries, ss, hparts, hss, entry, cause, hfirst, rfl⟩
    refine ⟨ss, ⟨entries, hparts, hss⟩, ?_⟩
    cases hss with
    | nil => exact absurd rfl (Script.ne_nil_of_parse hparts)
    | @cons e s es ss hes _ =>
        rcases firstError_cons.mp hfirst with ⟨rfl, hcause⟩ | ⟨_, hnil⟩
        · exact bind_eq_error.mpr (.inl ((compileStatement_eq_error hes _).mpr ⟨cause, hcause, rfl⟩))
        · simp [FirstError] at hnil

theorem explain_eq_error : p.explain sql = .error err ↔ p.plan sql = .error err := by
  unfold explain
  rw [bind_eq_error]
  refine or_iff_left ?_
  rintro ⟨plan, _, h⟩
  cases h

/-- An error names a statement exactly if the script was split into its parts. -/
theorem statement?_of_reports {asked : List Entry → List Entry} (h : p.Reports sql asked err) :
    err.statement? = none ↔ Script.parse p.config.maxDepth sql = .error err := by
  cases h with
  | unscanned scan =>
      unfold Script.parse
      rw [scan]
      exact iff_of_true rfl rfl
  | empty scan blank => exact iff_of_true rfl ((Script.parse_eq_error scan).mpr (.inl ⟨blank, rfl⟩))
  | unsplit scan first bare =>
      exact iff_of_true bare ((Script.parse_eq_error scan).mpr (.inr ⟨_, first⟩))
  | unconverted parts | unplanned parts => simp [Error.statement?, parts]

/-- A statement is named once, around the error of the stage that failed. -/
theorem cause_of_reports {asked : List Entry → List Entry} {text : String} {cause : Error}
    (h : p.Reports sql asked (.within text cause)) : cause.cause = cause := by
  cases h with
  | unsplit scan first bare => cases bare
  | unconverted parts first bare => exact bare.cause_eq
  | unplanned parts converted first bare => exact bare.cause_eq

/-- **Errors name their statement once it is split into its parts.** `Reports` says which error each
    of the three ways to compile a script ends with. It is tied to the statement that failed if that
    statement could not be converted or planned; it is tied to no statement if some statement of the
    script could not be split into its parts. -/
theorem errors_of_script (p : Planner) (sql : String) (err : Error) :
    (p.compile sql = .error err ↔ p.Reports sql id err) ∧
      (p.plan sql = .error err ↔ p.Reports sql (·.take 1) err) ∧
      (p.explain sql = .error err ↔ p.Reports sql (·.take 1) err) ∧
      ∀ asked, p.Reports sql asked err →
        (err.statement? = none ↔ Script.parse p.config.maxDepth sql = .error err) ∧
          ∀ text cause, err = .within text cause → err.cause = cause :=
  ⟨compile_eq_error, plan_eq_error, explain_eq_error.trans plan_eq_error,
    fun _ h => ⟨statement?_of_reports h, fun _ _ heq => by subst heq; exact cause_of_reports h⟩⟩

/-- The first statement reads a column that there is not, but the second is not even converted. -/
def laterFault : String :=
  "SELECT b FROM t; SELECT DISTINCT a FROM t"

def laterFaultPlanner : Planner where
  catalog := ⟨[("t", [⟨"a", .int32, true⟩])]⟩
  functions := ⟨[]⟩
  config := { maxDepth := 4 }

theorem errors_of_script_laterFault : ∃ err, laterFaultPlanner.compile laterFault = .error err ∧
    laterFaultPlanner.Reports laterFault id err ∧
    err.statement? = some "SELECT DISTINCT a FROM t" ∧
    err.cause.message = "unsupported: SELECT DISTINCT is not supported" ∧
    ¬ Script.parse 4 laterFault = .error err := by
  have hview : (fun _ => ()) <$> (laterFaultPlanner.compile laterFault).mapError
      (fun e => (e.statement?, e.cause.message)) = .error (some "SELECT DISTINCT a FROM t",
        "unsupported: SELECT DISTINCT is not supported") := by
    decide +kernel
  cases hcompile : laterFaultPlanner.compile laterFault with
  | ok cs =>
      rw [hcompile] at hview
      cases hview
  | error err =>
      rw [hcompile] at hview
      obtain ⟨hstatement, hmessage⟩ := Prod.mk.inj (Except.error.inj hview)
      obtain ⟨hreports, _, _, hall⟩ := errors_of_script laterFaultPlanner laterFault err
      have hr := hreports.mp hcompile
      refine ⟨err, rfl, hr, hstatement, hmessage, fun hparse => ?_⟩
      have hnone := (hall id hr).1.mpr hparse
      rw [hstatement] at hnone
      cases hnone

/-- A statement that cannot be split into its parts is not named. -/
theorem exists_unnamed_statement : ∃ sql ls, Lexeme.scan sql = .ok ls ∧ Script.filled ls = [ls] ∧
    ∀ p : Planner, ∃ err, p.compile sql = .error err ∧ p.plan sql = .error err ∧
      p.explain sql = .error err ∧ err.statement? = none := by
  have hsplit : ∃ ls, Lexeme.scan "INSERT t SELECT a FROM t" = .ok ls ∧
      Script.filled ls = [ls] ∧ Envelope.split (ls.map Lexeme.token) = .error .missingInto :=
    ⟨_, rfl, rfl, rfl⟩
  obtain ⟨ls, hscan, hfilled, hsplit⟩ := hsplit
  refine ⟨_, ls, hscan, hfilled, fun p => ⟨.parse .missingInto, ?_⟩⟩
  have hparse : Entry.parse p.config.maxDepth ls = .error (.parse .missingInto) :=
    bind_eq_error.mpr (.inl (by rw [hsplit]; rfl))
  have hreports : ∀ asked, p.Reports "INSERT t SELECT a FROM t" asked (.parse .missingInto) := by
    intro asked
    refine .unsplit hscan ⟨[], [], hfilled, ?_, hparse⟩ rfl
    simp
  exact ⟨compile_eq_error.mpr (hreports _), plan_eq_error.mpr (hreports _),
    explain_eq_error.mpr (plan_eq_error.mpr (hreports _)), rfl⟩

end Planner

end StreamSql
