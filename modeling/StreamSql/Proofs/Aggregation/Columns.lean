/-
  Expressions over the columns of aggregate calls. Calls are taken in item by item, and each item is
  rewritten as soon as its own calls have columns, while more columns are to come. A column is never
  given away again (`Extends`), so what was rewritten early is what the whole list gives.

  The search for calls and the rewriting stop at the same nodes. Hence rewriting never meets a call
  without a column (`exists_rewritten`), and it leaves no aggregate call behind: what it gives is
  `Settled`, and rewriting does nothing to a settled expression. `ofAnalysis_complete` puts together
  what is known of the aggregate calls of a statement.
-/
import StreamSql.Proofs.Aggregation.Calls
import StreamSql.Proofs.Expr.Replace

namespace StreamSql

open Outcome

/-! ## Names of columns -/

theorem Text.toLower_of_isDigit {c : Char} (h : c.isDigit = true) : c.toLower = c := by
  unfold Char.isDigit at h
  rw [Bool.and_eq_true, decide_eq_true_iff, decide_eq_true_iff] at h
  unfold Char.toLower
  refine dif_neg fun hupper => ?_
  exact absurd (UInt32.le_trans hupper.1 h.2) (by decide)

/-- Numbers have no case. -/
theorem Text.lower_append_toString (s : String) (n : Nat) :
    (lower (s ++ toString n)).toList = s.toList.map Char.toLower ++ Nat.toDigits 10 n := by
  have hdigits : (Nat.toDigits 10 n).map Char.toLower = Nat.toDigits 10 n := by
    rw [List.map_congr_left fun c hc => toLower_of_isDigit (isDigit_of_mem_digits hc), List.map_id']
  simp [lower, hdigits]

/-- The columns of different calls stay different without regard to the case of letters. -/
theorem Config.sameName_aggregateName {config : Config} {i j : Nat} :
    Text.sameName (config.aggregateName i) (config.aggregateName j) = true ↔ i = j := by
  constructor
  · intro h
    have hlist := congrArg String.toList (Text.sameName_iff.mp h)
    unfold aggregateName at hlist
    rw [Text.lower_append_toString, Text.lower_append_toString] at hlist
    exact digits_inj (List.append_cancel_left hlist)
  · rintro rfl
    exact Text.sameName_refl _

namespace Aggregation

variable {functions : Registry} {config : Config} {limit n : Nat} {e e' : Expr} {a b : Aggregation}

/-! ## Calls anywhere in an expression -/

/-- The expression calls an aggregate function, at any depth. -/
def CallsAggregate (functions : Registry) (e : Expr) : Prop :=
  ∃ c, Expr.Within c e ∧ IsAggregate functions c

/-- An expression that calls an aggregate function has an outermost call. -/
theorem callsAggregate_iff : CallsAggregate functions e ↔ ∃ c, Outermost functions c e := by
  constructor
  · rintro ⟨c, hc, hagg⟩
    induction hc with
    | self => exact ⟨c, .self hagg⟩
    | @part d e member _ ih =>
        by_cases he : IsAggregate functions e
        · exact ⟨e, .self he⟩
        · obtain ⟨c', hc'⟩ := ih
          exact ⟨c', .part he member hc'⟩
  · rintro ⟨c, hc⟩
    induction hc with
    | self call => exact ⟨c, .self, call⟩
    | part _ member _ ih =>
        obtain ⟨c', hc', hagg⟩ := ih
        exact ⟨c', .part member hc', hagg⟩

/-- Every function that the expression calls is known, and none aggregates. -/
def Settled (functions : Registry) (e : Expr) : Prop :=
  ∀ c, Expr.Within c e → isCall functions c = .ok false

theorem Settled.not_callsAggregate (h : Settled functions e) : ¬CallsAggregate functions e := by
  rintro ⟨c, hc, hagg⟩
  have := (isAggregate_of_isCall (h c hc)).mp hagg
  cases this

/-- A node is settled if its parts are and it calls no aggregate function itself. -/
theorem settled_node (he : isCall functions e = .ok false)
    (hparts : ∀ c ∈ e.children, Settled functions c) : Settled functions e := by
  intro c hc
  cases hc with
  | self => exact he
  | part member inner => exact hparts _ member c inner

/-- The node alone decides whether it is a call of an aggregate function. -/
theorem isCall_congruent {R : Expr → Expr → Prop} (h : Expr.Congruent R e e') :
    isCall functions e' = isCall functions e := by
  cases h <;> rfl

/-! ## Rewriting -/

theorem columnOf_eq_ok {r : Option Expr} :
    columnOf functions a e = .ok r ↔
      (isCall functions e = .ok true ∧
        ∃ column, a.columnFor? e = some column ∧ r = some (.column e.loc? ⟨none, column⟩)) ∨
      (isCall functions e = .ok false ∧ r = none) := by
  unfold columnOf
  rw [bind_eq_ok, Bool.exists_bool, or_comm]
  cases hc : a.columnFor? e with
  | none => simp [@eq_comm _ _ r]
  | some column => simp [Expr.col, Expr.withLoc, @eq_comm _ _ r]

/-- An aggregate call becomes its column; any other node is built again over its parts. -/
theorem rewritten_iff :
    Expr.replaceWithin limit (columnOf functions a) (n + 1) e = .ok e' ↔
      (isCall functions e = .ok true ∧
        ∃ column, a.columnFor? e = some column ∧ e' = .column e.loc? ⟨none, column⟩) ∨
      (isCall functions e = .ok false ∧ Expr.Congruent
        (fun c c' => Expr.replaceWithin limit (columnOf functions a) n c = .ok c') e e') := by
  rw [Expr.replaceWithin_eq_ok, columnOf_eq_ok, columnOf_eq_ok]
  simp

/-- Rewriting ends where the search for calls did, if the calls that were found have columns. -/
theorem exists_rewritten {found : List Expr} (h : scanWithin functions limit n e = .ok found)
    (hfound : ∀ c ∈ found, ∃ column, a.columnFor? c = some column) :
    ∃ e', Expr.replaceWithin limit (columnOf functions a) n e = .ok e' := by
  induction n generalizing e found with
  | zero => cases h
  | succ n ih =>
      simp only [rewritten_iff]
      simp only [scanWithin, bind_eq_ok] at h
      obtain ⟨aggregate, hcall, h⟩ := h
      cases aggregate with
      | true =>
          cases h
          obtain ⟨column, hcolumn⟩ := hfound e List.mem_cons_self
          exact ⟨_, Or.inl ⟨hcall, column, hcolumn, rfl⟩⟩
      | false =>
          simp only [Bool.false_eq_true, if_false, bind_eq_ok, pure_eq_ok, mapM_eq_ok] at h
          obtain ⟨parts, hparts, rfl⟩ := h
          have hchildren : ∀ c ∈ e.children,
              ∃ c', Expr.replaceWithin limit (columnOf functions a) n c = .ok c' := by
            intro c hc
            obtain ⟨part, hpart, hscan⟩ := exists_right hparts hc
            exact ih hscan fun d hd => hfound d (List.mem_flatten.mpr ⟨part, hpart, hd⟩)
          obtain ⟨e', he'⟩ := Expr.exists_congruent hchildren
          exact ⟨e', Or.inr ⟨hcall, he'⟩⟩

/-- What rewriting gives is settled. -/
theorem settled_of_rewritten (h : Expr.replaceWithin limit (columnOf functions a) n e = .ok e') :
    Settled functions e' := by
  induction n generalizing e e' with
  | zero => cases h
  | succ n ih =>
      rcases rewritten_iff.mp h with ⟨_, column, _, rfl⟩ | ⟨hcall, hparts⟩
      · exact settled_node rfl (by simp [Expr.children])
      · refine settled_node (by rw [isCall_congruent hparts, hcall]) fun c' hc' => ?_
        obtain ⟨c, _, hc⟩ := exists_left hparts.children hc'
        exact ih hc

/-- What rewriting went over without meeting a call is settled, and no higher than the walk. -/
theorem settled_of_plain (h : Expr.replaceWithin limit (columnOf functions a) n e = .ok e')
    (hplain : ¬CallsAggregate functions e) : Settled functions e ∧ e.height ≤ n := by
  induction n generalizing e e' with
  | zero => cases h
  | succ n ih =>
      rcases rewritten_iff.mp h with ⟨hcall, _⟩ | ⟨hcall, hparts⟩
      · exact absurd ⟨e, .self, (isAggregate_of_isCall hcall).mpr rfl⟩ hplain
      · have hchildren : ∀ c ∈ e.children, Settled functions c ∧ c.height ≤ n := by
          intro c hc
          obtain ⟨c', _, hc'⟩ := exists_right hparts.children hc
          exact ih hc' fun ⟨d, hd, hagg⟩ => hplain ⟨d, .part hc hd, hagg⟩
        exact ⟨settled_node hcall fun c hc => (hchildren c hc).1,
          Expr.height_le_succ.mpr fun c hc => (hchildren c hc).2⟩

theorem height_of_rewritten (h : Expr.replaceWithin limit (columnOf functions a) n e = .ok e') :
    e'.height ≤ n := by
  refine Expr.height_of_replaceWithin (fun c r hr => ?_) h
  rcases columnOf_eq_ok.mp hr with ⟨_, column, _, hr⟩ | ⟨_, hr⟩
  · cases hr
    exact Nat.le_refl 1
  · cases hr

/-- Rewriting does nothing to a settled expression. -/
theorem rewritten_of_settled (h : Settled functions e) (hn : e.height ≤ n) :
    Expr.replaceWithin limit (columnOf functions a) n e = .ok e :=
  Expr.replaceWithin_self (fun c hc => Or.inl (columnOf_eq_ok.mpr (Or.inr ⟨h c hc, rfl⟩))) hn

/-- A second rewriting changes nothing. -/
theorem overColumns_again (h : a.overColumns functions config e = .ok e') :
    a.overColumns functions config e' = .ok e' :=
  rewritten_of_settled (settled_of_rewritten h) (height_of_rewritten h)

/-- An expression without aggregate calls stays as it is. -/
theorem overColumns_plain (h : a.overColumns functions config e = .ok e')
    (hplain : ¬CallsAggregate functions e) : e' = e := by
  obtain ⟨hsettled, hheight⟩ := settled_of_plain h hplain
  have hself : a.overColumns functions config e = .ok e := rewritten_of_settled hsettled hheight
  exact Except.ok.inj (h.symm.trans hself)

/-! ## Columns that are still to come -/

/-- Calls that have a column in the first list have it in the second. -/
def Extends (a b : Aggregation) : Prop :=
  ∀ c column, a.columnFor? c = some column → b.columnFor? c = some column

theorem Extends.trans {c : Aggregation} (hab : Extends a b) (hbc : Extends b c) : Extends a c :=
  fun d column h => hbc d column (hab d column h)

theorem extends_of_calls (h : a.calls = b.calls) : Extends a b := by
  intro c column hc
  unfold columnFor? at hc ⊢
  rwa [← h]

/-- One more call leaves the columns of the others alone. -/
theorem extends_add (config : Config) (a : Aggregation) (c : Expr) : Extends a (a.add config c) := by
  intro d column h
  unfold add
  cases hc : a.columnFor? c with
  | some _ => exact h
  | none =>
      obtain ⟨entry, hentry, hcolumn⟩ := Option.map_eq_some_iff.mp h
      refine Option.map_eq_some_iff.mpr ⟨entry, ?_, hcolumn⟩
      rw [List.find?_append, hentry]
      rfl

theorem extends_foldl (config : Config) (a : Aggregation) (cs : List Expr) :
    Extends a (cs.foldl (add config) a) := by
  induction cs generalizing a with
  | nil => exact fun _ _ h => h
  | cons c cs ih => exact (extends_add config a c).trans (ih _)

/-- A call that has been taken in has a column. -/
theorem exists_columnFor?_add (config : Config) (a : Aggregation) (c : Expr) :
    ∃ column, (a.add config c).columnFor? c = some column := by
  unfold add
  cases hc : a.columnFor? c with
  | some column => exact ⟨column, hc⟩
  | none =>
      simp only [columnFor?, List.find?_append]
      cases a.calls.find? fun d => d.call.text == c.text <;> simp

theorem exists_columnFor?_foldl (config : Config) (a : Aggregation) {cs : List Expr} {c : Expr}
    (hc : c ∈ cs) : ∃ column, (cs.foldl (add config) a).columnFor? c = some column := by
  induction cs generalizing a with
  | nil => cases hc
  | cons d cs ih =>
      rcases List.mem_cons.mp hc with rfl | hc
      · obtain ⟨column, h⟩ := exists_columnFor?_add config a c
        exact ⟨column, extends_foldl config _ cs c column h⟩
      · exact ih _ hc

/-- What was rewritten early stays right as columns are added. -/
theorem overColumns_extends (hab : Extends a b) (h : a.overColumns functions config e = .ok e') :
    b.overColumns functions config e = .ok e' := by
  refine Expr.replaceWithin_mono (fun c r hr => ?_) h
  rcases columnOf_eq_ok.mp hr with ⟨hcall, column, hcolumn, hr⟩ | hr
  · exact columnOf_eq_ok.mpr (Or.inl ⟨hcall, column, hab c column hcolumn, hr⟩)
  · exact columnOf_eq_ok.mpr (Or.inr hr)

/-! ## One expression taken in -/

theorem foldl_add_eq (a : Aggregation) (cs : List Expr) :
    cs.foldl (add config) a = { a with calls := (cs.foldl (add config) a).calls } := by
  induction cs generalizing a with
  | nil => rfl
  | cons c cs ih =>
      have hadd : a.add config c = { a with calls := (a.add config c).calls } := by
        unfold add
        split <;> rfl
      rw [List.foldl_cons, ih, hadd]

/-- A select expression taken in: its calls get columns, it is kept if it makes none, and it is
    rewritten. -/
theorem addSelect_inv {a' : Aggregation} (h : a.addSelect functions config e = .ok a') :
    ∃ found e', scan functions config e = .ok found ∧ Extends a a' ∧
      a'.overColumns functions config e = .ok e' ∧ a'.final = a.final ++ [e'] ∧
      (a'.plain = if found.isEmpty then a.plain ++ [e] else a.plain) ∧ a'.having = a.having := by
  simp only [addSelect, bind_eq_ok, pure_eq_ok] at h
  obtain ⟨found, hscan, e', he', rfl⟩ := h
  refine ⟨found, e', hscan, ?_, ?_, ?_, ?_, ?_⟩
  · refine (extends_foldl config a found).trans (extends_of_calls ?_)
    split <;> rfl
  · exact overColumns_extends (extends_of_calls (by split <;> rfl)) he'
  all_goals
    rw [foldl_add_eq]
    split <;> rfl

/-- Once the calls of an expression have columns, it can be rewritten. -/
theorem overColumns_ne_error {found : List Expr} {err : Error}
    (h : scan functions config e = .ok found) (hb : b.calls = (found.foldl (add config) a).calls) :
    b.overColumns functions config e ≠ .error err := by
  have hcolumns : ∀ c ∈ found, ∃ column, b.columnFor? c = some column := by
    intro c hc
    obtain ⟨column, hcolumn⟩ := exists_columnFor?_foldl config a hc
    exact ⟨column, extends_of_calls hb.symm c column hcolumn⟩
  obtain ⟨e', he'⟩ := exists_rewritten h hcolumns
  rw [overColumns, Expr.replace, he']
  intro herr
  cases herr

/-- Taking a select expression in fails only if the search for its calls does. -/
theorem scan_of_addSelect_error {err : Error} (h : a.addSelect functions config e = .error err) :
    scan functions config e = .error err := by
  simp only [addSelect, bind_eq_error] at h
  rcases h with h | ⟨found, hscan, h | ⟨_, _, h⟩⟩
  · exact h
  · exact absurd h (overColumns_ne_error hscan (by split <;> rfl))
  · cases h

theorem addHaving_inv {a' : Aggregation} (h : a.addHaving functions config e = .ok a') :
    ∃ e', Extends a a' ∧ a'.overColumns functions config e = .ok e' ∧ a'.having = some e' ∧
      a'.final = a.final ∧ a'.plain = a.plain := by
  simp only [addHaving, bind_eq_ok, pure_eq_ok] at h
  obtain ⟨found, hscan, e', he', rfl⟩ := h
  refine ⟨e', ?_, ?_, rfl, ?_, ?_⟩
  · exact (extends_foldl config a found).trans (extends_of_calls rfl)
  · exact overColumns_extends (extends_of_calls rfl) he'
  · rw [foldl_add_eq]
  · rw [foldl_add_eq]

theorem scan_of_addHaving_error {err : Error} (h : a.addHaving functions config e = .error err) :
    scan functions config e = .error err := by
  simp only [addHaving, bind_eq_error] at h
  rcases h with h | ⟨found, hscan, h | ⟨_, _, h⟩⟩
  · exact h
  · exact absurd h (overColumns_ne_error hscan rfl)
  · cases h

/-! ## All expressions of a statement -/

open scoped Classical in
/-- What is known once these select expressions have been taken in: what each became, and which of
    them make no call. -/
structure Takes (functions : Registry) (config : Config) (done : List Expr) (a : Aggregation) :
    Prop where
  final : List.Forall₂ (fun e e' => a.overColumns functions config e = .ok e') done a.final
  plain : a.plain = done.filter fun e => ¬CallsAggregate functions e

theorem Takes.extends {done : List Expr} (h : Takes functions config done a) (hab : Extends a b)
    (hfinal : b.final = a.final) (hplain : b.plain = a.plain) : Takes functions config done b where
  final := by
    rw [hfinal]
    exact h.final.imp fun e e' => overColumns_extends hab
  plain := hplain.trans h.plain

/-- One more select expression. -/
theorem Takes.addSelect {done : List Expr} {a' : Aggregation} (h : Takes functions config done a)
    (ha : a.addSelect functions config e = .ok a') : Takes functions config (done ++ [e]) a' := by
  obtain ⟨found, e', hscan, hext, he', hfinal, hplain, _⟩ := addSelect_inv ha
  have hcalls : CallsAggregate functions e ↔ found ≠ [] := by
    simp only [callsAggregate_iff, ← mem_scanWithin hscan]
    exact ⟨fun ⟨_, hc⟩ => List.ne_nil_of_mem hc, List.exists_mem_of_ne_nil found⟩
  refine ⟨?_, ?_⟩
  · rw [hfinal]
    exact List.rel_append (h.final.imp fun e e' => overColumns_extends hext) (.cons he' .nil)
  · rw [hplain, List.filter_append, ← h.plain]
    cases found with
    | nil => simp [hcalls]
    | cons c found => simp [hcalls]

theorem Takes.foldlM {done exprs : List Expr} {a' : Aggregation} (h : Takes functions config done a)
    (ha : exprs.foldlM (Aggregation.addSelect functions config) a = .ok a') :
    Takes functions config (done ++ exprs) a' ∧ a'.having = a.having := by
  induction exprs generalizing done a with
  | nil =>
      cases ha
      rw [List.append_nil]
      exact ⟨h, rfl⟩
  | cons e exprs ih =>
      rw [List.foldlM_cons, bind_eq_ok] at ha
      obtain ⟨a₁, h₁, ha⟩ := ha
      obtain ⟨ht, hhaving⟩ := ih (h.addSelect h₁) ha
      obtain ⟨_, _, _, _, _, _, _, hhaving₁⟩ := addSelect_inv h₁
      rw [List.append_cons]
      exact ⟨ht, hhaving.trans hhaving₁⟩

/-- The expressions of a whole statement are rewritten over the columns of all its calls. -/
theorem takes_ofAnalysis {s : Analysis} (h : ofAnalysis functions config s = .ok a) :
    Takes functions config s.exprs a ∧
      Option.Rel (fun e e' => a.overColumns functions config e = .ok e') s.having a.having := by
  simp only [ofAnalysis, bind_eq_ok] at h
  obtain ⟨a₁, h₁, h⟩ := h
  have hnil : Takes functions config [] {} := ⟨.nil, rfl⟩
  obtain ⟨ht, hhaving⟩ := hnil.foldlM h₁
  rw [List.nil_append] at ht
  cases hs : s.having with
  | none =>
      rw [hs] at h
      cases h
      rw [hhaving]
      exact ⟨ht, .none⟩
  | some e =>
      rw [hs] at h
      obtain ⟨e', hext, he', hhaving', hfinal, hplain⟩ := addHaving_inv h
      rw [hhaving']
      exact ⟨ht.extends hext hfinal hplain, .some he'⟩

/-! ## Failures -/

/-- The search for calls fails only at a function that is not known, or too deep. -/
theorem scanWithin_error {err : Error} (h : scanWithin functions limit n e = .error err) :
    err = .tooDeep limit ∨ ∃ name l, err = .unknownFunction name l := by
  induction n generalizing e with
  | zero =>
      cases h
      exact Or.inl rfl
  | succ n ih =>
      simp only [scanWithin, bind_eq_error] at h
      rcases h with h | ⟨aggregate, _, h⟩
      · cases e with
        | call l name args distinct =>
            simp only [isCall] at h
            split at h
            · cases h
            · cases h
              exact Or.inr ⟨name, _, rfl⟩
        | _ => cases h
      · cases aggregate with
        | true => cases h
        | false =>
            simp only [Bool.false_eq_true, if_false, bind_eq_error] at h
            rcases h with h | ⟨_, _, h⟩
            · obtain ⟨c, _, hc⟩ := exists_error_of_mapM h
              exact ih hc
            · cases h

/-- Collecting the calls of a statement fails only if the search for them does. -/
theorem scan_of_error {s : Analysis} {err : Error} (h : ofAnalysis functions config s = .error err) :
    ∃ e ∈ s.exprs ++ s.having.toList, scan functions config e = .error err := by
  simp only [ofAnalysis, bind_eq_error] at h
  rcases h with h | ⟨a, _, h⟩
  · obtain ⟨e, he, _, h⟩ := exists_error_of_foldlM h
    exact ⟨e, List.mem_append_left _ he, scan_of_addSelect_error h⟩
  · cases hs : s.having with
    | none =>
        rw [hs] at h
        cases h
    | some e =>
        rw [hs] at h
        exact ⟨e, by simp, scan_of_addHaving_error h⟩

/-! ## The calls of a statement -/

open scoped Classical in
/-- What is known of the aggregate calls of a statement. -/
structure Complete (functions : Registry) (config : Config) (s : Analysis) (a : Aggregation) :
    Prop where
  /-- Each select expression stands in its place, rewritten over the columns of all calls. -/
  final : List.Forall₂ (fun e e' => a.overColumns functions config e = .ok e') s.exprs a.final
  having : Option.Rel (fun e e' => a.overColumns functions config e = .ok e') s.having a.having
  columns : a.calls.Pairwise fun x y => Text.sameName x.column y.column = false
  texts : a.calls.Pairwise fun x y => x.call.text ≠ y.call.text
  recorded : ∀ c, Makes functions s c →
    ∃ entry ∈ a.calls, entry.call.text = c.text ∧ a.columnFor? c = some entry.column
  made : ∀ entry ∈ a.calls, Makes functions s entry.call
  cleared : ∀ e ∈ a.final ++ a.having.toList, ¬CallsAggregate functions e
  plain : a.plain = s.exprs.filter fun e => ¬CallsAggregate functions e
  kept : List.Forall₂ (fun e e' => ¬CallsAggregate functions e → e' = e) s.exprs a.final
  /-- Rewriting a second time changes nothing. -/
  stable : ∀ e ∈ a.final ++ a.having.toList, a.overColumns functions config e = .ok e

/-- The columns of the calls of a statement are different names. -/
theorem Collects.columns_apart {met : List Expr} (h : Collects config met a.calls) :
    a.calls.Pairwise fun x y => Text.sameName x.column y.column = false := by
  refine List.pairwise_iff_getElem.mpr fun i j hi hj hij => ?_
  rw [h.named i _ (List.getElem?_eq_getElem hi), h.named j _ (List.getElem?_eq_getElem hj),
    Bool.eq_false_iff]
  intro hsame
  have := Config.sameName_aggregateName.mp hsame
  omega

theorem complete_of_ofAnalysis {s : Analysis} (h : ofAnalysis functions config s = .ok a) :
    Complete functions config s a := by
  obtain ⟨met, hc, hmet⟩ := collects_ofAnalysis h
  obtain ⟨ht, hhaving⟩ := takes_ofAnalysis h
  -- everything that remains is a rewritten expression of the statement
  have hfrom : ∀ e' ∈ a.final ++ a.having.toList, ∃ e, a.overColumns functions config e = .ok e' := by
    intro e' he'
    rcases List.mem_append.mp he' with he' | he'
    · obtain ⟨e, _, he⟩ := exists_left ht.final he'
      exact ⟨e, he⟩
    · rw [Option.mem_toList.mp he'] at hhaving
      generalize s.having = o at hhaving
      cases hhaving with
      | some he => exact ⟨_, he⟩
  refine ⟨ht.final, hhaving, hc.columns_apart, hc.apart, fun c hm => ?_,
    fun entry he => (hmet _).mp (hc.sound entry he), fun e' he' => ?_, ht.plain, ?_, fun e' he' => ?_⟩
  · obtain ⟨entry, he, htext⟩ := hc.complete c ((hmet c).mpr hm)
    exact ⟨entry, he, htext, (hc.columnFor?_eq_some he).mpr htext⟩
  · obtain ⟨e, he⟩ := hfrom e' he'
    exact (settled_of_rewritten he).not_callsAggregate
  · exact ht.final.imp fun e e' he => overColumns_plain he
  · obtain ⟨e, he⟩ := hfrom e' he'
    exact overColumns_again he

/-- The aggregate calls of a statement are collected completely whenever they are collected at all,
    and no call is ever found without a column. -/
theorem ofAnalysis_complete (functions : Registry) (config : Config) (s : Analysis) :
    (∀ a, ofAnalysis functions config s = .ok a → Complete functions config s a) ∧
      ∀ fault, ofAnalysis functions config s ≠ .error (.planning fault) := by
  refine ⟨fun a => complete_of_ofAnalysis, fun fault h => ?_⟩
  obtain ⟨e, _, hscan⟩ := scan_of_error h
  rcases scanWithin_error hscan with h | ⟨_, _, h⟩
  · cases h
  · cases h

/-! A call that stands deep in a select expression and again in the condition on groups, which
    makes another one as well. -/

def doubledTotal : Expr :=
  .arith none (.lit (.integer 2)) .multiply (sumOf ⟨none, "b"⟩)

def totals : Analysis where
  exprs := [.col "a", doubledTotal]
  names := ["a", "total"]
  having := some (.compare none (sumOf ⟨none, "b"⟩) .lt (sumOf ⟨none, "c"⟩))

def totalsCalls : Aggregation where
  plain := [.col "a"]
  calls := [⟨sumOf ⟨none, "b"⟩, "KSQL_AGG_VARIABLE_0"⟩, ⟨sumOf ⟨none, "c"⟩, "KSQL_AGG_VARIABLE_1"⟩]
  final := [.col "a", .arith none (.lit (.integer 2)) .multiply (.col "KSQL_AGG_VARIABLE_0")]
  having := some (.compare none (.col "KSQL_AGG_VARIABLE_0") .lt (.col "KSQL_AGG_VARIABLE_1"))

theorem ofAnalysis_complete_totals :
    ofAnalysis sums {} totals = .ok totalsCalls ∧ Complete sums {} totals totalsCalls := by
  have h : ofAnalysis sums {} totals = .ok totalsCalls := rfl
  exact ⟨h, (ofAnalysis_complete sums {} totals).1 totalsCalls h⟩

end Aggregation

end StreamSql
