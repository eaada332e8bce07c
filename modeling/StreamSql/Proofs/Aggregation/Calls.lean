/-
  Which aggregate calls share a column. `Outermost` says, without the search, what the outermost
  aggregate calls of an expression are; `Collects` says what the list of calls of a query is: the
  calls that were met, one for each text, with numbered columns. Taking one call in keeps it
  (`Collects.add`), and so does a whole statement (`collects_ofAnalysis`).

  Calls share a column exactly when their texts are equal. Texts do not always tell expressions
  apart: a qualified column `a.b` and a column that is itself named `a.b` are spelled alike. So the
  column of a call holds the result of that call for all calls of a statement exactly if no two
  different calls of it are spelled alike (`columnFor?_shared`), and always between ordinary calls;
  there are statements where it does not (`exists_merged`).
-/
import StreamSql.Aggregation
import StreamSql.Proofs.Expr.Canonical

namespace StreamSql

open Outcome

/-! ## Names of columns -/

theorem Config.aggregateName_inj {config : Config} {i j : Nat} :
    config.aggregateName i = config.aggregateName j ↔ i = j := by
  constructor
  · intro h
    unfold aggregateName at h
    rw [String.append_right_inj] at h
    apply digits_inj
    rw [← Nat.toList_repr, ← Nat.toList_repr]
    exact congrArg String.toList h
  · rintro rfl
    rfl

namespace Aggregation

variable {functions : Registry} {config : Config}

/-! ## Outermost calls -/

/-- The expression is a call of an aggregate function. -/
def IsAggregate (functions : Registry) (e : Expr) : Prop :=
  ∃ l name args distinct s, e = .call l name args distinct ∧ functions.lookup name = some s ∧
    s.isAggregate = true

/-- The call occurs in the expression and in no other aggregate call of it. -/
inductive Outermost (functions : Registry) (c : Expr) : Expr → Prop
  | self (call : IsAggregate functions c) : Outermost functions c c
  | part {e d : Expr} (plain : ¬IsAggregate functions e) (member : d ∈ e.children)
      (inner : Outermost functions c d) : Outermost functions c e

theorem isAggregate_of_isCall {e : Expr} {b : Bool} (h : isCall functions e = .ok b) :
    IsAggregate functions e ↔ b = true := by
  cases e with
  | call l name args distinct =>
      cases hs : functions.lookup name with
      | none => simp [isCall, hs] at h
      | some s =>
          simp only [isCall, hs, Except.ok.injEq] at h
          subst h
          constructor
          · rintro ⟨_, _, _, _, s', he, hs', ha⟩
            cases he
            rw [hs] at hs'
            cases hs'
            exact ha
          · intro ha
            exact ⟨l, name, args, distinct, s, rfl, hs, ha⟩
  | _ =>
      cases h
      constructor
      · rintro ⟨_, _, _, _, _, he, _⟩
        cases he
      · intro hb
        cases hb

theorem mem_scanWithin {limit n : Nat} {e : Expr} {found : List Expr}
    (h : scanWithin functions limit n e = .ok found) (c : Expr) :
    c ∈ found ↔ Outermost functions c e := by
  induction n generalizing e found with
  | zero => cases h
  | succ n ih =>
      simp only [scanWithin, bind_eq_ok] at h
      obtain ⟨b, hb, h⟩ := h
      have hagg := isAggregate_of_isCall hb
      cases b with
      | true =>
          cases h
          rw [List.mem_singleton]
          constructor
          · rintro rfl
            exact .self (hagg.mpr rfl)
          · intro hc
            cases hc with
            | self => rfl
            | part plain => exact absurd (hagg.mpr rfl) plain
      | false =>
          have hplain : ¬IsAggregate functions e := by simp [hagg]
          simp only [Bool.false_eq_true, if_false, bind_eq_ok, pure_eq_ok, mapM_eq_ok] at h
          obtain ⟨parts, hparts, rfl⟩ := h
          rw [List.mem_flatten]
          constructor
          · rintro ⟨part, hpart, hc⟩
            obtain ⟨d, hd, hscan⟩ := exists_left hparts hpart
            exact .part hplain hd ((ih hscan).mp hc)
          · intro hc
            cases hc with
            | self call => exact absurd call hplain
            | part _ hd inner =>
                obtain ⟨part, hpart, hscan⟩ := exists_right hparts hd
                exact ⟨part, hpart, (ih hscan).mpr inner⟩

/-! ## Taking calls in -/

/-- What the calls of a query are once these calls have been met: one of them for each text, with
    numbered columns. -/
structure Collects (config : Config) (met : List Expr) (calls : List AggregateCall) : Prop where
  named : ∀ i entry, calls[i]? = some entry → entry.column = config.aggregateName i
  apart : calls.Pairwise fun x y => x.call.text ≠ y.call.text
  sound : ∀ entry ∈ calls, entry.call ∈ met
  complete : ∀ c ∈ met, ∃ entry ∈ calls, entry.call.text = c.text

theorem Collects.nil : Collects config [] [] where
  named i entry h := by simp at h
  apart := List.Pairwise.nil
  sound entry h := by cases h
  complete c h := by cases h

/-- A call has a column as soon as a call of the same text has one. -/
theorem columnFor?_eq_none {a : Aggregation} {c : Expr} :
    a.columnFor? c = none ↔ ∀ entry ∈ a.calls, entry.call.text ≠ c.text := by
  simp [columnFor?]

theorem mem_of_columnFor? {a : Aggregation} {c : Expr} {column : String}
    (h : a.columnFor? c = some column) :
    ∃ entry ∈ a.calls, entry.call.text = c.text ∧ entry.column = column := by
  obtain ⟨entry, hentry, hcolumn⟩ := Option.map_eq_some_iff.mp h
  exact ⟨entry, List.mem_of_find?_eq_some hentry, by simpa using List.find?_some hentry, hcolumn⟩

/-- One more call is met. -/
theorem Collects.add {met : List Expr} {a : Aggregation} (h : Collects config met a.calls)
    (c : Expr) : Collects config (met ++ [c]) (a.add config c).calls := by
  unfold Aggregation.add
  cases hc : a.columnFor? c with
  | some column =>
      obtain ⟨entry, hentry, htext, _⟩ := mem_of_columnFor? hc
      refine ⟨h.named, h.apart, fun e he => List.mem_append_left _ (h.sound e he), fun d hd => ?_⟩
      rcases List.mem_append.mp hd with hd | hd
      · exact h.complete d hd
      · rw [List.mem_singleton.mp hd]
        exact ⟨entry, hentry, htext⟩
  | none =>
      have hnew := columnFor?_eq_none.mp hc
      refine ⟨fun i entry hi => ?_, ?_, fun e he => ?_, fun d hd => ?_⟩
      · rcases Nat.lt_trichotomy i a.calls.length with hlt | rfl | hgt
        · rw [List.getElem?_append_left hlt] at hi
          exact h.named i entry hi
        · rw [List.getElem?_concat_length] at hi
          cases hi
          rfl
        · rw [List.getElem?_eq_none (by simp; omega)] at hi
          cases hi
      · rw [List.pairwise_append]
        refine ⟨h.apart, List.pairwise_singleton _ _, fun x hx y hy => ?_⟩
        rw [List.mem_singleton.mp hy]
        exact hnew x hx
      · rcases List.mem_append.mp he with he | he
        · exact List.mem_append_left _ (h.sound e he)
        · rw [List.mem_singleton.mp he]
          exact List.mem_append_right _ (List.mem_singleton.mpr rfl)
      · rcases List.mem_append.mp hd with hd | hd
        · obtain ⟨entry, hentry, htext⟩ := h.complete d hd
          exact ⟨entry, List.mem_append_left _ hentry, htext⟩
        · rw [List.mem_singleton.mp hd]
          exact ⟨_, List.mem_append_right _ (List.mem_singleton.mpr rfl), rfl⟩

theorem Collects.foldl {met : List Expr} {a : Aggregation} (h : Collects config met a.calls)
    (cs : List Expr) : Collects config (met ++ cs) (cs.foldl (Aggregation.add config) a).calls := by
  induction cs generalizing met a with
  | nil =>
      rw [List.append_nil]
      exact h
  | cons c cs ih =>
      rw [List.append_cons]
      exact ih (h.add c)

/-! ## The calls of a statement -/

theorem calls_of_addSelect {a a' : Aggregation} {e : Expr}
    (h : a.addSelect functions config e = .ok a') :
    ∃ found, scan functions config e = .ok found ∧
      a'.calls = (found.foldl (Aggregation.add config) a).calls := by
  simp only [addSelect, bind_eq_ok, pure_eq_ok] at h
  obtain ⟨found, hfound, _, _, rfl⟩ := h
  refine ⟨found, hfound, ?_⟩
  split <;> rfl

theorem calls_of_addHaving {a a' : Aggregation} {e : Expr}
    (h : a.addHaving functions config e = .ok a') :
    ∃ found, scan functions config e = .ok found ∧
      a'.calls = (found.foldl (Aggregation.add config) a).calls := by
  simp only [addHaving, bind_eq_ok, pure_eq_ok] at h
  obtain ⟨found, hfound, _, _, rfl⟩ := h
  exact ⟨found, hfound, rfl⟩

/-- The select expressions of a statement taken in one after the other. -/
theorem collects_select {exprs : List Expr} {met : List Expr} {a a' : Aggregation}
    (h : exprs.foldlM (addSelect functions config) a = .ok a')
    (hm : Collects config met a.calls) :
    ∃ more, Collects config (met ++ more) a'.calls ∧
      ∀ c, c ∈ more ↔ ∃ e ∈ exprs, Outermost functions c e := by
  induction exprs generalizing met a with
  | nil =>
      cases h
      refine ⟨[], ?_, by simp⟩
      rw [List.append_nil]
      exact hm
  | cons e exprs ih =>
      rw [List.foldlM_cons, bind_eq_ok] at h
      obtain ⟨a₁, h₁, h⟩ := h
      obtain ⟨found, hscan, hcalls⟩ := calls_of_addSelect h₁
      have hm₁ : Collects config (met ++ found) a₁.calls := by
        rw [hcalls]
        exact hm.foldl found
      obtain ⟨more, hmore, hmem⟩ := ih h hm₁
      refine ⟨found ++ more, ?_, fun c => ?_⟩
      · rw [← List.append_assoc]
        exact hmore
      · rw [List.mem_append, mem_scanWithin hscan, hmem, List.exists_mem_cons_iff]

/-- The statement makes the call, in its select list or in its condition on groups. -/
def Makes (functions : Registry) (s : Analysis) (c : Expr) : Prop :=
  ∃ e ∈ s.exprs ++ s.having.toList, Outermost functions c e

/-- The calls of a whole statement. -/
theorem collects_ofAnalysis {s : Analysis} {a : Aggregation}
    (h : ofAnalysis functions config s = .ok a) :
    ∃ met, Collects config met a.calls ∧ ∀ c, c ∈ met ↔ Makes functions s c := by
  simp only [ofAnalysis, bind_eq_ok] at h
  obtain ⟨a₁, h₁, h⟩ := h
  obtain ⟨met, hmet, hmem⟩ := collects_select h₁ Collects.nil
  rw [List.nil_append] at hmet
  unfold Makes
  cases hh : s.having with
  | none =>
      rw [hh] at h
      cases h
      exact ⟨met, hmet, by simpa using hmem⟩
  | some e =>
      rw [hh] at h
      obtain ⟨found, hscan, hcalls⟩ := calls_of_addHaving h
      refine ⟨met ++ found, ?_, fun c => ?_⟩
      · rw [hcalls]
        exact hmet.foldl found
      · rw [List.mem_append, mem_scanWithin hscan, hmem]
        simp [or_and_right, exists_or]

/-! ## Shared columns -/

section

variable {met : List Expr} {a : Aggregation}

/-- Entries of one text are one entry. -/
theorem Collects.eq_of_text (h : Collects config met a.calls) {x y : AggregateCall}
    (hx : x ∈ a.calls) (hy : y ∈ a.calls) (ht : x.call.text = y.call.text) : x = y := by
  obtain ⟨i, hi, rfl⟩ := List.getElem_of_mem hx
  obtain ⟨j, hj, rfl⟩ := List.getElem_of_mem hy
  have hapart := List.pairwise_iff_getElem.mp h.apart
  rcases Nat.lt_trichotomy i j with hlt | rfl | hgt
  · exact absurd ht (hapart i j hi hj hlt)
  · rfl
  · exact absurd ht.symm (hapart j i hj hi hgt)

/-- Entries of one column are one entry. -/
theorem Collects.eq_of_column (h : Collects config met a.calls) {x y : AggregateCall}
    (hx : x ∈ a.calls) (hy : y ∈ a.calls) (hc : x.column = y.column) : x = y := by
  obtain ⟨i, hi⟩ := List.mem_iff_getElem?.mp hx
  obtain ⟨j, hj⟩ := List.mem_iff_getElem?.mp hy
  rw [h.named i x hi, h.named j y hj, Config.aggregateName_inj] at hc
  rw [hc, hj] at hi
  exact (Option.some.inj hi).symm

/-- The column of a call is the column of the entry with its text. -/
theorem Collects.columnFor?_eq_some (h : Collects config met a.calls) {c : Expr}
    {entry : AggregateCall} (he : entry ∈ a.calls) :
    a.columnFor? c = some entry.column ↔ entry.call.text = c.text := by
  constructor
  · intro hc
    obtain ⟨found, hfound, htext, hcolumn⟩ := mem_of_columnFor? hc
    rw [← h.eq_of_column hfound he hcolumn]
    exact htext
  · intro ht
    cases hc : a.columnFor? c with
    | none => exact absurd ht (columnFor?_eq_none.mp hc entry he)
    | some column =>
        obtain ⟨found, hfound, htext, rfl⟩ := mem_of_columnFor? hc
        rw [h.eq_of_text hfound he (htext.trans ht.symm)]

end

/-- Every call of a statement has a column, that of one entry. Two calls share it exactly if their
    texts are equal, so the entry of every call is that call, positions left out, exactly if no two
    different calls of the statement have the same text. Ordinary calls share a column only if they
    are the same. -/
theorem columnFor?_shared {s : Analysis} {a : Aggregation}
    (h : ofAnalysis functions config s = .ok a) :
    (∀ c, Makes functions s c → ∃ entry ∈ a.calls, a.columnFor? c = some entry.column ∧
      Makes functions s entry.call ∧ ∀ other ∈ a.calls, other.column = entry.column → other = entry) ∧
    (∀ c d, Makes functions s c → Makes functions s d →
      (a.columnFor? c = a.columnFor? d ↔ c.text = d.text)) ∧
    ((∀ c, Makes functions s c → ∀ entry ∈ a.calls, a.columnFor? c = some entry.column →
        entry.call.same c = true) ↔
      ∀ c d, Makes functions s c → Makes functions s d → c.text = d.text → c.same d = true) ∧
    (∀ c d, Makes functions s c → Makes functions s d → c.Ordinary → d.Ordinary →
      (a.columnFor? c = a.columnFor? d ↔ c.same d = true)) := by
  obtain ⟨met, hc, hmet⟩ := collects_ofAnalysis h
  have hentry : ∀ c, Makes functions s c → ∃ entry ∈ a.calls, a.columnFor? c = some entry.column ∧
      Makes functions s entry.call := by
    intro c hm
    obtain ⟨entry, hentry, htext⟩ := hc.complete c ((hmet c).mpr hm)
    exact ⟨entry, hentry, (hc.columnFor?_eq_some hentry).mpr htext,
      (hmet _).mp (hc.sound entry hentry)⟩
  have hshared : ∀ c d, Makes functions s c → Makes functions s d →
      (a.columnFor? c = a.columnFor? d ↔ c.text = d.text) := by
    intro c d hm hm'
    obtain ⟨entry, he, hcol, _⟩ := hentry d hm'
    rw [hcol, hc.columnFor?_eq_some he, (hc.columnFor?_eq_some he).mp hcol, eq_comm]
  refine ⟨fun c hm => ?_, hshared, ⟨fun hall c d hm hm' ht => ?_, fun hall c hm entry he hcol => ?_⟩,
    fun c d hm hm' ho ho' => ?_⟩
  · obtain ⟨entry, he, hcol, hmade⟩ := hentry c hm
    exact ⟨entry, he, hcol, hmade, fun other ho hoc => hc.eq_of_column ho he hoc⟩
  · -- both are their common entry
    obtain ⟨entry, he, hcol, _⟩ := hentry c hm
    have hcol' : a.columnFor? d = some entry.column := by
      rw [hc.columnFor?_eq_some he, (hc.columnFor?_eq_some he).mp hcol, ht]
    exact Expr.same_trans (Expr.same_symm (hall c hm entry he hcol)) (hall d hm' entry he hcol')
  · have ht := (hc.columnFor?_eq_some he).mp hcol
    exact hall entry.call c ((hmet _).mp (hc.sound entry he)) hm ht
  · rw [hshared c d hm hm']
    exact ⟨Expr.same_of_text_eq ho ho', Expr.text_eq_of_same⟩

/-! Two sums of different columns of one relation `a`, `SUM(a.b)` and `SUM("a.b")`. -/

def dotted : Catalog :=
  ⟨[("a", [⟨"b", .int32, true⟩, ⟨"a.b", .int32, true⟩])]⟩

def sums : Registry :=
  ⟨[("SUM", .aggregate "SUM" .widened)]⟩

def sumOf (c : ColumnRef) : Expr :=
  .call none "SUM" [.column none c] false

def dottedSums : Statement :=
  .query {
    select := [.expr (sumOf ⟨some "a", "b"⟩) none, .expr (sumOf ⟨none, "a.b"⟩) none]
    source := .table ⟨"a", none, none⟩ }

def dottedAnalysis : Analysis where
  sources := [⟨"a", none, [⟨"b", .int32, true⟩, ⟨"a.b", .int32, true⟩]⟩]
  input := ⟨[⟨some "a", "b", .int32⟩, ⟨some "a", "a.b", .int32⟩]⟩
  exprs := [sumOf ⟨some "a", "b"⟩, sumOf ⟨none, "a.b"⟩]
  names := ["KSQL_COL_0", "KSQL_COL_1"]

def dottedCalls : Aggregation where
  calls := [⟨sumOf ⟨some "a", "b"⟩, "KSQL_AGG_VARIABLE_0"⟩]
  final := [.col "KSQL_AGG_VARIABLE_0", .col "KSQL_AGG_VARIABLE_0"]

theorem makes_sumOf {c : ColumnRef} (h : sumOf c ∈ dottedAnalysis.exprs) :
    Makes sums dottedAnalysis (sumOf c) :=
  ⟨sumOf c, List.mem_append_left _ h, .self ⟨_, _, _, _, _, rfl, rfl, rfl⟩⟩

theorem columnFor?_shared_dotted :
    ofAnalysis sums {} dottedAnalysis = .ok dottedCalls ∧
      dottedCalls.columnFor? (sumOf ⟨some "a", "b"⟩) =
        dottedCalls.columnFor? (sumOf ⟨none, "a.b"⟩) := by
  have h : ofAnalysis sums {} dottedAnalysis = .ok dottedCalls := rfl
  refine ⟨h, ((columnFor?_shared h).2.1 _ _ (makes_sumOf ?_) (makes_sumOf ?_)).mpr rfl⟩
  · exact List.mem_cons_self
  · exact List.mem_cons_of_mem _ List.mem_cons_self

/-- The column of a call may hold the result of another call. -/
theorem exists_merged :
    ∃ catalog functions config statement s a c entry,
      Analysis.ofStatement catalog config statement = .ok s ∧
      ofAnalysis functions config s = .ok a ∧ Makes functions s c ∧ entry ∈ a.calls ∧
      a.columnFor? c = some entry.column ∧ entry.call.same c = false := by
  refine ⟨dotted, sums, {}, dottedSums, dottedAnalysis, dottedCalls, sumOf ⟨none, "a.b"⟩, _, rfl, rfl,
    makes_sumOf ?_, List.mem_cons_self, rfl, ?_⟩
  · exact List.mem_cons_of_mem _ List.mem_cons_self
  · simp [sumOf, Expr.same, Expr.sameList]

end Aggregation

end StreamSql
