/-
  What the analysis of a statement leaves of its names. Every column is `Spelled`: one field of the
  input answers to it, it is written as that field is, and so looking it up once more gives it back.

  A column that was written goes through the resolver, which spells it. A column that `*` or `q.*`
  writes out does not. It is unambiguous because of the names of the result: if two fields answered
  to it, both would be written out, under names that are the same but for the case of letters, and
  such a select list is refused (`spelled_expandField`).
-/
import Mathlib.Data.List.Forall2
import StreamSql.Proofs.Analysis

namespace StreamSql

open Outcome

/-! ## Names without regard to case -/

namespace Text

theorem upper_eq_iff {a b : String} : upper a = upper b ↔ lower a = lower b := by
  have hmap (f : Char → Char) : String.ofList (a.toList.map f) = String.ofList (b.toList.map f) ↔
      List.Forall₂ (fun c d => f c = f d) a.toList b.toList := by
    rw [String.ofList_inj, ← List.forall₂_eq_eq_eq, List.forall₂_map_left_iff,
      List.forall₂_map_right_iff]
  rw [upper, upper, lower, lower, hmap, hmap]
  simp only [toUpper_eq_iff]

theorem lower_append (s t : String) : lower (s ++ t) = lower s ++ lower t := by
  simp [lower]

theorem sameName_append {a a' b b' : String} (ha : sameName a a' = true)
    (hb : sameName b b' = true) : sameName (a ++ b) (a' ++ b') = true := by
  rw [sameName_iff] at *
  rw [lower_append, lower_append, ha, hb]

end Text

namespace Analysis

variable {config : Config} {schema : Schema} {joined : Bool} {e : Expr} {n : Nat}

/-- No name is refused if none was seen before and no two are the same. -/
theorem repeatedName?_eq_none {seen names : List String} :
    repeatedName? seen names = none ↔
      (∀ name ∈ names, Text.upper name ∉ seen) ∧
        names.Pairwise fun a b => Text.sameName a b = false := by
  induction names generalizing seen with
  | nil => simp [repeatedName?]
  | cons name names ih =>
      have hsame : ∀ b, Text.sameName name b = false ↔ ¬Text.upper b = Text.upper name := by
        intro b
        rw [← Bool.not_eq_true, Text.sameName_iff, ← Text.upper_eq_iff, eq_comm]
      simp only [repeatedName?, List.forall_mem_cons, List.pairwise_cons, hsame]
      split
      · rename_i h
        simp [h]
      · rename_i h
        simp only [ih, List.mem_cons, not_or, h, not_false_eq_true, true_and, forall_and]
        tauto

/-! ## Spelled columns -/

/-- One field answers to the column, and the column is written as that field is: by its name, and
    without a qualifier or with that of the field. -/
def Spelled (schema : Schema) (c : ColumnRef) : Prop :=
  ∃ f i, schema.fields[i]? = some f ∧ (∀ l, schema.resolve c l = .ok (f, i)) ∧ c.name = f.name ∧
    (c.qualifier = none ∨ c.qualifier = f.qualifier)

/-- A column that was found, as its field spells it. -/
theorem spelled_spelling {c : ColumnRef} {l : Location} {f : Field} {i : Nat}
    (h : schema.resolve c l = .ok (f, i)) : Spelled schema (f.spelling c) := by
  obtain ⟨hat, ha⟩ := Schema.found_of_resolve h
  refine ⟨f, i, hat, fun l' => ?_, rfl, ?_⟩
  · have hanswers : (Field.answers (f.spelling c)) = Field.answers c :=
      funext (f.answers_spelling ha)
    rw [Schema.resolve_eq_ok] at h ⊢
    unfold Schema.candidates at h ⊢
    rw [hanswers, h]
  · obtain ⟨q, name⟩ := c
    cases q with
    | none => exact Or.inl rfl
    | some q =>
        refine Or.inr ?_
        cases hf : f.qualifier with
        | none => simp [Field.answers, Field.isOf, hf] at ha
        | some q' => simp [Field.spelling, hf]

/-- The resolver keeps a column that is spelled. -/
theorem spell_of_spelled {c : ColumnRef} (h : Spelled schema c) (l : Option Location) :
    spell schema (.column l c) = .ok (some (.column l c)) := by
  obtain ⟨f, i, _, hf, hname, hq⟩ := h
  refine spell_eq_ok.mpr (Or.inl ⟨l, c, f, i, rfl, hf _, ?_⟩)
  obtain ⟨q, name⟩ := c
  have hspelling : f.spelling ⟨q, name⟩ = ⟨q, name⟩ := by
    rcases hq with rfl | rfl
    · simp [Field.spelling, ← hname]
    · cases hf : f.qualifier <;> simp [Field.spelling, hf, ← hname]
  rw [hspelling]

/-! ## Resolved expressions -/

/-- The expression is at most so high, and each of its columns is spelled. -/
def Resolved (schema : Schema) (n : Nat) (e : Expr) : Prop :=
  e.height ≤ n ∧ ∀ l c, Expr.Within (.column l c) e → Spelled schema c

/-- Resolving makes expressions resolved. -/
theorem resolved_of_resolve {e' : Expr} (h : resolve n schema e = .ok e') :
    Resolved schema n e' := by
  refine ⟨height_of_resolved h, fun l c hc => ?_⟩
  obtain ⟨d, f, i, hf, rfl⟩ := column_of_resolved h hc
  exact spelled_spelling hf

/-- Resolving does nothing to a resolved expression. -/
theorem Resolved.again (h : Resolved schema n e) : resolve n schema e = .ok e := by
  refine Expr.replaceWithin_self (fun c hc => ?_) h.1
  cases c with
  | column l c => exact Or.inr (spell_of_spelled (h.2 l c hc) l)
  | _ => exact Or.inl rfl

/-! ## Fields that are written out -/

/-- The column that a field is written out as. -/
def written (joined : Bool) (f : Field) : ColumnRef :=
  ⟨if joined then some (f.qualifier.getD "") else none, f.name⟩

theorem expandField_fst (f : Field) : (expandField joined f).1 = .column none (written joined f) := by
  cases joined <;> rfl

theorem answers_written {f : Field} {q : String} (hq : f.qualifier = some q) :
    f.answers (written joined f) = true := by
  cases joined <;> simp [written, Field.answers, Field.isOf, hq, Text.sameName_refl]

/-- Two fields of which one answers to the column of the other have the same name in the result. -/
theorem sameName_expandField {f g : Field} (hg : g.qualifier ≠ none)
    (h : g.answers (written joined f) = true) :
    Text.sameName (expandField joined g).2 (expandField joined f).2 = true := by
  simp only [Field.answers, written, Bool.and_eq_true] at h
  cases joined with
  | false => exact h.1
  | true =>
      obtain ⟨q, hq⟩ := Option.ne_none_iff_exists'.mp hg
      have hisOf : Text.sameName q (f.qualifier.getD "") = true := by
        simpa [Field.isOf, hq] using h.2
      simp only [expandField, if_true, hq, Option.getD_some]
      exact Text.sameName_append (Text.sameName_append hisOf (Text.sameName_refl _)) h.1

/-- If all fields that answer to it are written out under different names, one field answers to the
    column of a field. -/
theorem spelled_expandField {p : Field → Bool} {f : Field} {q : String}
    (hf : f ∈ schema.fields) (hq : f.qualifier = some q) (hpf : p f = true)
    (hqualified : ∀ g ∈ schema.fields, g.qualifier ≠ none)
    (hp : ∀ g ∈ schema.fields, g.answers (written joined f) = true → p g = true)
    (hnames : (((schema.fields.filter p).map (expandField joined)).map (·.2)).Pairwise
      fun a b => Text.sameName a b = false) : Spelled schema (written joined f) := by
  obtain ⟨i, hi⟩ := List.mem_iff_getElem?.mp hf
  refine ⟨f, i, hi, fun l => Schema.resolve_of_unique hi (answers_written hq)
    fun j g hj hg => ?_, rfl, ?_⟩
  · have hmem := List.mem_of_getElem? hj
    have hsame := sameName_expandField (hqualified g hmem) hg
    have hpg := hp g hmem hg
    rw [List.pairwise_map, List.pairwise_map, List.pairwise_filter, List.pairwise_iff_getElem]
      at hnames
    obtain ⟨hi', rfl⟩ := List.getElem?_eq_some_iff.mp hi
    obtain ⟨hj', rfl⟩ := List.getElem?_eq_some_iff.mp hj
    rcases Nat.lt_trichotomy j i with hlt | heq | hgt
    · simp [hnames j i hj' hi' hlt hpg hpf] at hsame
    · exact heq
    · rw [Text.sameName_comm, hnames i j hi' hj' hgt hpf hpg] at hsame
      cases hsame
  · cases joined
    · exact Or.inl rfl
    · exact Or.inr (by simp [written, hq])

/-- What `*` or `q.*` selects among the fields, it selects whole: with a field also all that answer
    to its column. -/
theorem covers_of_answers {q : Option String} {f g : Field} (hg : g.qualifier ≠ none)
    (hone : joined = false → g.qualifier = f.qualifier)
    (h : g.answers (written joined f) = true)
    (hf : (q.all fun q => Text.sameName q (f.qualifier.getD "")) = true) :
    (q.all fun q => Text.sameName q (g.qualifier.getD "")) = true := by
  cases joined with
  | false => rwa [hone rfl]
  | true =>
      obtain ⟨p, hp⟩ := Option.ne_none_iff_exists'.mp hg
      have hisOf : Text.sameName p (f.qualifier.getD "") = true := by
        simp only [Field.answers, written, Bool.and_eq_true] at h
        simpa [Field.isOf, hp] using h.2
      cases q with
      | none => rfl
      | some q => simpa [hp, Text.sameName_right hisOf] using hf

/-! ## Statements -/

theorem names_of_selectList {items : List SelectItem} {exprs : List Expr} {names : List String}
    (h : selectList config schema joined items = .ok (exprs, names)) :
    exprs.length = names.length ∧ names.Pairwise fun a b => Text.sameName a b = false := by
  obtain ⟨parts, _, rfl, rfl, hnames⟩ := selectList_inv h
  exact ⟨by rw [List.length_map, List.length_map], (repeatedName?_eq_none.mp hnames).2⟩

/-- The expressions of a select list are resolved, whether they were written or written out. -/
theorem resolved_of_selectList {items : List SelectItem} {exprs : List Expr} {names : List String}
    (h : selectList config schema joined items = .ok (exprs, names)) (hn : 0 < config.maxDepth)
    (hqualified : ∀ g ∈ schema.fields, g.qualifier ≠ none)
    (hone : joined = false → ∀ f ∈ schema.fields, ∀ g ∈ schema.fields, g.qualifier = f.qualifier)
    (he : e ∈ exprs) : Resolved schema config.maxDepth e := by
  obtain ⟨_, hnames⟩ := names_of_selectList h
  obtain ⟨parts, hparts, rfl, rfl, _⟩ := selectList_inv h
  obtain ⟨column, hc, rfl⟩ := List.mem_map.mp he
  obtain ⟨part, hpart, hc⟩ := List.mem_flatten.mp hc
  obtain ⟨item, _, place, hitem⟩ := exists_left hparts hpart
  cases item with
  | expr e aliasName =>
      obtain ⟨e', name, rfl, he'⟩ := selectItem_expr hitem
      rw [List.mem_singleton.mp hc]
      exact resolved_of_resolve he'
  | all q l =>
      have hpartNames := hnames.sublist ((List.sublist_flatten_of_mem hpart).map _)
      rw [selectItem_all hitem] at hc hpartNames
      obtain ⟨f, hf, rfl⟩ := List.mem_map.mp hc
      obtain ⟨hf, hcovers⟩ := List.mem_filter.mp hf
      obtain ⟨p, hp⟩ := Option.ne_none_iff_exists'.mp (hqualified f hf)
      have hspelled := spelled_expandField hf hp hcovers hqualified
        (fun g hg hga => covers_of_answers (hqualified g hg) (fun hj => hone hj f hf g hg) hga hcovers)
        hpartNames
      rw [expandField_fst]
      refine ⟨hn, fun l c hc => ?_⟩
      cases hc with
      | self => exact hspelled
      | part member => simp [Expr.children] at member

/-- The fields of a relation that is not joined belong together. -/
theorem qualifier_eq_of_relation {catalog : Catalog} {r : Relation} {sources : List Source}
    {input : Schema} (h : relation catalog config r = .ok (sources, input, none)) {f g : Field}
    (hf : f ∈ input.fields) (hg : g ∈ input.fields) : g.qualifier = f.qualifier := by
  rcases relation_inv h with ⟨_, one, _, _, _, rfl, _⟩ | ⟨_, _, _, _, _, _, _, _, _, _, _, _, hj, _⟩
  · obtain ⟨_, _, rfl⟩ := List.mem_map.mp hf
    obtain ⟨_, _, rfl⟩ := List.mem_map.mp hg
    rfl
  · cases hj

/-- The expressions of a statement: its select list, its conditions and its grouping. -/
def clauses (s : Analysis) : List Expr :=
  s.exprs ++ s.filter.toList ++ s.groupBy ++ s.having.toList ++ (s.join.map (·.criteria)).toList

/-- The expressions that may call an aggregate function. -/
theorem mem_clauses {s : Analysis} (h : e ∈ s.exprs ++ s.having.toList) : e ∈ s.clauses := by
  unfold clauses
  rcases List.mem_append.mp h with h | h
  · simp [h]
  · simp [h]

/-- Every expression of the statement is resolved. -/
theorem resolved_of_clauses {catalog : Catalog} {st : Statement} {s : Analysis}
    (h : ofStatement catalog config st = .ok s) (hn : 0 < config.maxDepth)
    (he : e ∈ s.clauses) : Resolved s.input config.maxDepth e := by
  obtain ⟨hrelation, hselect, hfilter, hgroupBy, hhaving, _⟩ := ofStatement_eq_ok.mp h
  simp only [clauses, List.mem_append, or_assoc] at he
  rcases he with he | he | he | he | he
  · refine resolved_of_selectList hselect hn (fun g hg => ?_) (fun hj f hf g hg => ?_) he
    · obtain ⟨q, hq⟩ := qualifier_of_relation hrelation hg
      simp [hq]
    · rw [Option.isSome_eq_false_iff, Option.isNone_iff_eq_none] at hj
      rw [hj] at hrelation
      exact qualifier_eq_of_relation hrelation hf hg
  · obtain ⟨_, _, hr⟩ := exists_left (forall₂_toList hfilter) he
    exact resolved_of_resolve hr
  · obtain ⟨_, _, hr⟩ := exists_left hgroupBy he
    exact resolved_of_resolve hr
  · obtain ⟨_, _, hr⟩ := exists_left (forall₂_toList hhaving) he
    exact resolved_of_resolve hr
  · rcases relation_inv hrelation with ⟨_, _, _, _, _, _, hj⟩ |
      ⟨_, _, _, _, _, _, _, _, _, _, _, _, hj, _, hon⟩
    · simp [hj] at he
    · rw [hj, Option.map_some, Option.toList_some, List.mem_singleton] at he
      rw [he]
      exact resolved_of_resolve hon

/-- **A statement that was analysed is resolved.** Each column in it, at any depth of any clause, is
    found at one place of the input and is spelled as it is there. Each select expression has a
    name, no two names are the same but for the case of letters, and resolving an expression again
    gives it back. -/
theorem ofStatement_resolved {catalog : Catalog} {config : Config} {st : Statement} {s : Analysis}
    (hconfig : config.validate = .ok config) (h : ofStatement catalog config st = .ok s) :
    (∀ e ∈ s.clauses,
      (∀ l c, Expr.Within (.column l c) e → Spelled s.input c) ∧
        resolve config.maxDepth s.input e = .ok e) ∧
      s.exprs.length = s.names.length ∧
      s.names.Pairwise fun a b => Text.sameName a b = false := by
  refine ⟨fun e he => ?_, ?_⟩
  · have hresolved := resolved_of_clauses h (Config.maxDepth_pos hconfig) he
    exact ⟨hresolved.2, hresolved.again⟩
  · obtain ⟨_, hselect, _⟩ := ofStatement_eq_ok.mp h
    exact names_of_selectList hselect

def orders : Catalog :=
  ⟨[("orders", [⟨"id", .int32, true⟩, ⟨"buyer", .int32, true⟩]),
    ("people", [⟨"id", .int32, true⟩, ⟨"Name", .utf8, true⟩])]⟩

/-- `SELECT O.*, NAME FROM orders o INNER JOIN people p ON O.Buyer = P.ID` -/
def ordersOfPeople : Statement :=
  .query {
    select := [.all (some "O") none, .expr (.col "NAME") none]
    source := .join .inner ⟨"orders", some "o", none⟩ ⟨"people", some "p", none⟩
      (.compare none (.qualifiedCol "O" "Buyer") .eq (.qualifiedCol "P" "ID")) }

def ordersOfPeopleClauses : List Expr :=
  [.qualifiedCol "o" "id", .qualifiedCol "o" "buyer", .col "Name",
    .compare none (.qualifiedCol "o" "buyer") .eq (.qualifiedCol "p" "id")]

/-- Both relations have a column `id`; the one that `O.*` writes out is that of the orders. -/
theorem ofStatement_resolved_orders :
    Config.validate {} = .ok {} ∧
      ∃ s, ofStatement orders {} ordersOfPeople = .ok s ∧
        s.names = ["o_id", "o_buyer", "p_Name"] ∧ s.clauses = ordersOfPeopleClauses ∧
        Spelled s.input ⟨some "o", "id"⟩ ∧
        (∀ e ∈ ordersOfPeopleClauses, resolve 128 s.input e = .ok e) ∧
        s.names.Pairwise fun a b => Text.sameName a b = false := by
  have hconfig : Config.validate {} = .ok {} := rfl
  have hview : (fun s => (s.names, s.clauses)) <$> ofStatement orders {} ordersOfPeople =
      .ok (["o_id", "o_buyer", "p_Name"], ordersOfPeopleClauses) := rfl
  obtain ⟨s, hs, hview⟩ := map_eq_ok.mp hview
  simp only [Prod.mk.injEq] at hview
  obtain ⟨hnames, hclauses⟩ := hview
  obtain ⟨hresolved, _, hdistinct⟩ := ofStatement_resolved hconfig hs
  rw [hclauses] at hresolved
  refine ⟨hconfig, s, hs, hnames, hclauses, ?_, fun e he => (hresolved e he).2, hdistinct⟩
  exact (hresolved (.qualifiedCol "o" "id") List.mem_cons_self).1 _ _ .self

end Analysis

end StreamSql
