/-
  A select that begins with a string. Its first item is that string or a form around it, so a query
  whose only item is a string constant has the constant that stands first among its tokens
  (`leading_string`).

  What a parser takes matters only up to the first item; of everything after it only that it leaves
  the item alone.
-/
import StreamSql.Grammar.Sentence
import StreamSql.Proofs.Outcome

namespace StreamSql.Grammar

open Outcome

/-! ## Operators -/

theorem yields_parenthesized {α : Type} {P : α → Prop} {p : Parser α} (h : Yields P p) :
    Yields P (parenthesized p) :=
  .bind fun _ => .seq h fun _ ha => .bind fun _ => .pure ha

/-- Neither a constant nor something in parentheses. -/
def Term.Compound : Term → Prop
  | .value _ | .nested _ => False
  | _ => True

variable {f : Forms} {power : Nat} {t : Term}

/-- An operator makes a form of its own, whichever it is. -/
theorem yields_operator : Yields Term.Compound (operator f power t) := by
  unfold operator quantified postfixTerm predicate patternTerm isTerm inTerm
  -- the steps that need not unfold a parser to see that they apply come first
  repeat' first
    | with_reducible refine .bind fun _ => ?_
    | with_reducible refine .ite ?_ ?_
    | exact .throw
    | exact .pure trivial
    | refine yields_parenthesized ?_
    | split

theorem operators_eq_ok {n : Nat} {ts r : List Token} {t' : Term}
    (h : operators f power n t ts = .ok (t', r)) : t' = t ∨ t'.Compound := by
  induction n generalizing t ts with
  | zero => cases h
  | succ n ih =>
      obtain ⟨ts', _, hget, h⟩ := stateBind_eq_ok.mp h
      split at h
      · obtain ⟨t₁, ts₁, h₁, h⟩ := stateBind_eq_ok.mp h
        rcases ih h with rfl | hcompound
        · exact Or.inr (yields_operator _ _ _ h₁)
        · exact Or.inr hcompound
      · cases h
        exact Or.inl rfl

/-! ## The first item -/

theorem typedText_string (f : Forms) (s : String) (ts : List Token) :
    typedText f (.string s :: ts) = .error .unexpected :=
  rfl

theorem plainOperand_string (f : Forms) (s : String) (ts : List Token) :
    plainOperand f (.string s :: ts) = .ok (.value (.string s), ts) :=
  rfl

theorem operand_string {s : String} {ts r : List Token} (h : operand f (.string s :: ts) = .ok (t, r)) :
    t = .value (.string s) ∨ t.Compound := by
  obtain ⟨o, ts₁, ho, h⟩ := stateBind_eq_ok.mp h
  rw [attempt, typedText_string] at ho
  cases ho
  obtain ⟨t₁, ts₂, ht, h⟩ := stateBind_eq_ok.mp h
  rw [plainOperand_string] at ht
  cases ht
  obtain ⟨b, ts₃, _, h⟩ := stateBind_eq_ok.mp h
  split at h
  · obtain ⟨p, ts₄, _, h⟩ := stateBind_eq_ok.mp h
    cases h
    exact Or.inr trivial
  · cases h
    exact Or.inl rfl

theorem term_string {s : String} {ts r : List Token} (h : term f power (.string s :: ts) = .ok (t, r)) :
    t = .value (.string s) ∨ t.Compound := by
  obtain ⟨t₁, ts₁, ht, h⟩ := stateBind_eq_ok.mp h
  obtain ⟨ts₂, _, hget, h⟩ := stateBind_eq_ok.mp h
  rcases operators_eq_ok h with rfl | hcompound
  · exact operand_string ht
  · exact Or.inr hcompound

/-- The item is no expression, or the string itself, or a form around something. -/
def Item.Leads (s : String) : Item → Prop
  | .expr t _ => t = .value (.string s) ∨ t.Compound
  | _ => True

section

variable {calls levels : Nat} {prior : Bool} {s : String} {ts r : List Token}

theorem expr_string (h : (forms calls levels prior).expr (.string s :: ts) = .ok (t, r)) :
    t = .value (.string s) ∨ t.Compound := by
  cases calls with
  | zero => cases h
  | succ calls =>
      cases levels with
      | zero => cases h
      | succ levels => exact term_string h

theorem starred_string {st : Starred}
    (h : starred (forms calls levels prior) (.string s :: ts) = .ok (st, r)) :
    ∀ t, st = .term t → t = .value (.string s) ∨ t.Compound := by
  rintro t rfl
  obtain ⟨ts₁, ts₂, hget, h⟩ := stateBind_eq_ok.mp h
  obtain ⟨hts, rfl⟩ : ts₁ = .string s :: ts ∧ .string s :: ts = ts₂ := by
    cases hget
    exact ⟨rfl, rfl⟩
  clear hget
  split at h
  · cases hts
  · obtain ⟨rfl, rfl⟩ := List.cons.inj hts
    obtain ⟨_, ts₂, hset, h⟩ := stateBind_eq_ok.mp h
    obtain ⟨⟨is, star⟩, ts₃, _, h⟩ := stateBind_eq_ok.mp h
    simp only at h
    split at h
    · cases h
    · obtain ⟨_, ts₄, hset, h⟩ := stateBind_eq_ok.mp h
      cases hset
      obtain ⟨t', ts₅, ht, h⟩ := stateBind_eq_ok.mp h
      cases h
      exact expr_string ht
  · obtain ⟨t', ts₅, ht, h⟩ := stateBind_eq_ok.mp h
    cases h
    exact expr_string ht

theorem item_string {i : Item} (h : item (forms calls levels prior) (.string s :: ts) = .ok (i, r)) :
    i.Leads s := by
  obtain ⟨st, ts₁, hst, h⟩ := stateBind_eq_ok.mp h
  have hleads := starred_string hst
  split at h
  · obtain ⟨o, _, _, h⟩ := stateBind_eq_ok.mp h
    cases h
    trivial
  · obtain ⟨o, _, _, h⟩ := stateBind_eq_ok.mp h
    cases h
    trivial
  · split at h
    · cases h
    · obtain ⟨a, _, _, h⟩ := stateBind_eq_ok.mp h
      cases h
      exact hleads _ rfl
  · obtain ⟨a, _, _, h⟩ := stateBind_eq_ok.mp h
    cases h
    exact hleads _ rfl

theorem select_string {sel : Select}
    (h : select (forms calls levels prior) (.string s :: ts) = .ok (sel, r)) :
    ∃ i is, sel.items = i :: is ∧ i.Leads s := by
  obtain ⟨d, ts₁, hd, h⟩ := stateBind_eq_ok.mp h
  cases hd
  obtain ⟨t, ts₁, ht, h⟩ := stateBind_eq_ok.mp h
  cases ht
  obtain ⟨items, ts₂, hitems, h⟩ := stateBind_eq_ok.mp h
  obtain ⟨i, ts₃, hi, hitems⟩ := stateBind_eq_ok.mp hitems
  obtain ⟨is, ts₄, _, hitems⟩ := stateBind_eq_ok.mp hitems
  cases hitems
  refine ⟨i, is, ?_, item_string hi⟩
  -- the clauses after the items do not change them
  refine (?_ : Yields (fun sel => sel.items = i :: is) _) _ _ _ h
  repeat' first
    | exact .pure rfl
    | refine .ite ?_ ?_
    | refine .bind fun _ => ?_

theorem setOperators_eq_ok {f : Forms} {power n : Nat} {b b' : Body}
    (h : setOperators f power n b ts = .ok (b', r)) : b' = b ∨ ∃ shown, b' = .other shown := by
  induction n generalizing b ts with
  | zero => cases h
  | succ n ih =>
      obtain ⟨ts₁, _, _, h⟩ := stateBind_eq_ok.mp h
      cases hop : setOperator? ts₁ with
      | none =>
          simp only [hop] at h
          cases h
          exact Or.inl rfl
      | some found =>
          obtain ⟨op, p⟩ := found
          simp only [hop] at h
          split at h
          · obtain ⟨_, _, _, h⟩ := stateBind_eq_ok.mp h
            obtain ⟨_, _, _, h⟩ := stateBind_eq_ok.mp h
            obtain ⟨_, _, _, h⟩ := stateBind_eq_ok.mp h
            rcases ih h with rfl | hother
            · exact Or.inr ⟨_, rfl⟩
            · exact Or.inr hother
          · cases h
            exact Or.inl rfl

/-- The body is no select, or its first item is that. -/
def Body.Leads (s : String) : Body → Prop
  | .select sel => ∃ i is, sel.items = i :: is ∧ i.Leads s
  | .other _ => True

theorem body_string {b : Body} {power : Nat}
    (h : body (forms calls levels prior) power (.word "SELECT" none :: .string s :: ts) = .ok (b, r)) :
    b.Leads s := by
  obtain ⟨b₁, ts₁, hb, h⟩ := stateBind_eq_ok.mp h
  obtain ⟨ts₂, _, _, h⟩ := stateBind_eq_ok.mp h
  rcases setOperators_eq_ok h with rfl | ⟨shown, rfl⟩
  · obtain ⟨found, ts₃, hfound, hb⟩ := stateBind_eq_ok.mp hb
    cases hfound
    obtain ⟨sel, ts₄, hsel, hb⟩ := stateBind_eq_ok.mp hb
    cases hb
    exact select_string hsel
  · trivial

theorem query_string {q : Query}
    (h : (forms calls levels prior).query (.word "SELECT" none :: .string s :: ts) = .ok (q, r)) :
    q.body.Leads s := by
  cases calls with
  | zero => cases h
  | succ calls =>
      cases levels with
      | zero => cases h
      | succ levels =>
          obtain ⟨ctes, ts₁, hctes, h⟩ := stateBind_eq_ok.mp h
          cases hctes
          obtain ⟨b₁, ts₁, hb₁, h⟩ := stateBind_eq_ok.mp h
          cases hb₁
          obtain ⟨b₂, ts₁, hb₂, h⟩ := stateBind_eq_ok.mp h
          cases hb₂
          obtain ⟨b, ts₂, hb, h⟩ := stateBind_eq_ok.mp h
          have hleads : b.Leads s := by
            cases calls with
            | zero => cases hb
            | succ calls => exact body_string hb
          have hbody : q.body = b := by
            refine (?_ : Yields (fun q => q.body = b) _) _ _ _ h
            repeat' first
              | exact .pure rfl
              | refine .ite ?_ ?_
              | refine .bind fun _ => ?_
          rw [hbody]
          exact hleads

theorem sentence_string {n : Nat} {x : Sentence}
    (h : sentence calls n levels (.word "SELECT" none :: .string s :: ts) = .ok (x, r)) :
    ∃ q, x = .query q ∧ q.body.Leads s := by
  cases n with
  | zero => cases h
  | succ n =>
      cases levels with
      | zero => cases h
      | succ levels =>
          obtain ⟨ts₁, ts₂, hget, h⟩ := stateBind_eq_ok.mp h
          cases hget
          obtain ⟨t, ts₁, hnext, h⟩ := stateBind_eq_ok.mp h
          cases hnext
          obtain ⟨_, ts₁, hset, h⟩ := stateBind_eq_ok.mp h
          cases hset
          obtain ⟨q, ts₁, hq, h⟩ := stateBind_eq_ok.mp h
          cases h
          exact ⟨q, rfl, query_string hq⟩

/-- What a text that begins with SELECT and a string begins with. -/
theorem leading_string {ss : List Sentence}
    (h : Sentence.parseAll levels (.word "SELECT" none :: .string s :: ts) = .ok ss) :
    ∃ q others, ss = .query q :: others ∧ q.body.Leads s := by
  obtain ⟨⟨ss', ts₁⟩, hss, heq⟩ := bind_eq_ok.mp h
  cases heq
  obtain ⟨ts₂, _, hget, hss⟩ := stateBind_eq_ok.mp hss
  cases hget
  obtain ⟨_, ts₂, hsemi, hss⟩ := stateBind_eq_ok.mp hss
  cases hsemi
  obtain ⟨ts₂, _, hget, hss⟩ := stateBind_eq_ok.mp hss
  cases hget
  obtain ⟨x, ts₃, hx, hss⟩ := stateBind_eq_ok.mp hss
  obtain ⟨q, rfl, hleads⟩ := sentence_string hx
  refine ⟨q, ss.tail, ?_, hleads⟩
  refine (?_ : Yields (fun ss => ss = .query q :: ss.tail) _) _ _ _ hss
  repeat' first
    | exact .pure rfl
    | exact .throw
    | refine .ite ?_ ?_
    | refine .bind fun _ => ?_

end

end StreamSql.Grammar
