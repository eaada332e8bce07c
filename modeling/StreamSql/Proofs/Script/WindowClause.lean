/-
  Streaming window clauses. `Window.Written w ts` lists the ways to write the window `w`, as tokens
  without gaps. A window is read exactly if such tokens come next (`window?_eq_ok`), and a clause is
  found exactly if they stand between a word WINDOW and a closing parenthesis (`extract_eq_some`,
  `extract_eq_none`).

  The query is written from the tokens before and after the clause, and the words of the statement
  are picked by the places of its tokens. Both leave out the same places (`cut`, `wordsOutside_eq`),
  so the words are those of the tokens that the query is written from (`parse_around`).
-/
import StreamSql.Proofs.Script.Envelope
import StreamSql.Script.Basic

namespace StreamSql

open Outcome

/-! ## Ways to write a window -/

/-- An amount and a unit that are the duration. -/
inductive Duration.Written (d : Duration) : List Token → Prop
  | amount {digits word : String} {long : Bool} {quote : Option Char} {n : Nat}
      {unit : WindowClause.ClockUnit} (number : WindowClause.amount? digits = some n)
      (name : WindowClause.ClockUnit.ofName? (Text.upper word) = some unit)
      (product : unit.times n = .ok d) (positive : d.nanos ≠ 0) :
      Written d [.number digits long, .word word quote]

/-- A window after the word WINDOW, without its closing parenthesis. -/
inductive Window.Written : Window → List Token → Prop
  | tumbling {kind size : Token} {d : Duration} {ts : List Token}
      (named : kind.isWord "TUMBLING" = true) (sized : size.isWord "SIZE" = true)
      (written : d.Written ts) : Written (.tumbling d) (kind :: .symbol .lParen :: size :: ts)
  | hopping {kind size advance by_ : Token} {d e : Duration} {ts us : List Token}
      (named : kind.isWord "HOPPING" = true) (sized : size.isWord "SIZE" = true)
      (written : d.Written ts) (advanced : advance.isWord "ADVANCE" = true)
      (stepped : by_.isWord "BY" = true) (step : e.Written us) (le : e.nanos ≤ d.nanos) :
      Written (.hopping d e)
        (kind :: .symbol .lParen :: size :: (ts ++ .symbol .comma :: advance :: by_ :: us))
  | session {kind : Token} {d : Duration} {ts : List Token}
      (named : kind.isWord "SESSION" = true) (written : d.Written ts) :
      Written (.session d) (kind :: .symbol .lParen :: ts)

namespace WindowClause

open Token

variable {ls r body remaining : List Token} {d : Duration} {w : Window} {c : WindowClause}

theorem expectSymbol_eq_ok {s : Symbol} :
    expectSymbol s ls = .ok r ↔ take? ls = some (.symbol s, r) := by
  rw [← takeSymbol?_eq_some]
  unfold expectSymbol
  cases takeSymbol? s ls <;> simp

theorem expectWord_eq_ok {word : String} :
    expectWord word ls = .ok r ↔ ∃ t, t.isWord word = true ∧ take? ls = some (t, r) := by
  rw [← takeKeyword?_eq_some]
  unfold expectWord
  cases takeKeyword? word ls <;> simp

theorem duration_eq_ok : duration ls = .ok (d, r) ↔ ∃ ts, d.Written ts ∧ Takes ts ls r := by
  constructor
  · intro h
    unfold duration at h
    split at h
    · rename_i digits long m hnumber
      split at h
      · cases h
      · rename_i n hn
        split at h
        · cases h
        · rename_i word m' hword
          obtain ⟨quote, hword⟩ := takeWord?_eq_some.mp hword
          simp only at h
          split at h
          · cases h
          · rename_i unit hunit
            obtain ⟨d', hd, h⟩ := bind_eq_ok.mp h
            split at h
            · cases h
            · rename_i hpositive
              cases h
              exact ⟨_, .amount hn hunit hd hpositive, m, hnumber, r, hword, rfl⟩
    · cases h
  · rintro ⟨_, ⟨hn, hunit, hd, hpositive⟩, m, hnumber, _, hword, rfl⟩
    have hword := takeWord?_eq_some.mpr ⟨_, hword⟩
    simp [duration, hnumber, hn, hword, hunit, hd, hpositive, bind, Except.bind, pure, Except.pure]

theorem size_eq_ok : size ls = .ok (d, r) ↔
    ∃ t ts, t.isWord "SIZE" = true ∧ d.Written ts ∧ Takes (.symbol .lParen :: t :: ts) ls r := by
  simp only [size, bind_eq_ok, expectSymbol_eq_ok, expectWord_eq_ok, duration_eq_ok, Takes]
  constructor
  · rintro ⟨a, ha, b, ⟨t, ht, hb⟩, ts, hts, hr⟩
    exact ⟨t, ts, ht, hts, a, ha, b, hb, hr⟩
  · rintro ⟨t, ts, ht, hts, a, ha, b, hb, hr⟩
    exact ⟨a, ha, b, ⟨t, ht, hb⟩, ts, hts, hr⟩

/-- A window is read exactly as it may be written. -/
theorem window?_eq_ok :
    window? ls = .ok (some (w, r)) ↔ ∃ ts, w.Written ts ∧ Takes ts ls r := by
  constructor
  · intro h
    unfold window? at h
    split at h
    · rename_i m hkind
      obtain ⟨kind, hnamed, hkind⟩ := takeKeyword?_eq_some.mp hkind
      obtain ⟨⟨d, r'⟩, hsize, h⟩ := bind_eq_ok.mp h
      cases h
      obtain ⟨t, ts, ht, hts, htakes⟩ := size_eq_ok.mp hsize
      exact ⟨_, .tumbling hnamed ht hts, m, hkind, htakes⟩
    · split at h
      · rename_i m hkind
        obtain ⟨kind, hnamed, hkind⟩ := takeKeyword?_eq_some.mp hkind
        obtain ⟨⟨d, r₁⟩, hsize, h⟩ := bind_eq_ok.mp h
        obtain ⟨r₂, hcomma, h⟩ := bind_eq_ok.mp h
        obtain ⟨r₃, hadvance, h⟩ := bind_eq_ok.mp h
        obtain ⟨r₄, hby, h⟩ := bind_eq_ok.mp h
        obtain ⟨⟨e, r₅⟩, hstep, h⟩ := bind_eq_ok.mp h
        simp only at h
        split at h
        · cases h
        · rename_i hle
          cases h
          obtain ⟨t, ts, ht, hts, htakes⟩ := size_eq_ok.mp hsize
          obtain ⟨a, ha, hadvance⟩ := expectWord_eq_ok.mp hadvance
          obtain ⟨b, hb, hby⟩ := expectWord_eq_ok.mp hby
          obtain ⟨us, hus, hmore⟩ := duration_eq_ok.mp hstep
          have hsecond : Takes (.symbol .comma :: a :: b :: us) r₁ r :=
            ⟨r₂, expectSymbol_eq_ok.mp hcomma, r₃, hadvance, r₄, hby, hmore⟩
          refine ⟨_, .hopping hnamed ht hts ha hb hus (Nat.le_of_not_lt hle), m, hkind, ?_⟩
          exact takes_append.mpr ⟨r₁, htakes, hsecond⟩
      · split at h
        · rename_i m hkind
          obtain ⟨kind, hnamed, hkind⟩ := takeKeyword?_eq_some.mp hkind
          obtain ⟨r₁, hopen, h⟩ := bind_eq_ok.mp h
          obtain ⟨⟨d, r₂⟩, hgap, h⟩ := bind_eq_ok.mp h
          cases h
          obtain ⟨ts, hts, htakes⟩ := duration_eq_ok.mp hgap
          exact ⟨_, .session hnamed hts, m, hkind, r₁, expectSymbol_eq_ok.mp hopen, htakes⟩
        · cases h
  · rintro ⟨_, hwritten, htakes⟩
    cases hwritten with
    | tumbling hnamed hsized hts =>
        obtain ⟨m, hkind, htakes⟩ := htakes
        have hsize := size_eq_ok.mpr ⟨_, _, hsized, hts, htakes⟩
        have hkind := takeKeyword?_eq_some.mpr ⟨_, hnamed, hkind⟩
        simp [window?, hkind, hsize, bind, Except.bind, pure, Except.pure]
    | @hopping kind size a b d e ts us hnamed hsized hts ha hb hus hle =>
        obtain ⟨m, hkind, htakes⟩ := htakes
        have hboth : Takes ((.symbol .lParen :: size :: ts) ++ .symbol .comma :: a :: b :: us) m r :=
          htakes
        obtain ⟨r₁, hfirst, r₂, hcomma, r₃, hadvance, r₄, hby, hmore⟩ := takes_append.mp hboth
        have htumbling : takeKeyword? "TUMBLING" ls = none :=
          takeKeyword?_eq_none hkind hnamed (by decide)
        have hkind := takeKeyword?_eq_some.mpr ⟨_, hnamed, hkind⟩
        have hsize := size_eq_ok.mpr ⟨_, _, hsized, hts, hfirst⟩
        have hadvance := expectWord_eq_ok.mpr ⟨_, ha, hadvance⟩
        have hby := expectWord_eq_ok.mpr ⟨_, hb, hby⟩
        have hstep := duration_eq_ok.mpr ⟨_, hus, hmore⟩
        simp [window?, htumbling, hkind, hsize, expectSymbol_eq_ok.mpr hcomma, hadvance, hby, hstep,
          Nat.not_lt.mpr hle, bind, Except.bind, pure, Except.pure]
    | session hnamed hts =>
        obtain ⟨m, hkind, r₁, hopen, hmore⟩ := htakes
        have htumbling : takeKeyword? "TUMBLING" ls = none :=
          takeKeyword?_eq_none hkind hnamed (by decide)
        have hhopping : takeKeyword? "HOPPING" ls = none :=
          takeKeyword?_eq_none hkind hnamed (by decide)
        have hkind := takeKeyword?_eq_some.mpr ⟨_, hnamed, hkind⟩
        have hgap := duration_eq_ok.mpr ⟨_, hts, hmore⟩
        simp [window?, htumbling, hhopping, hkind, expectSymbol_eq_ok.mpr hopen, hgap, bind,
          Except.bind, pure, Except.pure]

/-! ## Finding a clause -/

/-- A clause begins with the first token: the word WINDOW, and next a kind of streaming window. -/
def Opens (ls : List Token) : Prop :=
  ∃ t r, ls = t :: r ∧ t.isWord "WINDOW" = true ∧
    ∃ kind m, take? r = some (kind, m) ∧ ∃ k ∈ kinds, kind.isWord k = true

/-- A clause begins somewhere in the tokens. -/
def Holds (ls : List Token) : Prop :=
  ∃ before found, ls = before ++ found ∧ Opens found

theorem namesKind_iff : namesKind ls = true ↔
    ∃ kind m, take? ls = some (kind, m) ∧ ∃ k ∈ kinds, kind.isWord k = true := by
  unfold namesKind peek? take?
  cases significant ls with
  | nil => simp
  | cons t ls => simp

theorem opens_cons {t : Token} :
    Opens (t :: ls) ↔ (t.isWord "WINDOW" && namesKind ls) = true := by
  rw [Bool.and_eq_true, namesKind_iff]
  constructor
  · rintro ⟨_, _, heq, hopens⟩
    cases heq
    exact hopens
  · exact fun hopens => ⟨t, ls, rfl, hopens⟩

theorem holds_cons {t : Token} : Holds (t :: ls) ↔ Opens (t :: ls) ∨ Holds ls := by
  constructor
  · rintro ⟨before, found, heq, hopens⟩
    cases before with
    | nil =>
        cases heq
        exact Or.inl hopens
    | cons a before =>
        cases heq
        exact Or.inr ⟨before, found, rfl, hopens⟩
  · rintro (hopens | ⟨before, found, rfl, hopens⟩)
    · exact ⟨[], t :: ls, rfl, hopens⟩
    · exact ⟨t :: before, found, rfl, hopens⟩

theorem find?_eq_none : find? ls = none ↔ ¬Holds ls := by
  induction ls with
  | nil =>
      simp only [find?, true_iff]
      rintro ⟨before, found, heq, t, r, rfl, _⟩
      simp at heq
  | cons t ls ih =>
      rw [holds_cons, opens_cons, find?]
      by_cases hopens : (t.isWord "WINDOW" && namesKind ls) = true
      · simp [hopens]
      · simp [hopens, ih]

/-- The clause that is looked for is the first one. -/
theorem find?_eq_some {n : Nat} :
    find? ls = some n ↔ Opens (ls.drop n) ∧ ∀ i < n, ¬Opens (ls.drop i) := by
  induction ls generalizing n with
  | nil =>
      simp only [find?, reduceCtorEq, false_iff, List.drop_nil]
      rintro ⟨⟨_, _, heq, _⟩, _⟩
      cases heq
  | cons t ls ih =>
      rw [find?]
      by_cases hopens : (t.isWord "WINDOW" && namesKind ls) = true
      · rw [if_pos hopens]
        have hfirst : Opens (t :: ls) := opens_cons.mpr hopens
        cases n with
        | zero => simpa using hfirst
        | succ n =>
            simp only [Option.some.injEq, (Nat.succ_ne_zero n).symm, false_iff]
            exact fun ⟨_, hnone⟩ => hnone 0 (Nat.succ_pos n) hfirst
      · rw [if_neg hopens, Option.map_eq_some_iff]
        have hfirst : ¬Opens (t :: ls) := fun h => hopens (opens_cons.mp h)
        constructor
        · rintro ⟨n, hfind, rfl⟩
          obtain ⟨hfound, hnone⟩ := ih.mp hfind
          refine ⟨hfound, fun i hi => ?_⟩
          cases i with
          | zero => exact hfirst
          | succ i => exact hnone i (by simpa using hi)
        · rintro ⟨hfound, hnone⟩
          cases n with
          | zero => exact absurd hfound hfirst
          | succ n =>
              exact ⟨n, ih.mpr ⟨hfound, fun i hi => hnone (i + 1) (by simpa using hi)⟩, rfl⟩

/-! ## Taking a clause out -/

/-- Where a kind comes next, a window is read or there is an error. -/
theorem window?_ne_none {kind : Token} {m : List Token} (htake : take? ls = some (kind, m))
    (hkind : ∃ k ∈ kinds, kind.isWord k = true) : window? ls ≠ .ok none := by
  have hkeyword : ∀ {word}, kind.isWord word = true → takeKeyword? word ls = some m :=
    fun h => takeKeyword?_eq_some.mpr ⟨kind, h, htake⟩
  intro h
  unfold window? at h
  split at h
  · obtain ⟨_, _, h⟩ := bind_eq_ok.mp h
    cases h
  · rename_i htumbling
    split at h
    · obtain ⟨_, _, h⟩ := bind_eq_ok.mp h
      obtain ⟨_, _, h⟩ := bind_eq_ok.mp h
      obtain ⟨_, _, h⟩ := bind_eq_ok.mp h
      obtain ⟨_, _, h⟩ := bind_eq_ok.mp h
      obtain ⟨_, _, h⟩ := bind_eq_ok.mp h
      simp only at h
      split at h <;> cases h
    · rename_i hhopping
      split at h
      · obtain ⟨_, _, h⟩ := bind_eq_ok.mp h
        obtain ⟨_, _, h⟩ := bind_eq_ok.mp h
        cases h
      · rename_i hsession
        obtain ⟨k, hk, hword⟩ := hkind
        simp only [kinds, List.mem_cons, List.not_mem_nil, or_false] at hk
        rcases hk with rfl | rfl | rfl
        · rw [hkeyword hword] at htumbling
          cases htumbling
        · rw [hkeyword hword] at hhopping
          cases hhopping
        · rw [hkeyword hword] at hsession
          cases hsession

/-- Nothing is taken out of a body exactly if it has no clause, and then it stays as it is. -/
theorem extract_eq_none :
    extract body = .ok (none, remaining) ↔ remaining = body ∧ ¬Holds body := by
  rw [← find?_eq_none]
  constructor
  · intro h
    unfold extract at h
    split at h
    · rename_i hfind
      cases h
      exact ⟨rfl, hfind⟩
    · rename_i start hfind
      obtain ⟨o, hwindow, h⟩ := bind_eq_ok.mp h
      cases o with
      | none =>
          obtain ⟨⟨t, r, hdrop, _, kind, m, htake, hkind⟩, _⟩ := find?_eq_some.mp hfind
          rw [← List.drop_drop, hdrop] at hwindow
          exact absurd hwindow (window?_ne_none htake hkind)
      | some p =>
          obtain ⟨after, _, h⟩ := bind_eq_ok.mp h
          simp only at h
          split at h <;> cases h
  · rintro ⟨rfl, h⟩
    simp [extract, h]

/-- The steps by which a clause is taken out. -/
theorem extract_eq_steps : extract body = .ok (some c, remaining) ↔
    ∃ r after, find? body = some c.start ∧
      window? (body.drop (c.start + 1)) = .ok (some (c.window, r)) ∧
      expectSymbol .rParen r = .ok after ∧ remaining = body.take c.start ++ after ∧
      find? remaining = none ∧ c.stop = body.length - after.length := by
  constructor
  · intro h
    unfold extract at h
    split at h
    · cases h
    · rename_i start hfind
      obtain ⟨o, hwindow, h⟩ := bind_eq_ok.mp h
      cases o with
      | none => cases h
      | some p =>
          obtain ⟨w, r⟩ := p
          obtain ⟨after, hclose, h⟩ := bind_eq_ok.mp h
          simp only at h
          split at h
          · cases h
          · rename_i hsecond
            cases h
            exact ⟨r, after, hfind, hwindow, hclose, rfl, by simpa using hsecond, rfl⟩
  · rintro ⟨r, after, hfind, hwindow, hclose, rfl, hsecond, hstop⟩
    obtain ⟨w, start, stop⟩ := c
    simp only at hfind hwindow hsecond hstop
    subst hstop
    simp [extract, hfind, hwindow, hclose, hsecond, bind, Except.bind, pure, Except.pure]

/-- The clause that is taken out is the first one of the body, from the word WINDOW to the closing
    parenthesis. What is left has no other. -/
theorem extract_eq_some : extract body = .ok (some c, remaining) ↔
    ∃ before t taken after ts, body = before ++ t :: (taken ++ after) ∧
      find? body = some before.length ∧ c.window.Written ts ∧
      Takes (ts ++ [.symbol .rParen]) (taken ++ after) after ∧ ¬Holds (before ++ after) ∧
      c.start = before.length ∧ c.stop = before.length + (taken.length + 1) ∧
      remaining = before ++ after := by
  rw [extract_eq_steps]
  constructor
  · rintro ⟨r, after, hfind, hwindow, hclose, rfl, hsecond, hstop⟩
    obtain ⟨⟨t, rest, hdrop, _⟩, _⟩ := find?_eq_some.mp hfind
    obtain ⟨ts, hwritten, htakes⟩ := window?_eq_ok.mp hwindow
    have hall : Takes (ts ++ [.symbol .rParen]) rest after := by
      rw [← List.drop_drop, hdrop] at htakes
      exact takes_append.mpr ⟨r, htakes, after, expectSymbol_eq_ok.mp hclose, rfl⟩
    obtain ⟨taken, rfl, _, _⟩ := hall.split
    have hbody : body = body.take c.start ++ t :: (taken ++ after) := by
      rw [← hdrop, List.take_append_drop]
    have hlength := congrArg List.length hdrop
    simp only [List.length_drop, List.length_cons, List.length_append] at hlength
    have hstart : (body.take c.start).length = c.start := by
      rw [List.length_take]
      omega
    refine ⟨_, t, taken, after, ts, hbody, hstart.symm ▸ hfind, hwritten, hall,
      find?_eq_none.mp hsecond, hstart.symm, ?_, rfl⟩
    omega
  · rintro ⟨before, t, taken, after, ts, hbody, hfind, hwritten, htakes, hholds, hstart, hstop, rfl⟩
    obtain ⟨r, htakes, after, hclose, rfl⟩ := takes_append.mp htakes
    have hdrop : body.drop (before.length + 1) = taken ++ after := by
      rw [hbody, ← List.drop_drop, List.drop_left]
      rfl
    have hlength := congrArg List.length hbody
    simp only [List.length_append, List.length_cons] at hlength
    rw [hstart, hdrop]
    refine ⟨r, after, hfind, window?_eq_ok.mpr ⟨ts, hwritten, htakes⟩,
      expectSymbol_eq_ok.mpr hclose, ?_, find?_eq_none.mpr hholds, ?_⟩
    · rw [hbody, List.take_left]
    · omega

/-- A list without the places of a clause that was found in it. -/
def cut {α : Type} (clause : Option WindowClause) (xs : List α) : List α :=
  match clause with
  | none => xs
  | some c => xs.take c.start ++ xs.drop c.stop

theorem map_cut {α β : Type} (f : α → β) (clause : Option WindowClause) (xs : List α) :
    (cut clause xs).map f = cut clause (xs.map f) := by
  cases clause with
  | none => rfl
  | some c => simp [cut]

theorem remaining_eq_cut {clause : Option WindowClause} (h : extract body = .ok (clause, remaining)) :
    remaining = cut clause body := by
  cases clause with
  | none => exact (extract_eq_none.mp h).1
  | some c =>
      obtain ⟨before, t, taken, after, _, hbody, _, _, _, _, hstart, hstop, rfl⟩ :=
        extract_eq_some.mp h
      have hsplit : body = (before ++ t :: taken) ++ after := by simpa using hbody
      have hlength : (before ++ t :: taken).length = c.stop := by simp [hstop]
      rw [cut, hstart, ← hlength]
      nth_rewrite 1 [hbody]
      rw [hsplit, List.take_left, List.drop_left]

theorem start_le_stop (h : extract body = .ok (some c, remaining)) : c.start ≤ c.stop := by
  obtain ⟨before, _, taken, _, _, _, _, _, _, _, hstart, hstop, _⟩ := extract_eq_some.mp h
  omega

/-- The places outside of a clause, in their order, are those before it and those after it. -/
theorem filter_outside {α : Type} (hle : c.start ≤ c.stop) (xs : List α) (k : Nat) :
    ((xs.zipIdx k).filter fun p => !(c.start ≤ p.2 && p.2 < c.stop)).map Prod.fst =
      xs.take (c.start - k) ++ xs.drop (c.stop - k) := by
  induction xs generalizing k with
  | nil => simp
  | cons x xs ih =>
      rw [List.zipIdx_cons, List.filter_cons]
      rcases Nat.lt_or_ge k c.start with hbefore | hstart
      · have hstep : c.start - k = (c.start - (k + 1)) + 1 ∧ c.stop - k = (c.stop - (k + 1)) + 1 := by
          omega
        rw [if_pos (by simp [Nat.not_le.mpr hbefore]), List.map_cons, ih, hstep.1, hstep.2,
          List.take_succ_cons, List.drop_succ_cons, List.cons_append]
      · have hnone : c.start - k = 0 ∧ c.start - (k + 1) = 0 := by omega
        rcases Nat.lt_or_ge k c.stop with hinside | hafter
        · have hstep : c.stop - k = (c.stop - (k + 1)) + 1 := by omega
          rw [if_neg (by simp [hstart, hinside]), ih, hnone.1, hnone.2, hstep, List.drop_succ_cons]
          rfl
        · have hrest : c.stop - k = 0 ∧ c.stop - (k + 1) = 0 := by omega
          rw [if_pos (by simp [Nat.not_lt.mpr hafter]), List.map_cons, ih, hnone.1, hnone.2, hrest.1,
            hrest.2]
          rfl

end WindowClause

/-! ## The body of a statement -/

namespace Script

open WindowClause

/-- The token is a word, in quotes or without. -/
def isWordToken (l : Lexeme) : Bool :=
  match l.token with
  | .word _ _ => true
  | _ => false

/-- The word has the text of the token and its position, each number of it to 32 bits. -/
def Word.Records (w : Word) (l : Lexeme) : Prop :=
  (∃ quote, l.token = .word w.value quote) ∧
    w.location.line.toNat = l.position.line % UInt32.size ∧
    w.location.column.toNat = l.position.column % UInt32.size

theorem records_wordOf {l : Lexeme} {w : Word} (h : wordOf? l = some w) : w.Records l := by
  obtain ⟨t, place⟩ := l
  cases t with
  | word v quote =>
      cases h
      exact ⟨⟨quote, rfl⟩, rfl, rfl⟩
  | _ => cases h

/-- A token is recorded by one word only. -/
theorem Word.records_leftUnique : Relator.LeftUnique Word.Records := by
  rintro ⟨v, line, column⟩ l ⟨v', line', column'⟩ ⟨⟨quote, hv⟩, hline, hcolumn⟩
    ⟨⟨quote', hv'⟩, hline', hcolumn'⟩
  obtain ⟨rfl, _⟩ := Token.word.inj (hv.symm.trans hv')
  obtain rfl := UInt32.toNat_inj.mp (hline.trans hline'.symm)
  obtain rfl := UInt32.toNat_inj.mp (hcolumn.trans hcolumn'.symm)
  rfl

/-- Each word token is one of the words, in the same order. -/
theorem records_words (ls : List Lexeme) :
    List.Forall₂ Word.Records (ls.filterMap wordOf?) (ls.filter isWordToken) := by
  induction ls with
  | nil => exact .nil
  | cons l ls ih =>
      obtain ⟨t, place⟩ := l
      cases t with
      | word v quote => exact .cons (records_wordOf rfl) ih
      | _ => exact ih

/-- The words that are picked by their places are those of the tokens that are left. -/
theorem wordsOutside_eq {body remaining : List Token} {clause : Option WindowClause}
    (h : extract body = .ok (clause, remaining)) (located : List Lexeme) :
    wordsOutside clause located = (cut clause located).filterMap wordOf? := by
  have houtside : (located.zipIdx.filter fun p => !clause.any fun c =>
      c.start ≤ p.2 && p.2 < c.stop).map Prod.fst = cut clause located := by
    cases clause with
    | none => simp [cut]
    | some c => exact filter_outside (start_le_stop h) located 0
  rw [← houtside, List.filterMap_map]
  rfl

/-- The steps by which a statement is split into its parts. -/
theorem parse_eq_ok {limit : Nat} {chunk : List Lexeme} {e : Entry} :
    Entry.parse limit chunk = .ok e ↔ ∃ envelope body clause remaining query,
      Envelope.split (chunk.map Lexeme.token) = .ok (envelope, body) ∧
      extract body = .ok (clause, remaining) ∧
      onlyQuery limit (Token.render remaining) = .ok query ∧
      e = { text := Text.trim (Token.render (chunk.map Lexeme.token)), envelope,
            window := clause.map window,
            words := wordsOutside clause (chunk.drop (chunk.length - body.length)), query } := by
  have hfail : ∀ {α : Type} {x : Except ParseFault α} {a : α}, orFail x = .ok a ↔ x = .ok a := by
    intro α x a
    cases x <;> simp [orFail]
  unfold Entry.parse
  simp only [bind_eq_ok, pure_eq_ok, hfail, Prod.exists, List.length_map]
  constructor
  · rintro ⟨envelope, body, hsplit, clause, remaining, hclause, query, hquery, rfl⟩
    exact ⟨envelope, body, clause, remaining, query, hsplit, hclause, hquery, rfl⟩
  · rintro ⟨envelope, body, clause, remaining, query, hsplit, hclause, hquery, rfl⟩
    exact ⟨envelope, body, hsplit, clause, remaining, hclause, query, hquery, rfl⟩

/-- The body of a statement is the tokens of the end of it. -/
theorem located_of_split {chunk : List Lexeme} {envelope : Envelope} {body : List Token}
    (h : Envelope.split (chunk.map Lexeme.token) = .ok (envelope, body)) :
    (chunk.drop (chunk.length - body.length)).map Lexeme.token = body := by
  obtain ⟨front, hfront⟩ := Envelope.suffix_of_split h
  have hlength : chunk.length - body.length = front.length := by
    have := congrArg List.length hfront
    simp only [List.length_append, List.length_map] at this
    omega
  rw [List.map_drop, ← hfront, hlength, List.drop_left]

/-- **A clause is taken out whole, and nothing else.** The tokens that are taken from a body are those
    from a word WINDOW to a closing parenthesis, and they write the window. The others are left, and
    no other clause is among them; none is there if none is found. Either way the query is read from
    the tokens that are left. The words of the statement are the word tokens among them, one by one,
    each with its position in the script as far as 32 bits hold it. -/
theorem parse_around (body : List Token) :
    (∀ c remaining, extract body = .ok (some c, remaining) →
      (∃ t ts, body[c.start]? = some t ∧ t.isWord "WINDOW" = true ∧ c.window.Written ts ∧
        ((body.take c.stop).drop c.start).filter (!·.isGap) = t :: (ts ++ [.symbol .rParen])) ∧
      body[c.stop - 1]? = some (.symbol .rParen) ∧
      remaining = body.take c.start ++ body.drop c.stop ∧ ¬Holds remaining) ∧
    (∀ remaining, extract body = .ok (none, remaining) ↔ remaining = body ∧ ¬Holds body) ∧
    ∀ {limit : Nat} {chunk : List Lexeme} {envelope : Envelope} {e : Entry},
      Envelope.split (chunk.map Lexeme.token) = .ok (envelope, body) →
      Entry.parse limit chunk = .ok e →
      ∃ front located clause remaining, chunk = front ++ located ∧
        located.map Lexeme.token = body ∧ extract body = .ok (clause, remaining) ∧
        e.window = clause.map window ∧ onlyQuery limit (Token.render remaining) = .ok e.query ∧
        (cut clause located).map Lexeme.token = remaining ∧
        List.Forall₂ Word.Records e.words ((cut clause located).filter isWordToken) := by
  refine ⟨fun c remaining hc => ?_, fun _ => extract_eq_none, fun hsplit hparse => ?_⟩
  · have hcut := remaining_eq_cut hc
    obtain ⟨before, t, taken, after, ts, hbody, hfind, hwritten, htakes, hholds, hstart, hstop,
      rfl⟩ := extract_eq_some.mp hc
    obtain ⟨⟨_, _, hdrop, hword, _⟩, _⟩ := find?_eq_some.mp hfind
    rw [hbody, List.drop_left] at hdrop
    cases hdrop
    obtain ⟨taken', heq, hfilter, hlast⟩ := htakes.split
    cases List.append_cancel_right heq
    obtain ⟨inner, rfl⟩ := List.getLast?_eq_some_iff.mp (hlast.trans List.getLast?_concat)
    refine ⟨⟨t, ts, ?_, hword, hwritten, ?_⟩, ?_, hcut, hholds⟩
    · simp [hbody, hstart]
    · have hplaces : (body.take c.stop).drop c.start = t :: (inner ++ [.symbol .rParen]) := by
        have hsplit : body = (before ++ t :: (inner ++ [.symbol .rParen])) ++ after := by
          simpa using hbody
        rw [hsplit, List.take_left' (by simp [hstop]), hstart, List.drop_left]
      rw [hplaces, List.filter_cons_of_pos (by simp [Token.isGap_of_isWord hword]), hfilter]
    · have hplace : c.stop - 1 = before.length + (inner.length + 1) := by simp [hstop]
      rw [hplace, hbody, List.getElem?_append_right (Nat.le_add_right _ _),
        Nat.add_sub_cancel_left]
      simp
  · rename_i chunk _ _
    obtain ⟨_, _, clause, remaining, query, hsplit', hclause, hquery, rfl⟩ := parse_eq_ok.mp hparse
    rw [hsplit] at hsplit'
    cases hsplit'
    have hlocated := located_of_split hsplit
    refine ⟨_, _, clause, remaining, (List.take_append_drop (chunk.length - body.length) chunk).symm,
      hlocated, hclause, rfl, hquery, ?_, ?_⟩
    · rw [map_cut, hlocated, ← remaining_eq_cut hclause]
    · rw [wordsOutside_eq hclause]
      exact records_words _

/-- The tokens of a statement of three lines with a window clause in it. -/
def sessions : List Lexeme :=
  [⟨.word "CREATE" none, ⟨1, 1⟩⟩, ⟨.gap .space, ⟨1, 7⟩⟩, ⟨.word "STREAM" none, ⟨1, 8⟩⟩,
    ⟨.gap .space, ⟨1, 14⟩⟩, ⟨.word "s" none, ⟨1, 15⟩⟩, ⟨.gap .space, ⟨1, 16⟩⟩,
    ⟨.word "AS" none, ⟨1, 17⟩⟩, ⟨.gap .newline, ⟨1, 19⟩⟩, ⟨.word "SELECT" none, ⟨2, 1⟩⟩,
    ⟨.gap .space, ⟨2, 7⟩⟩, ⟨.word "a" (some '\x22'), ⟨2, 8⟩⟩, ⟨.gap .space, ⟨2, 11⟩⟩,
    ⟨.word "FROM" none, ⟨2, 12⟩⟩, ⟨.gap .space, ⟨2, 16⟩⟩, ⟨.word "t" none, ⟨2, 17⟩⟩,
    ⟨.gap .newline, ⟨2, 18⟩⟩, ⟨.word "WINDOW" none, ⟨3, 1⟩⟩, ⟨.gap .space, ⟨3, 7⟩⟩,
    ⟨.word "SESSION" none, ⟨3, 8⟩⟩, ⟨.symbol .lParen, ⟨3, 15⟩⟩, ⟨.number "5" false, ⟨3, 16⟩⟩,
    ⟨.gap .space, ⟨3, 17⟩⟩, ⟨.word "SECONDS" none, ⟨3, 18⟩⟩, ⟨.symbol .rParen, ⟨3, 25⟩⟩,
    ⟨.word "GROUP" none, ⟨3, 26⟩⟩, ⟨.gap .space, ⟨3, 31⟩⟩, ⟨.word "BY" none, ⟨3, 32⟩⟩,
    ⟨.gap .space, ⟨3, 34⟩⟩, ⟨.word "a" (some '\x22'), ⟨3, 35⟩⟩]

theorem parse_around_sessions : ∃ body c remaining e,
    Lexeme.scan "CREATE STREAM s AS\nSELECT \"a\" FROM t\nWINDOW SESSION(5 SECONDS)GROUP BY \"a\"" =
        .ok sessions ∧
      Envelope.split (sessions.map Lexeme.token) = .ok (.create .stream "s" [], body) ∧
      extract body = .ok (some c, remaining) ∧ (c.start, c.stop) = (9, 17) ∧ ¬Holds remaining ∧
      Entry.parse 8 sessions = .ok e ∧ e.window = some (.session (.ofSeconds 5)) ∧
      e.words = [⟨"SELECT", ⟨2, 1⟩⟩, ⟨"a", ⟨2, 8⟩⟩, ⟨"FROM", ⟨2, 12⟩⟩, ⟨"t", ⟨2, 17⟩⟩,
        ⟨"GROUP", ⟨3, 26⟩⟩, ⟨"BY", ⟨3, 32⟩⟩, ⟨"a", ⟨3, 35⟩⟩] := by
  have hsplit : Envelope.split (sessions.map Lexeme.token) =
      .ok (.create .stream "s" [], (sessions.drop 7).map Lexeme.token) := rfl
  have hclause : extract ((sessions.drop 7).map Lexeme.token) = .ok
      (some ⟨.session (.ofSeconds 5), 9, 17⟩,
        ((sessions.drop 7).take 9 ++ sessions.drop 24).map Lexeme.token) := rfl
  have hsome : (Entry.parse 8 sessions).toOption.isSome = true := by decide +kernel
  cases hparse : Entry.parse 8 sessions with
  | error err =>
      rw [hparse] at hsome
      cases hsome
  | ok e =>
      obtain ⟨hfound, _, hparts⟩ := parse_around ((sessions.drop 7).map Lexeme.token)
      obtain ⟨front, located, clause, remaining, hchunk, hlocated, hclause', hwindow, _, _, hwords⟩ :=
        hparts hsplit hparse
      rw [hclause] at hclause'
      cases hclause'
      have hlength : located.length = (sessions.drop 7).length := by
        simpa using congrArg List.length hlocated
      obtain ⟨_, rfl⟩ := List.append_inj' (hchunk.symm.trans (List.take_append_drop 7 sessions).symm)
        hlength
      refine ⟨_, _, _, e, by decide +kernel, hsplit, hclause, rfl, (hfound _ _ hclause).2.2.2, rfl,
        hwindow, ?_⟩
      rw [List.left_unique_forall₂' Word.records_leftUnique hwords (records_words _)]
      rfl

end Script

end StreamSql
