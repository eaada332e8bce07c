/-
  The durations of a window clause. A `Measure` is a number and a word for a unit; a `Phrase` is a
  clause of the right shape over such measures, whatever they say. A window is read from a phrase
  exactly if each measure fits into 64 bits and is not zero, and an advance does not exceed its size
  (`Window.written_iff`); its durations are then the products of amounts and units as they stand.

  A clause of the right shape is refused for one more reason than these and another clause in the
  body. The search for a second clause goes over the tokens that are left, put together, so a word
  WINDOW before the clause and a kind of window after it pass for one (`Meet`).
-/
import StreamSql.Proofs.Script.WindowClause

namespace StreamSql

namespace WindowClause

/-! ## Units -/

/-- The nanoseconds of a unit. -/
def ClockUnit.nanos : ClockUnit → Nat
  | .millisecond => 1000000
  | .second => 1000000000
  | .minute => 60 * 1000000000
  | .hour => 3600 * 1000000000
  | .day => 86400 * 1000000000

/-- The name of a unit in the singular. -/
def ClockUnit.name : ClockUnit → String
  | .millisecond => "MILLISECOND"
  | .second => "SECOND"
  | .minute => "MINUTE"
  | .hour => "HOUR"
  | .day => "DAY"

/-- The word names the unit: its name in any case of the letters, with any number of letters S. -/
def ClockUnit.Names (unit : ClockUnit) (word : String) : Prop :=
  ∃ n, (Text.upper word).toList = unit.name.toList ++ List.replicate n 'S'

theorem dropPlural_eq_iff {word name : String} (hname : name.toList.getLast? ≠ some 'S') :
    dropPlural word = name ↔ ∃ n, word.toList = name.toList ++ List.replicate n 'S' := by
  constructor
  · rintro rfl
    have hsplit := List.takeWhile_append_dropWhile (p := (· = 'S')) (l := word.toList.reverse)
    have hplural : word.toList.reverse.takeWhile (· = 'S') =
        List.replicate (word.toList.reverse.takeWhile (· = 'S')).length 'S' :=
      List.eq_replicate_iff.mpr ⟨rfl, fun c hc => by simpa using List.mem_takeWhile_imp hc⟩
    refine ⟨(word.toList.reverse.takeWhile (· = 'S')).length, ?_⟩
    rw [dropPlural, String.toList_ofList, ← List.reverse_replicate, ← List.reverse_append, ← hplural,
      hsplit, List.reverse_reverse]
  · rintro ⟨n, hword⟩
    have hstays : name.toList.reverse.dropWhile (· = 'S') = name.toList.reverse := by
      cases hlast : name.toList.reverse with
      | nil => rfl
      | cons c cs =>
          have hc : c ≠ 'S' := by
            rintro rfl
            rw [← List.head?_reverse, hlast] at hname
            exact hname rfl
          simp [hc]
    rw [dropPlural, hword, List.reverse_append, List.reverse_replicate, List.dropWhile_append]
    simp [hstays]

theorem ClockUnit.ofName?_eq_some {word : String} {unit : ClockUnit} :
    ofName? (Text.upper word) = some unit ↔ unit.Names word := by
  have hdrop :
      ofName? (Text.upper word) = some unit ↔ dropPlural (Text.upper word) = unit.name := by
    constructor
    · intro h
      unfold ofName? at h
      split at h <;> cases h
      all_goals assumption
    · intro h
      cases unit <;> simp [ofName?, h, name]
  rw [hdrop, dropPlural_eq_iff (by cases unit <;> decide)]
  rfl

/-- A word names one unit only. -/
theorem ClockUnit.Names.unique {u u' : ClockUnit} {word : String} (h : u.Names word)
    (h' : u'.Names word) : u = u' := by
  rw [← ofName?_eq_some] at h h'
  exact Option.some.inj (h.symm.trans h')

theorem wholeSeconds_eq_ok {n : Nat} {d : Duration} :
    wholeSeconds n = .ok d ↔ n < UInt64.size ∧ d = .ofSeconds n := by
  unfold wholeSeconds
  split <;> simp [*, eq_comm]

/-- An amount of at most 64 bits is multiplied exactly, or the product has too many seconds. -/
theorem ClockUnit.times_eq_ok {n : Nat} {unit : ClockUnit} {d : Duration} (hn : n < UInt64.size) :
    unit.times n = .ok d ↔ n * unit.nanos < UInt64.size * 1000000000 ∧ d = ⟨n * unit.nanos⟩ := by
  have hseconds (k : Nat) : wholeSeconds (n * k) = .ok d ↔
      n * (k * 1000000000) < UInt64.size * 1000000000 ∧ d = ⟨n * (k * 1000000000)⟩ := by
    rw [wholeSeconds_eq_ok, ← Nat.mul_assoc, Nat.mul_lt_mul_right (by decide)]
    rfl
  cases unit with
  | millisecond =>
      have hlt : n * 1000000 < UInt64.size * 1000000000 := by omega
      simp only [times, nanos, Except.ok.injEq, Duration.ofMillis, hlt, true_and]
      exact eq_comm
  | second => simpa [times, nanos] using hseconds 1
  | minute => exact hseconds 60
  | hour => exact hseconds 3600
  | day => exact hseconds 86400

/-! ## Measures -/

/-- A duration as a clause writes it: a number and a word that names a unit. -/
@[ext]
structure Measure where
  digits : String
  long : Bool
  word : String
  quote : Option Char
  unit : ClockUnit
  named : unit.Names word

namespace Measure

def tokens (m : Measure) : List Token :=
  [.number m.digits m.long, .word m.word m.quote]

/-- The amount is written as an integer, with a plus sign before it or without. -/
def Whole (m : Measure) : Prop :=
  withoutPlus m.digits ≠ [] ∧ ∀ c ∈ withoutPlus m.digits, c.isDigit = true

/-- The amount as it is written, of any size. -/
def amount (m : Measure) : Nat :=
  Nat.ofDigitChars 10 (withoutPlus m.digits) 0

/-- The amount times the unit. -/
def duration (m : Measure) : Duration :=
  ⟨m.amount * m.unit.nanos⟩

/-- The measure is a duration of a window: its amount is an integer of at most 64 bits and not zero,
    and so are its seconds. -/
structure Fits (m : Measure) : Prop where
  whole : m.Whole
  amount_lt : m.amount < UInt64.size
  amount_ne : m.amount ≠ 0
  nanos_lt : m.duration.nanos < UInt64.size * 1000000000

theorem amount?_eq_some {m : Measure} {n : Nat} :
    amount? m.digits = some n ↔ m.Whole ∧ m.amount < UInt64.size ∧ n = m.amount := by
  have hunfold : amount? m.digits = if ((withoutPlus m.digits).all Char.isDigit &&
      !(withoutPlus m.digits).isEmpty && m.amount < UInt64.size) = true then some m.amount
      else none := rfl
  have hall : ((withoutPlus m.digits).all Char.isDigit && !(withoutPlus m.digits).isEmpty &&
      m.amount < UInt64.size) = true ↔ m.Whole ∧ m.amount < UInt64.size := by
    simp only [Whole, Bool.and_eq_true, List.all_eq_true, decide_eq_true_eq, Bool.not_eq_true',
      List.isEmpty_eq_false_iff, and_comm]
  rw [hunfold]
  split
  · rename_i h
    obtain ⟨hwhole, hlt⟩ := hall.mp h
    simp only [Option.some.injEq, hwhole, hlt, true_and]
    exact eq_comm
  · rename_i h
    simp only [reduceCtorEq, false_iff]
    exact fun ⟨hwhole, hlt, _⟩ => h (hall.mpr ⟨hwhole, hlt⟩)

theorem nanos_pos (unit : ClockUnit) : 0 < unit.nanos := by
  cases unit <;> decide

theorem Fits.duration_pos {m : Measure} (h : m.Fits) : 0 < m.duration.nanos :=
  Nat.mul_pos (Nat.pos_iff_ne_zero.mpr h.amount_ne) (nanos_pos m.unit)

/-- The words of a measure are those of its unit, and none of them begins with a W. -/
theorem not_window {m : Measure} {t : Token} (ht : t ∈ m.tokens) : t.isWord "WINDOW" = false := by
  simp only [tokens, List.mem_cons, List.not_mem_nil, or_false] at ht
  rcases ht with rfl | rfl
  · rfl
  · refine Bool.eq_false_iff.mpr fun hword => ?_
    unfold Token.isWord at hword
    split at hword
    · rename_i v heq
      obtain ⟨rfl, _⟩ := Token.word.inj heq
      have hlower : m.word.toList.map Char.toLower = "window".toList := by
        simpa [Text.lower] using congrArg String.toList (Text.sameName_iff.mp hword)
      obtain ⟨c, cs, hcs, hc, _⟩ := List.map_eq_cons_iff.mp hlower
      have hupper : c.toUpper = 'W' := Text.toUpper_eq_iff (d := 'w').mpr hc
      obtain ⟨n, hn⟩ := m.named
      rw [Text.upper, String.toList_ofList, hcs, List.map_cons, hupper] at hn
      cases hunit : m.unit <;> simp [hunit, ClockUnit.name] at hn
    · cases hword

end Measure

end WindowClause

open WindowClause

theorem Duration.written_iff {d : Duration} {ts : List Token} :
    d.Written ts ↔ ∃ m : Measure, m.tokens = ts ∧ m.Fits ∧ d = m.duration := by
  constructor
  · rintro ⟨hnumber, hname, hproduct, hpositive⟩
    rename_i digits word long quote n unit
    let m : Measure := ⟨digits, long, word, quote, unit, ClockUnit.ofName?_eq_some.mp hname⟩
    obtain ⟨hwhole, hlt, rfl⟩ := Measure.amount?_eq_some (m := m).mp hnumber
    obtain ⟨hnanos, rfl⟩ := (ClockUnit.times_eq_ok hlt).mp hproduct
    refine ⟨m, rfl, ⟨hwhole, hlt, fun hzero => hpositive ?_, hnanos⟩, rfl⟩
    simp [hzero]
  · rintro ⟨m, rfl, hfits, rfl⟩
    exact .amount (Measure.amount?_eq_some.mpr ⟨hfits.whole, hfits.amount_lt, rfl⟩)
      (ClockUnit.ofName?_eq_some.mpr m.named)
      ((ClockUnit.times_eq_ok hfits.amount_lt).mpr ⟨hfits.nanos_lt, rfl⟩)
      (Nat.pos_iff_ne_zero.mp hfits.duration_pos)

/-! ## Phrases -/

namespace WindowClause

/-- A window as a clause of the right shape writes it. -/
inductive Phrase where
  | tumbling (size : Measure)
  | hopping (size advance : Measure)
  | session (gap : Measure)

namespace Phrase

def measures : Phrase → List Measure
  | .tumbling size => [size]
  | .hopping size advance => [size, advance]
  | .session gap => [gap]

/-- The window with each amount times its unit. -/
def window : Phrase → Window
  | .tumbling size => .tumbling size.duration
  | .hopping size advance => .hopping size.duration advance.duration
  | .session gap => .session gap.duration

/-- The advance does not exceed the size. -/
def Ordered : Phrase → Prop
  | .hopping size advance => advance.duration.nanos ≤ size.duration.nanos
  | _ => True

/-- The tokens of a phrase, without its closing parenthesis. -/
inductive Spelled : Phrase → List Token → Prop
  | tumbling {kind size : Token} {m : Measure} (named : kind.isWord "TUMBLING" = true)
      (sized : size.isWord "SIZE" = true) :
      Spelled (.tumbling m) (kind :: .symbol .lParen :: size :: m.tokens)
  | hopping {kind size advance by_ : Token} {m n : Measure} (named : kind.isWord "HOPPING" = true)
      (sized : size.isWord "SIZE" = true) (advanced : advance.isWord "ADVANCE" = true)
      (stepped : by_.isWord "BY" = true) :
      Spelled (.hopping m n)
        (kind :: .symbol .lParen :: size ::
          (m.tokens ++ .symbol .comma :: advance :: by_ :: n.tokens))
  | session {kind : Token} {m : Measure} (named : kind.isWord "SESSION" = true) :
      Spelled (.session m) (kind :: .symbol .lParen :: m.tokens)

end Phrase

end WindowClause

/-- A window is read from a phrase exactly if its measures fit and are in order. -/
theorem Window.written_iff {w : Window} {ts : List Token} : w.Written ts ↔ ∃ p : Phrase,
    p.Spelled ts ∧ (∀ m ∈ p.measures, m.Fits) ∧ p.Ordered ∧ w = p.window := by
  constructor
  · intro h
    cases h with
    | tumbling hnamed hsized hwritten =>
        obtain ⟨m, rfl, hm, rfl⟩ := Duration.written_iff.mp hwritten
        exact ⟨.tumbling m, .tumbling hnamed hsized, by simpa [Phrase.measures] using hm, trivial,
          rfl⟩
    | hopping hnamed hsized hwritten hadvanced hstepped hstep hle =>
        obtain ⟨m, rfl, hm, rfl⟩ := Duration.written_iff.mp hwritten
        obtain ⟨n, rfl, hn, rfl⟩ := Duration.written_iff.mp hstep
        exact ⟨.hopping m n, .hopping hnamed hsized hadvanced hstepped,
          by simpa [Phrase.measures] using ⟨hm, hn⟩, hle, rfl⟩
    | session hnamed hwritten =>
        obtain ⟨m, rfl, hm, rfl⟩ := Duration.written_iff.mp hwritten
        exact ⟨.session m, .session hnamed, by simpa [Phrase.measures] using hm, trivial, rfl⟩
  · rintro ⟨p, hspelled, hfits, hordered, rfl⟩
    have hmeasure {m : Measure} (hm : m ∈ p.measures) : m.duration.Written m.tokens :=
      Duration.written_iff.mpr ⟨m, rfl, hfits m hm, rfl⟩
    cases hspelled with
    | tumbling hnamed hsized => exact .tumbling hnamed hsized (hmeasure (by simp [Phrase.measures]))
    | hopping hnamed hsized hadvanced hstepped =>
        exact .hopping hnamed hsized (hmeasure (by simp [Phrase.measures])) hadvanced hstepped
          (hmeasure (by simp [Phrase.measures])) hordered
    | session hnamed => exact .session hnamed (hmeasure (by simp [Phrase.measures]))

namespace WindowClause

open Token

variable {ls r before after body remaining : List Token} {p p' : Phrase}
  {ts ts' us us' : List Token} {c : WindowClause}

/-- A measure is told by its tokens. -/
theorem Measure.ext_tokens {m n : Measure} (h : m.tokens = n.tokens) : m = n := by
  simp only [tokens, List.cons.injEq, Token.number.injEq, Token.word.injEq, and_true] at h
  obtain ⟨⟨hdigits, hlong⟩, hword, hquote⟩ := h
  exact Measure.ext hdigits hlong hword hquote (m.named.unique (hword ▸ n.named))

/-- A phrase is told by its tokens, whatever follows them. -/
theorem Phrase.Spelled.unique (h : p.Spelled ts) (h' : p'.Spelled ts')
    (heq : ts ++ us = ts' ++ us') : p = p' ∧ ts = ts' := by
  -- The first word says which of the three shapes it is, and then as many tokens belong to it.
  have hkinds {t : Token} {v w : String} (hv : t.isWord v = true) (hw : t.isWord w = true)
      (hne : Text.lower v ≠ Text.lower w) : p = p' ∧ ts = ts' :=
    absurd (Token.isWord_inj hv hw) hne
  have hmeasures {m n : Measure} {rest rest' : List Token}
      (h : m.tokens ++ rest = n.tokens ++ rest') : m = n ∧ rest = rest' := by
    obtain ⟨htokens, hrest⟩ := List.append_inj h rfl
    exact ⟨Measure.ext_tokens htokens, hrest⟩
  cases h with
  | tumbling hnamed _ =>
      cases h' with
      | tumbling _ _ =>
          simp only [List.cons_append, List.cons.injEq, true_and] at heq
          obtain ⟨rfl, rfl, heq⟩ := heq
          obtain ⟨rfl, _⟩ := hmeasures heq
          exact ⟨rfl, rfl⟩
      | hopping hnamed' _ _ _ | session hnamed' =>
          obtain ⟨rfl, _⟩ := List.cons.inj heq
          exact hkinds hnamed hnamed' (by decide)
  | hopping hnamed _ _ _ =>
      cases h' with
      | hopping _ _ _ _ =>
          simp only [List.cons_append, List.cons.injEq, true_and, List.append_assoc] at heq
          obtain ⟨rfl, rfl, heq⟩ := heq
          obtain ⟨rfl, hrest⟩ := hmeasures heq
          simp only [List.cons.injEq, true_and] at hrest
          obtain ⟨rfl, rfl, hrest⟩ := hrest
          obtain ⟨rfl, _⟩ := hmeasures hrest
          exact ⟨rfl, rfl⟩
      | tumbling hnamed' _ | session hnamed' =>
          obtain ⟨rfl, _⟩ := List.cons.inj heq
          exact hkinds hnamed hnamed' (by decide)
  | session hnamed =>
      cases h' with
      | session _ =>
          simp only [List.cons_append, List.cons.injEq, true_and] at heq
          obtain ⟨rfl, heq⟩ := heq
          obtain ⟨rfl, _⟩ := hmeasures heq
          exact ⟨rfl, rfl⟩
      | tumbling hnamed' _ | hopping hnamed' _ _ _ =>
          obtain ⟨rfl, _⟩ := List.cons.inj heq
          exact hkinds hnamed hnamed' (by decide)

/-- The word WINDOW does not occur in a phrase. -/
theorem Phrase.Spelled.not_window (h : p.Spelled ts) {t : Token} (ht : t ∈ ts) :
    t.isWord "WINDOW" = false := by
  have hother {t : Token} {w : String} (hw : t.isWord w = true)
      (hne : Text.lower w ≠ Text.lower "WINDOW") : t.isWord "WINDOW" = false :=
    Bool.eq_false_iff.mpr fun hwindow => hne (Token.isWord_inj hw hwindow)
  cases h with
  | tumbling hnamed hsized =>
      simp only [List.mem_cons] at ht
      rcases ht with rfl | rfl | rfl | ht
      · exact hother hnamed (by decide)
      · rfl
      · exact hother hsized (by decide)
      · exact Measure.not_window ht
  | hopping hnamed hsized hadvanced hstepped =>
      simp only [List.mem_cons, List.mem_append] at ht
      rcases ht with rfl | rfl | rfl | ht | rfl | rfl | rfl | ht
      · exact hother hnamed (by decide)
      · rfl
      · exact hother hsized (by decide)
      · exact Measure.not_window ht
      · rfl
      · exact hother hadvanced (by decide)
      · exact hother hstepped (by decide)
      · exact Measure.not_window ht
  | session hnamed =>
      simp only [List.mem_cons] at ht
      rcases ht with rfl | rfl | ht
      · exact hother hnamed (by decide)
      · rfl
      · exact Measure.not_window ht

/-! ## Places of clauses -/

/-- The clause is the phrase, from the word WINDOW to the closing parenthesis. -/
def Phrase.Fills (p : Phrase) (clause : List Token) : Prop :=
  ∃ first inner, clause = first :: (inner ++ [.symbol .rParen]) ∧ first.isWord "WINDOW" = true ∧
    p.Spelled (inner.filter (!·.isGap))

theorem Phrase.fills_iff {t : Token} {taken : List Token} (after : List Token) :
    p.Fills (t :: taken) ↔ t.isWord "WINDOW" = true ∧
      ∃ ts, p.Spelled ts ∧ Takes (ts ++ [.symbol .rParen]) (taken ++ after) after := by
  constructor
  · rintro ⟨first, inner, heq, hfirst, hspelled⟩
    cases heq
    have htakes := takes_front inner (rfl : (Token.symbol .rParen).isGap = false) after
    rw [List.filter_append] at htakes
    refine ⟨hfirst, _, hspelled, ?_⟩
    simpa [isGap] using htakes
  · rintro ⟨ht, ts, hspelled, htakes⟩
    obtain ⟨front, last, heq, hgap, hfilter⟩ := (takes_iff (by simp)).mp htakes
    have htaken : taken = front ++ [last] := List.append_cancel_right (by simpa using heq)
    have hend : front.filter (!·.isGap) ++ [last] = ts ++ [.symbol .rParen] := by
      simpa [hgap] using hfilter
    obtain ⟨hinner, hlast⟩ := List.append_inj' hend rfl
    exact ⟨t, front, by rw [htaken, hlast], ht, hinner ▸ hspelled⟩

/-- Where the tokens of two clauses begin in the same place, they are the same clause. -/
theorem Phrase.Fills.unique {clause clause' after' : List Token} (h : p.Fills clause)
    (h' : p'.Fills clause') (heq : clause ++ after = clause' ++ after') :
    p = p' ∧ clause = clause' ∧ after = after' := by
  obtain ⟨t, inner, rfl, _⟩ := id h
  obtain ⟨t', inner', rfl, _⟩ := id h'
  obtain ⟨_, ts, hspelled, htakes⟩ := (fills_iff after).mp h
  obtain ⟨_, ts', hspelled', htakes'⟩ := (fills_iff after').mp h'
  rw [List.cons_append, List.cons_append] at heq
  obtain ⟨rfl, hrest⟩ := List.cons.inj heq
  rw [← hrest] at htakes'
  have htokens := htakes.filter.symm.trans htakes'.filter
  rw [List.append_assoc, List.append_assoc] at htokens
  obtain ⟨rfl, rfl⟩ := hspelled.unique hspelled' htokens
  obtain rfl := htakes.rest_unique htakes'
  exact ⟨rfl, by rw [List.append_cancel_right hrest], rfl⟩

theorem Phrase.Fills.not_window {t : Token} {taken : List Token} (h : p.Fills (t :: taken))
    {x : Token} (hx : x ∈ taken) : x.isWord "WINDOW" = false := by
  obtain ⟨first, inner, heq, _, hspelled⟩ := h
  cases heq
  rcases List.mem_append.mp hx with hx | hx
  · cases hgap : x.isGap with
    | true =>
        refine Bool.eq_false_iff.mpr fun hword => ?_
        rw [isGap_of_isWord hword] at hgap
        cases hgap
    | false => exact hspelled.not_window (List.mem_filter.mpr ⟨hx, by simp [hgap]⟩)
  · rw [List.mem_singleton.mp hx]
    rfl

/-- The word WINDOW begins a clause where a phrase follows. -/
theorem Phrase.Spelled.opens {t : Token} (h : p.Spelled ts) (ht : t.isWord "WINDOW" = true)
    (htakes : Takes (ts ++ us) ls r) : Opens (t :: ls) := by
  have hkind : ∃ kind ts', ts = kind :: ts' ∧ ∃ k ∈ kinds, kind.isWord k = true := by
    cases h with
    | tumbling hnamed => exact ⟨_, _, rfl, _, by decide, hnamed⟩
    | hopping hnamed => exact ⟨_, _, rfl, _, by decide, hnamed⟩
    | session hnamed => exact ⟨_, _, rfl, _, by decide, hnamed⟩
  obtain ⟨kind, ts', rfl, hkind⟩ := hkind
  obtain ⟨m, htake, _⟩ := htakes
  exact ⟨t, ls, rfl, ht, kind, m, htake, hkind⟩

theorem opens_of_fills {clause : List Token} (h : p.Fills clause) (after : List Token) :
    Opens (clause ++ after) := by
  obtain ⟨t, inner, rfl, _⟩ := id h
  obtain ⟨ht, ts, hspelled, htakes⟩ := (Phrase.fills_iff after).mp h
  exact hspelled.opens ht htakes

instance : DecidablePred Opens
  | [] => isFalse fun ⟨_, _, h, _⟩ => by cases h
  | _ :: _ => decidable_of_iff _ opens_cons.symm

theorem holds_iff : Holds ls ↔ ∃ i, Opens (ls.drop i) := by
  constructor
  · rintro ⟨before, found, rfl, hopens⟩
    exact ⟨before.length, by simpa using hopens⟩
  · rintro ⟨i, hopens⟩
    exact ⟨ls.take i, ls.drop i, (List.take_append_drop i ls).symm, hopens⟩

/-- The word WINDOW comes last before a clause, and a kind of window first after it. -/
def Meet (before after : List Token) : Prop :=
  ∃ others w gaps, before = others ++ w :: gaps ∧ w.isWord "WINDOW" = true ∧
    (∀ g ∈ gaps, g.isGap = true) ∧
    ∃ kind m, take? after = some (kind, m) ∧ ∃ k ∈ kinds, kind.isWord k = true

/-- Tokens that are put together hold a clause where the first ones, the last ones, or the two
    together do. -/
theorem holds_append : Holds (before ++ after) ↔
    (∃ i < before.length, ∀ rest, Opens (before.drop i ++ rest)) ∨ Meet before after ∨
      Holds after := by
  induction before with
  | nil =>
      have hmeet : ¬Meet [] after := by
        rintro ⟨others, w, gaps, heq, _⟩
        simp at heq
      simp [hmeet]
  | cons l before ih =>
      rw [List.cons_append, holds_cons, ih]
      constructor
      · rintro (⟨_, _, heq, hl, kind, m, htake, hkind⟩ | ⟨i, hi, hopens⟩ | hmeet | hholds)
        · cases heq
          cases hbefore : take? before with
          | some q =>
              obtain ⟨t, m'⟩ := q
              rw [take?_append hbefore] at htake
              cases htake
              exact Or.inl ⟨0, by simp, fun rest =>
                ⟨l, before ++ rest, rfl, hl, kind, _, take?_append hbefore, hkind⟩⟩
          | none =>
              have hgaps := take?_eq_none.mp hbefore
              rw [take?_append_of_gaps hgaps] at htake
              exact Or.inr (Or.inl ⟨[], l, before, rfl, hl, hgaps, kind, m, htake, hkind⟩)
        · exact Or.inl ⟨i + 1, by simpa using hi, hopens⟩
        · obtain ⟨others, w, gaps, rfl, hmeet⟩ := hmeet
          exact Or.inr (Or.inl ⟨l :: others, w, gaps, rfl, hmeet⟩)
        · exact Or.inr (Or.inr hholds)
      · rintro (⟨i, hi, hopens⟩ | ⟨others, w, gaps, heq, hw, hgaps, kind, m, htake, hkind⟩ | hholds)
        · cases i with
          | zero => exact Or.inl (hopens after)
          | succ i => exact Or.inr (Or.inl ⟨i, by simpa using hi, hopens⟩)
        · cases others with
          | nil =>
              cases heq
              exact Or.inl ⟨l, before ++ after, rfl, hw, kind, m,
                (take?_append_of_gaps hgaps).trans htake, hkind⟩
          | cons a others =>
              cases heq
              exact Or.inr (Or.inr (Or.inl
                ⟨others, w, gaps, rfl, hw, hgaps, kind, m, htake, hkind⟩))
        · exact Or.inr (Or.inr (Or.inr hholds))

/-! ## Which clauses are taken -/

/-- A window is taken out of a body exactly if the first clause is a phrase whose measures fit and
    are in order, and the tokens around it hold no clause. -/
theorem extract_eq_phrase : extract body = .ok (some c, remaining) ↔
    ∃ (p : Phrase) (before clause after : List Token), body = before ++ (clause ++ after) ∧
      p.Fills clause ∧ c = ⟨p.window, before.length, before.length + clause.length⟩ ∧
      remaining = before ++ after ∧ (∀ m ∈ p.measures, m.Fits) ∧ p.Ordered ∧
      (∀ i < before.length, ¬Opens (body.drop i)) ∧ ¬Holds remaining := by
  rw [extract_eq_some]
  constructor
  · rintro ⟨before, t, taken, after, ts, hbody, hfind, hwritten, htakes, hholds, hstart, hstop, rfl⟩
    obtain ⟨⟨_, _, heq, ht, _⟩, hfirst⟩ := find?_eq_some.mp hfind
    rw [hbody, List.drop_left] at heq
    cases heq
    obtain ⟨p, hspelled, hfits, hordered, hwindow⟩ := Window.written_iff.mp hwritten
    have hfills : p.Fills (t :: taken) := (Phrase.fills_iff after).mpr ⟨ht, ts, hspelled, htakes⟩
    refine ⟨p, before, t :: taken, after, hbody, hfills, ?_, rfl, hfits, hordered, hfirst, hholds⟩
    rw [List.length_cons, ← hwindow, ← hstop, ← hstart]
  · rintro ⟨p, before, clause, after, hbody, hfills, rfl, rfl, hfits, hordered, hfirst, hholds⟩
    have hopens := opens_of_fills hfills after
    obtain ⟨t, inner, rfl, _⟩ := id hfills
    obtain ⟨_, ts, hspelled, htakes⟩ := (Phrase.fills_iff after).mp hfills
    have hfind : find? body = some before.length :=
      find?_eq_some.mpr ⟨by rwa [hbody, List.drop_left], hfirst⟩
    have hwritten := Window.written_iff.mpr ⟨p, hspelled, hfits, hordered, rfl⟩
    exact ⟨before, t, _, after, ts, hbody, hfind, hwritten, htakes, hholds, rfl, rfl, rfl⟩

/-- A body from which a window is taken has no other clause. -/
theorem opens_unique (h : extract body = .ok (some c, remaining)) {i : Nat}
    (hi : Opens (body.drop i)) : i = c.start := by
  obtain ⟨p, before, clause, after, hbody, hfills, rfl, rfl, _, _, hfirst, hholds⟩ :=
    extract_eq_phrase.mp h
  rcases Nat.lt_trichotomy i before.length with hlt | heq | hgt
  · exact absurd hi (hfirst i hlt)
  · exact heq
  · -- The clause goes on without a second word WINDOW, so a later one would stand after it.
    obtain ⟨t, inner, rfl, _⟩ := id hfills
    obtain ⟨j, rfl⟩ := Nat.exists_eq_add_of_lt hgt
    have hdrop : body.drop (before.length + j + 1) =
        ((inner ++ [Token.symbol .rParen]) ++ after).drop j := by
      rw [hbody, Nat.add_assoc, List.drop_append]
      simp
    rw [hdrop] at hi
    rcases Nat.lt_or_ge j (inner ++ [Token.symbol .rParen]).length with hlt | hge
    · obtain ⟨x, r, hx, hword, _⟩ := hi
      rw [List.drop_append_of_le_length hlt.le, List.drop_eq_getElem_cons hlt,
        List.cons_append] at hx
      cases hx
      rw [hfills.not_window (List.getElem_mem hlt)] at hword
      cases hword
    · rw [List.drop_append, List.drop_eq_nil_of_le hge, List.nil_append] at hi
      exact absurd (holds_append.mpr (Or.inr (Or.inr (holds_iff.mpr ⟨_, hi⟩)))) hholds

/-- A phrase is taken exactly if its measures fit and are in order, no other clause begins in the
    body, and the tokens before and after do not meet in one. -/
theorem extract_iff_phrase {clause : List Token} (hbody : body = before ++ (clause ++ after))
    (hfills : p.Fills clause) :
    extract body = .ok (some ⟨p.window, before.length, before.length + clause.length⟩,
        before ++ after) ↔
      (∀ m ∈ p.measures, m.Fits) ∧ p.Ordered ∧ (∀ i, Opens (body.drop i) → i = before.length) ∧
        ¬Meet before after := by
  constructor
  · intro h
    obtain ⟨p', before', clause', after', hbody', hfills', hc, _, hfits, hordered, _, hholds⟩ :=
      extract_eq_phrase.mp h
    obtain ⟨rfl, hrest⟩ := List.append_inj (hbody.symm.trans hbody') (WindowClause.mk.inj hc).2.1
    obtain ⟨rfl, _⟩ := hfills.unique hfills' hrest
    exact ⟨hfits, hordered, fun i hi => opens_unique h hi,
      fun hmeet => hholds (holds_append.mpr (Or.inr (Or.inl hmeet)))⟩
  · rintro ⟨hfits, hordered, hopens, hmeet⟩
    refine extract_eq_phrase.mpr ⟨p, before, clause, after, hbody, hfills, rfl, rfl, hfits, hordered,
      fun i hi hi' => absurd (hopens i hi') hi.ne, ?_⟩
    rw [holds_append]
    rintro (⟨i, hi, hopen⟩ | hboth | hafter)
    · have hdrop : body.drop i = before.drop i ++ (clause ++ after) := by
        rw [hbody, List.drop_append_of_le_length (le_of_lt hi)]
      exact absurd (hopens i (hdrop ▸ hopen _)) (Nat.ne_of_lt hi)
    · exact hmeet hboth
    · obtain ⟨i, hi⟩ := holds_iff.mp hafter
      have hdrop : body.drop (before.length + clause.length + i) = after.drop i := by
        rw [hbody, ← List.append_assoc, ← List.length_append, List.drop_append]
        simp
      obtain ⟨_, inner, rfl, _⟩ := hfills
      have hplace := hopens _ (hdrop ▸ hi)
      simp only [List.length_cons] at hplace
      omega

/-- What is taken out of a body with a phrase is that phrase. -/
theorem extract_eq_of_fills {clause : List Token} (hbody : body = before ++ (clause ++ after))
    (hfills : p.Fills clause) (h : extract body = .ok (some c, remaining)) :
    c = ⟨p.window, before.length, before.length + clause.length⟩ ∧ remaining = before ++ after := by
  have hopens : Opens (body.drop before.length) := by
    rw [hbody, List.drop_left]
    exact opens_of_fills hfills after
  have hplace := opens_unique h hopens
  obtain ⟨p', before', clause', after', hbody', hfills', rfl, rfl, _⟩ := extract_eq_phrase.mp h
  obtain ⟨rfl, hrest⟩ := List.append_inj (hbody.symm.trans hbody') hplace
  obtain ⟨rfl, rfl, rfl⟩ := hfills.unique hfills' hrest
  exact ⟨rfl, rfl⟩

theorem Measure.not_fits_iff {m : Measure} : ¬m.Fits ↔ ¬m.Whole ∨ UInt64.size ≤ m.amount ∨
    m.amount = 0 ∨ UInt64.size * 1000000000 ≤ m.duration.nanos := by
  constructor
  · intro h
    by_contra hnot
    simp only [not_or, not_not, Nat.not_le] at hnot
    exact h ⟨hnot.1, hnot.2.1, hnot.2.2.1, hnot.2.2.2⟩
  · rintro (h | h | h | h) hfits
    · exact h hfits.whole
    · exact absurd hfits.amount_lt (Nat.not_lt.mpr h)
    · exact hfits.amount_ne h
    · exact absurd hfits.nanos_lt (Nat.not_lt.mpr h)

/-- **Durations are exact, and a clause is refused for its durations, for a second clause, or for
    what stands around it.** A window that is taken out of a body is written there as a phrase; its
    durations are the amounts times the units, none is zero, and an advance does not exceed its
    size. A phrase in a body is taken as this window or it is an error. It is an error exactly if an
    amount is no whole number that 64 bits hold, is zero or makes a number of seconds that they do
    not hold, if the advance exceeds the size, if another clause begins in the body, or if the word
    WINDOW before the phrase and a kind of window after it meet. -/
theorem extract_durations (body : List Token) :
    (∀ c remaining, extract body = .ok (some c, remaining) →
      ∃ (p : Phrase) (before clause after : List Token), body = before ++ (clause ++ after) ∧
        p.Fills clause ∧ c = ⟨p.window, before.length, before.length + clause.length⟩ ∧
        remaining = before ++ after ∧ p.Ordered ∧
        ∀ m ∈ p.measures, m.Fits ∧ 0 < m.duration.nanos) ∧
    ∀ (p : Phrase) (before clause after : List Token), body = before ++ (clause ++ after) →
      p.Fills clause →
      (extract body = .ok (some ⟨p.window, before.length, before.length + clause.length⟩,
          before ++ after) ∨
        ∃ fault, extract body = .error fault) ∧
      ((∃ fault, extract body = .error fault) ↔
        (∃ m ∈ p.measures, ¬m.Whole ∨ UInt64.size ≤ m.amount ∨ m.amount = 0 ∨
          UInt64.size * 1000000000 ≤ m.duration.nanos) ∨
        ¬p.Ordered ∨ (∃ i, i ≠ before.length ∧ Opens (body.drop i)) ∨ Meet before after) := by
  refine ⟨fun c remaining hc => ?_, fun p before clause after hbody hfills => ?_⟩
  · obtain ⟨p, before, clause, after, hbody, hfills, rfl, rfl, hfits, hordered, _⟩ :=
      extract_eq_phrase.mp hc
    exact ⟨p, before, clause, after, hbody, hfills, rfl, rfl, hordered,
      fun m hm => ⟨hfits m hm, (hfits m hm).duration_pos⟩⟩
  · have htaken := extract_iff_phrase hbody hfills
    have hone : extract body = .ok (some ⟨p.window, before.length, before.length + clause.length⟩,
        before ++ after) ∨ ∃ fault, extract body = .error fault := by
      cases hextract : extract body with
      | error fault => exact Or.inr ⟨fault, rfl⟩
      | ok o =>
          obtain ⟨found, remaining⟩ := o
          cases found with
          | none =>
              have hopens := opens_of_fills hfills after
              exact absurd ⟨before, _, hbody, hopens⟩ (extract_eq_none.mp hextract).2
          | some c =>
              obtain ⟨rfl, rfl⟩ := extract_eq_of_fills hbody hfills hextract
              exact Or.inl rfl
    have herror : (∃ fault, extract body = .error fault) ↔
        ¬extract body = .ok (some ⟨p.window, before.length, before.length + clause.length⟩,
          before ++ after) := by
      constructor
      · rintro ⟨fault, hfault⟩ hok
        rw [hfault] at hok
        cases hok
      · exact hone.resolve_left
    refine ⟨hone, ?_⟩
    rw [herror, htaken]
    simp only [← Measure.not_fits_iff]
    constructor
    · intro hnot
      by_contra hother
      simp only [not_or, not_exists, not_and, not_not] at hother
      obtain ⟨hfits, hordered, hopens, hmeet⟩ := hother
      exact hnot ⟨hfits, hordered, fun i hi => by_contra fun hne => hopens i hne hi, hmeet⟩
    · rintro (⟨m, hm, hfits⟩ | hordered | ⟨i, hne, hi⟩ | hmeet) ⟨hfits', hordered', hopens', hmeet'⟩
      · exact hfits (hfits' m hm)
      · exact hordered hordered'
      · exact hne (hopens' i hi)
      · exact hmeet' hmeet

/-- A number of days as the size of a window. -/
def days (digits : String) : Phrase :=
  .tumbling ⟨digits, false, "Days", none, .day, 1, by decide⟩

/-- `SELECT window tumbling(size <digits>/**/Days)` -/
def daysBody (digits : String) : List Token :=
  [.word "SELECT" none, .gap .space, .word "window" none, .gap .space, .word "tumbling" none,
    .symbol .lParen, .word "size" none, .gap .space, .number digits false, .gap (.blockComment ""),
    .word "Days" none, .symbol .rParen]

theorem extract_durations_days :
    (∃ c before after clause p, extract (daysBody "213503982334601") = .ok (some c, before ++ after) ∧
      c.window = .tumbling (.ofSeconds 18446744073709526400) ∧ Phrase.Fills p clause ∧
      c.window = p.window ∧ ∀ m ∈ p.measures, m.Fits ∧ 0 < m.duration.nanos) ∧
    ∃ fault, extract (daysBody "213503982334602") = .error fault := by
  have htaken : extract (daysBody "213503982334601") = .ok
      (some ⟨.tumbling (.ofSeconds 18446744073709526400), 2, 12⟩,
        (daysBody "213503982334601").take 2) := rfl
  have hfills : (days "213503982334602").Fills ((daysBody "213503982334602").drop 2) :=
    ⟨_, ((daysBody "213503982334602").drop 3).take 8, rfl, by decide,
      .tumbling (by decide) (by decide)⟩
  obtain ⟨hexact, _⟩ := extract_durations (daysBody "213503982334601")
  obtain ⟨_, hrefused⟩ := extract_durations (daysBody "213503982334602")
  obtain ⟨p, before, clause, after, _, hp, hwindow, hrest, _, hmeasures⟩ := hexact _ _ htaken
  refine ⟨⟨_, before, after, clause, p, hrest ▸ htaken, rfl, hp, (WindowClause.mk.inj hwindow).1,
    hmeasures⟩, ?_⟩
  refine (hrefused _ ((daysBody "213503982334602").take 2) _ [] rfl hfills).2.mpr (Or.inl ?_)
  exact ⟨_, List.mem_singleton.mpr rfl, Or.inr (Or.inr (Or.inr (by decide +kernel)))⟩

/-- `SELECT COUNT(*) FROM window WINDOW TUMBLING (SIZE 1 SECOND) session` -/
def aliased : List Token :=
  [.word "SELECT" none, .gap .space, .word "COUNT" none, .symbol .lParen, .symbol .mul,
    .symbol .rParen, .gap .space, .word "FROM" none, .gap .space, .word "window" none, .gap .space,
    .word "WINDOW" none, .gap .space, .word "TUMBLING" none, .gap .space, .symbol .lParen,
    .word "SIZE" none, .gap .space, .number "1" false, .gap .space, .word "SECOND" none,
    .symbol .rParen, .gap .space, .word "session" none]

/-- **The only clause of a body can be refused as its second one.** -/
theorem exists_only_clause_refused : ∃ (p : Phrase) (before clause after : List Token),
    (Lexeme.scan "SELECT COUNT(*) FROM window WINDOW TUMBLING (SIZE 1 SECOND) session").map
        (List.map Lexeme.token) = .ok (before ++ (clause ++ after)) ∧
      p.Fills clause ∧ (∀ m ∈ p.measures, m.Fits) ∧ p.Ordered ∧
      (∀ i, Opens ((before ++ (clause ++ after)).drop i) → i = before.length) ∧
      extract (before ++ (clause ++ after)) = .error .secondWindow := by
  let second : Measure := ⟨"1", false, "SECOND", none, .second, 0, by decide⟩
  have hfits : second.Fits :=
    ⟨⟨by decide, List.all_eq_true.mp (by decide)⟩, by decide, by decide, by decide⟩
  refine ⟨.tumbling second, aliased.take 11, (aliased.drop 11).take 11, aliased.drop 22, ?_, ?_, ?_,
    trivial, ?_, rfl⟩
  · decide +kernel
  · exact ⟨_, (aliased.drop 12).take 9, rfl, by decide, .tumbling (by decide) (by decide)⟩
  · simpa [Phrase.measures] using hfits
  · have hplaces : ∀ i < 24, Opens (aliased.drop i) → i = 11 := by decide
    intro i hi
    by_cases hlt : i < 24
    · exact hplaces i hlt hi
    · have hnil : aliased.drop i = [] := List.drop_eq_nil_of_le (Nat.le_of_not_lt hlt)
      obtain ⟨_, _, heq, _⟩ := hi
      cases hnil.symm.trans heq

end WindowClause

end StreamSql
