/-
  What the tokens of a text look like, and what may follow them. `Formed` says what is known of a
  token by itself; `Ends` what is known of the characters after it, so that they cannot be taken for
  a part of it.

  `Alike` compares what followed a token with what follows it when the tokens after it are written
  back: the same characters up to the first one that is written in another way. That is enough for
  what a token has to know of its surroundings (`ends_of_alike`), with one exception: `!=` is written
  back as `<>`, and a `<` right before it then begins another symbol.
-/
import Mathlib.Data.Bool.AllAny
import StreamSql.Proofs.Token.Content
import StreamSql.Proofs.Token.Symbols

namespace StreamSql

namespace Scan

/-- The next character, if there is one, fails the test. -/
def Clear (p : Char → Bool) (r : List Char) : Prop :=
  ∀ c ∈ r.head?, p c = false

theorem clear_dropWhile (p : Char → Bool) (cs : List Char) : Clear p (cs.dropWhile p) :=
  head?_dropWhile

/-! ## Tokens -/

/-- An unquoted word. After `#` or `@` any character may stand unless a symbol begins there. -/
inductive WordShape : List Char → Prop
  | plain {a tail} (start : isWordStart a = true) (sharp : a ≠ '#') (at_ : a ≠ '@')
      (parts : ∀ c ∈ tail, isWordPart c = true) : WordShape (a :: tail)
  | sharp {c tail} (next : c ∉ [' ', '>', '-']) (parts : ∀ c ∈ tail, isWordPart c = true) :
      WordShape ('#' :: c :: tail)
  | at_ {c tail} (next : c ∉ [' ', '>', '?', '@']) (parts : ∀ c ∈ tail, isWordPart c = true) :
      WordShape ('@' :: c :: tail)
  | atAt {c tail} (next : c ≠ ' ') (parts : ∀ c ∈ tail, isWordPart c = true) :
      WordShape ('@' :: '@' :: c :: tail)

/-- A letter and what follows it lead in quoted text. -/
def leadsIn (a : Char) (r : List Char) : Bool :=
  match a.toUpper, r with
  | 'N', '\x27' :: _ | 'X', '\x27' :: _ | 'B', '\x27' :: _ | 'B', '\x22' :: _
  | 'R', '\x27' :: _ | 'R', '\x22' :: _ | 'E', '\x27' :: _ | 'U', '&' :: '\x27' :: _ => true
  | _, _ => false

/-- The exponent of a number. -/
inductive ExponentShape : List Char → Prop
  | mk {mark sign digits} (lead : mark = 'e' ∨ mark = 'E')
      (signed : sign = [] ∨ sign = ['+'] ∨ sign = ['-']) (some : digits ≠ [])
      (all : ∀ c ∈ digits, c.isDigit = true) :
      ExponentShape (mark :: sign ++ digits)

/-- The digits of a number: a whole part, a fraction and an exponent. -/
inductive NumberShape : List Char → Prop
  | whole {digits e} (some : digits ≠ []) (all : ∀ c ∈ digits, c.isDigit = true)
      (exponent : e = [] ∨ ExponentShape e) : NumberShape (digits ++ e)
  | fraction {digits more e} (some : digits ≠ [] ∨ more ≠ []) (all : ∀ c ∈ digits, c.isDigit = true)
      (others : ∀ c ∈ more, c.isDigit = true) (exponent : e = [] ∨ ExponentShape e) :
      NumberShape (digits ++ '.' :: more ++ e)

theorem NumberShape.head {cs : List Char} (h : NumberShape cs) :
    ∃ a r, cs = a :: r ∧ (a.isDigit = true ∨ a = '.') := by
  cases h with
  | whole hsome hall =>
      obtain ⟨a, r, rfl⟩ := List.exists_cons_of_ne_nil hsome
      exact ⟨a, _, rfl, Or.inl (hall a List.mem_cons_self)⟩
  | @fraction digits _ _ _ hall =>
      cases digits with
      | nil => exact ⟨'.', _, rfl, Or.inr rfl⟩
      | cons a digits => exact ⟨a, _, rfl, Or.inl (hall a List.mem_cons_self)⟩

/-- A character of the name of a placeholder or of a dollar quote. -/
def isTagPart (c : Char) : Bool :=
  Text.isLetter c || Text.isNumeral c || c = '_'

end Scan

open Scan

/-- What a token looks like, as far as its kind alone does not say it. -/
def Token.Formed : Token → Prop
  | .word v none => WordShape v.toList
  | .word _ (some q) => q = '\x22' ∨ q = '\x60'
  | .number d _ => NumberShape d.toList
  | .bytes q _ => q = '\x27' ∨ q = '\x22'
  | .raw q false s => (q = '\x27' ∨ q = '\x22') ∧ s.toList.head? ≠ some q
  | .raw q true s => (q = '\x27' ∨ q = '\x22') ∧ ∀ (rest : List Char) (l : Position),
      ∃ k, tripleBody q 0 (s.toList ++ [q, q, q] ++ rest) l = some (s.toList ++ [q, q], k) ∧
        k.rest = rest
  | .dollar none s => ∀ (rest : List Char) (l : Position),
      ∃ k, dollarBody false (s.toList ++ '$' :: '$' :: rest) l = .ok (s.toList, k) ∧ k.rest = rest
  | .dollar (some tag) s => tag.toList ≠ [] ∧ (∀ c ∈ tag.toList, isTagPart c = true) ∧
      ∀ rest, Tagged tag.toList (s.toList ++ '$' :: tag.toList ++ '$' :: rest) s.toList rest
  | .placeholder s => (∃ ds, s.toList = '?' :: ds ∧ ∀ c ∈ ds, Text.isNumeral c = true) ∨
      ∃ tag, s.toList = '$' :: tag ∧ ∀ c ∈ tag, isTagPart c = true
  | .char c => Text.isBlank c = false ∧ isWordStart c = false ∧ c.isDigit = false ∧
      c ∉ ['\x27', '\x22', '\x60', '$', '?'] ∧ ∀ r, symbol? (c :: r) = none
  | .gap (.lineComment s) => '\n' ∉ s.toList ∨ ∃ u, s.toList = u ++ ['\n'] ∧ '\n' ∉ u
  | .gap (.blockComment s) => ∀ (rest : List Char) (l : Position),
      ∃ k, commentBody 0 ' ' (s.toList ++ '*' :: '/' :: rest) l = .ok (s.toList ++ ['*'], k) ∧
        k.rest = rest
  | _ => True

/-- A character after the symbol makes another token of it. -/
def Symbol.grows (s : Symbol) (c : Char) : Bool :=
  goesOn s.text.toList c || (s = .minus && c = '-') || (s = .div && c = '*') ||
    (s = .period && c.isDigit)

theorem Symbol.lt_grows : Symbol.lt.grows '<' = true := by
  have hgoes : goesOn Symbol.lt.text.toList '<' = true := goesOn_text (s := .shiftLeft) rfl
  simp [grows, hgoes]

theorem Symbol.mem_of_grows {s : Symbol} {c : Char} (h : s.grows c = true) :
    c ∈ ['~', '*', '=', '>', '/', '<', '|', ':', '&', '!', '@', '-', '?'] ∨ c.isDigit = true := by
  simp only [Symbol.grows, Bool.or_eq_true, Bool.and_eq_true, decide_eq_true_eq] at h
  rcases h with ((h | h) | h) | h
  · exact Or.inl (mem_of_goesOn (toList_text_ne_nil s) h)
  · simp [h.2]
  · simp [h.2]
  · exact Or.inr h.2

theorem Symbol.eq_lt_of_grows {s : Symbol} (h : s.grows '<' = true) : s = .lt := by
  simp only [Symbol.grows, Bool.or_eq_true, Bool.and_eq_true, decide_eq_true_eq] at h
  rcases h with ((h | h) | h) | h
  · exact eq_lt_of_goesOn h
  all_goals cases h.2

/-- What may follow a token. -/
def Token.Ends : Token → List Char → Prop
  | .word v none, r => Clear isWordPart r ∧ ∀ a, v.toList = [a] → leadsIn a r = false
  | .word _ (some q), r => r.head? ≠ some q
  | .number d long, r => long = true ∨ (Clear Char.isDigit r ∧ r.head? ≠ some 'L' ∧
      ((∀ c ∈ d.toList, c ≠ 'e' ∧ c ≠ 'E') → exponent r = []) ∧
      ((∀ c ∈ d.toList, c.isDigit = true) → r.head? ≠ some '.') ∧
      (d.toList = ['0'] → r.head? ≠ some 'x'))
  | .string _, r | .national _, r | .hex _, r | .escaped _, r | .unicode _, r =>
      r.head? ≠ some '\x27'
  | .bytes q _, r => r.head? ≠ some q
  | .raw q triple _, r => triple = true ∨ r.head? ≠ some q
  | .placeholder s, r =>
      (s.toList.head? = some '?' → Clear Text.isNumeral r) ∧
      (s.toList.head? = some '$' → Clear isTagPart r ∧ r.head? ≠ some '$')
  | .symbol s, r =>
      if s = .sharp ∨ s = .atSign ∨ s = .atAt then r = [] ∨ r.head? = some ' ' else Clear s.grows r
  | .gap (.lineComment s), r => s.toList.getLast? = some '\n' ∨ r = []
  | _, _ => True

/-- Text between quotes holds no character that would be read in another way. -/
def Token.Plain : Token → Prop
  | .word v (some q) => q ∉ v.toList
  | .string s => '\x27' ∉ s.toList
  | .national s | .hex s => ∀ c ∈ s.toList, ¬IsMark c
  | .bytes q s => q ∉ s.toList
  | .raw q false s => q ∉ s.toList
  | _ => True

/-- Text that may hold codes holds none, nor a quote. -/
def Token.Uncoded : Token → Prop
  | .escaped s | .unicode s => '\x27' ∉ s.toList ∧ '\\' ∉ s.toList
  | _ => True

namespace Scan

/-! ## Text written back -/

/-- Text that is written back in another way from its first character on: as a blank or a line feed,
    between the same quotes, with the capital letter that leads in quoted text, or as `<>`. -/
inductive Turned : List Char → List Char → Prop
  | blank {c r w} (gap : Text.isBlank c = true) : Turned (c :: r) (' ' :: w)
  | line {r w} : Turned ('\x0d' :: r) ('\n' :: w)
  | quote {q r w} (mark : q ∈ ['\x27', '\x22', '\x60']) : Turned (q :: r) (q :: w)
  | lead {c r a q w} (first : c.isAlphanum = true) (letter : a ∈ ['N', 'X', 'B', 'R', 'E', 'U'])
      (mark : q ∈ ['\x27', '\x22', '&']) : Turned (c :: r) (a :: q :: w)
  | neq {r w} : Turned ('!' :: r) ('<' :: '>' :: w)

/-- The second text is the first one written back, up to a semicolon: the same characters, until
    something is written in another way. -/
inductive Alike : List Char → List Char → Prop
  | done : Alike [] []
  | stop {r} : Alike (';' :: r) []
  | same {c r w} (tail : Alike r w) : Alike (c :: r) (c :: w)
  | turned {r w} (h : Turned r w) : Alike r w

theorem Alike.append {r w : List Char} (h : Alike r w) (u : List Char) : Alike (u ++ r) (u ++ w) := by
  induction u with
  | nil => exact h
  | cons c u ih => exact .same ih

theorem Turned.append {r w : List Char} (h : Turned r w) (u : List Char) : Turned r (w ++ u) := by
  cases h with
  | blank gap => exact .blank gap
  | line => exact .line
  | quote mark => exact .quote mark
  | lead first letter mark => exact .lead first letter mark
  | neq => exact .neq

theorem Alike.cons_inv {r w : List Char} {c : Char} (h : Alike r (c :: w)) :
    (∃ r', r = c :: r' ∧ Alike r' w) ∨ Turned r (c :: w) := by
  cases h with
  | same tail => exact Or.inl ⟨_, rfl, tail⟩
  | turned h => exact Or.inr h

/-- Tests that no character passes that comes in by writing back. -/
theorem Clear.alike {p : Char → Bool} {r w : List Char} (hc : Clear p r) (h : Alike r w)
    (hgap : p ' ' = false ∧ p '\n' = false) (hlt : p '<' = true → w.head? ≠ some '<')
    (hlead : (∀ a ∈ ['N', 'X', 'B', 'R', 'E', 'U'], p a = false) ∨
      ∀ c : Char, c.isAlphanum = true → p c = true) : Clear p w := by
  intro c hw
  cases h with
  | done => cases hw
  | stop => cases hw
  | same tail =>
      cases hw
      exact hc c rfl
  | turned h =>
      cases h with
      | blank =>
          cases hw
          exact hgap.1
      | line =>
          cases hw
          exact hgap.2
      | quote =>
          cases hw
          exact hc c rfl
      | lead first letter =>
          cases hw
          rcases hlead with hlead | hlead
          · exact hlead c letter
          · have := hc _ rfl
            rw [hlead _ first] at this
            cases this
      | neq =>
          cases hw
          exact Bool.eq_false_iff.mpr fun hp => hlt hp rfl

/-- A mark that comes in by writing back was there before. -/
theorem Alike.head?_ne {r w : List Char} {q : Char} (h : Alike r w) (hr : r.head? ≠ some q)
    (hq : q ∉ [' ', '\n', '<', 'N', 'X', 'B', 'R', 'E', 'U']) : w.head? ≠ some q := by
  have hclear : Clear (q == ·) w := by
    refine Clear.alike (fun c hc => ?_) h ?_ ?_ (Or.inl ?_)
    · rw [beq_eq_false_iff_ne]
      rintro rfl
      exact hr hc
    all_goals simp_all
  intro hw
  simpa using hclear q hw

theorem Alike.nil_left {w : List Char} (h : Alike [] w) : w = [] := by
  cases h with
  | done => rfl
  | turned h => cases h

/-- A character that never comes in by writing back was there before, and what follows it is alike. -/
theorem Alike.same_inv {r w : List Char} {c : Char} (h : Alike r (c :: w))
    (hc : c ∉ [' ', '\n', '<', '\x27', '\x22', '\x60', 'N', 'X', 'B', 'R', 'E', 'U']) :
    ∃ r', r = c :: r' ∧ Alike r' w := by
  simp only [List.mem_cons, not_or] at hc
  rcases h.cons_inv with h | h
  · exact h
  · cases h with
    | quote mark => simp_all
    | lead _ letter => simp_all
    | _ => simp at hc

theorem Alike.leadsIn {r w : List Char} {a : Char} (h : Alike r w) (hr : leadsIn a r = false) :
    leadsIn a w = false := by
  have hquote : ∀ {q r w}, Alike r (q :: w) → q ∈ ['\x27', '\x22'] → ∃ r', r = q :: r' := by
    intro q r w h hq
    by_contra hne
    have hhead : r.head? ≠ some q := Scan.head?_ne fun tail heq => hne ⟨tail, heq⟩
    refine h.head?_ne hhead ?_ rfl
    simp only [List.mem_cons, List.not_mem_nil, or_false] at hq
    rcases hq with rfl | rfl <;> decide
  by_contra hw
  rw [Bool.not_eq_false] at hw
  unfold Scan.leadsIn at hw
  split at hw
  case h_8 hupper =>
    obtain ⟨r', rfl, h'⟩ := h.same_inv (by decide)
    obtain ⟨r'', rfl⟩ := hquote h' (by simp)
    simp [Scan.leadsIn, hupper] at hr
  case h_9 => cases hw
  all_goals
    rename_i hupper
    obtain ⟨r', rfl⟩ := hquote h (by simp)
    simp [Scan.leadsIn, hupper] at hr

/-- An exponent is taken as far as its digits go. -/
theorem exponent_run {e rest : List Char} (he : ExponentShape e) (hr : Clear Char.isDigit rest) :
    exponent (e ++ rest) = e := by
  obtain @⟨mark, sign, digits, hmark, hsign, hsome, hall⟩ := he
  have htake : (digits ++ rest).takeWhile Char.isDigit = digits := takeWhile_run hall hr
  have hne : digits.isEmpty = false := by simpa using hsome
  have hlead : (mark = 'e' || mark = 'E') = true := by simpa using hmark
  rcases hsign with rfl | rfl | rfl
  · obtain ⟨d, digits, rfl⟩ := List.exists_cons_of_ne_nil hsome
    have hd : (d = '+' || d = '-') = false := by
      have := hall d List.mem_cons_self
      rw [Bool.or_eq_false_iff]
      constructor <;> (rw [decide_eq_false_iff_not]; rintro rfl; cases this)
    simp only [List.cons_append] at htake ⊢
    simp [exponent, hlead, hd, htake]
  · simp [exponent, hlead, htake, hne]
  · simp [exponent, hlead, htake, hne]

theorem exponent_spec {cs : List Char} (h : exponent cs ≠ []) :
    ExponentShape (exponent cs) ∧ ∃ rest, cs = exponent cs ++ rest ∧ Clear Char.isDigit rest := by
  cases cs with
  | nil => simp [exponent] at h
  | cons mark r =>
      by_cases hlead : (mark = 'e' || mark = 'E') = true
      case neg => simp [exponent, hlead] at h
      have hshape : ∀ sign ds, (sign = [] ∨ sign = ['+'] ∨ sign = ['-']) → r = sign ++ ds →
          exponent (mark :: r) = (if (ds.takeWhile Char.isDigit).isEmpty then [] else
            mark :: sign ++ ds.takeWhile Char.isDigit) →
          ExponentShape (exponent (mark :: r)) ∧
            ∃ rest, mark :: r = exponent (mark :: r) ++ rest ∧ Clear Char.isDigit rest := by
        intro sign ds hsign hr heq
        rw [heq] at h ⊢
        by_cases hne : (ds.takeWhile Char.isDigit).isEmpty = true
        · simp [hne] at h
        · rw [if_neg hne, hr]
          refine ⟨.mk (by simpa using hlead) hsign (by simpa using hne) fun c hc =>
            List.mem_takeWhile_imp hc, ds.dropWhile Char.isDigit, ?_, clear_dropWhile _ _⟩
          simp [List.takeWhile_append_dropWhile]
      cases r with
      | nil => exact hshape [] [] (Or.inl rfl) rfl (by simp [exponent])
      | cons d r =>
          by_cases hplus : d = '+'
          · exact hshape ['+'] r (Or.inr (Or.inl rfl)) (by rw [hplus]; rfl) (by
              simp [exponent, hlead, hplus])
          · by_cases hminus : d = '-'
            · exact hshape ['-'] r (Or.inr (Or.inr rfl)) (by rw [hminus]; rfl) (by
                simp [exponent, hlead, hminus])
            · exact hshape [] (d :: r) (Or.inl rfl) rfl (by
                simp [exponent, hlead, hplus, hminus])

/-- Writing back brings in no exponent. -/
theorem exponent_alike {r w : List Char} (h : Alike r w) (hr : exponent r = []) :
    exponent w = [] := by
  by_contra hw
  obtain ⟨hshape, rest, hrest, _⟩ := exponent_spec hw
  generalize exponent w = e at hshape hrest
  obtain @⟨mark, sign, digits, hmark, hsign, hsome, hall⟩ := hshape
  obtain ⟨d, digits, rfl⟩ := List.exists_cons_of_ne_nil hsome
  have hd := hall d List.mem_cons_self
  have hdigit : d ∉ [' ', '\n', '<', '\x27', '\x22', '\x60', 'N', 'X', 'B', 'R', 'E', 'U', '&'] := by
    intro hmem
    have : ∀ c ∈ [' ', '\n', '<', '\x27', '\x22', '\x60', 'N', 'X', 'B', 'R', 'E', 'U', '&'],
        c.isDigit = false := List.all_iff_forall_prop.mp (by decide)
    rw [this d hmem] at hd
    cases hd
  subst hrest
  -- the mark, the sign and the first digit were all there before
  obtain ⟨r₁, rfl, h₁⟩ : ∃ r₁, r = mark :: r₁ ∧ Alike r₁ (sign ++ (d :: digits) ++ rest) := by
    rcases h.cons_inv with h | h
    · exact h
    · have hu : ∀ q u, sign ++ d :: digits ++ rest = q :: u → q ∉ ['\x27', '\x22', '&'] := by
        rintro q u heq hq
        rcases hsign with rfl | rfl | rfl <;> cases heq <;> simp_all
      have h : Turned r (mark :: (sign ++ d :: digits ++ rest)) := by simpa using h
      generalize sign ++ d :: digits ++ rest = u at h hu
      cases h with
      -- a letter that leads in quoted text has no sign and no digit after it
      | lead _ _ hq => exact absurd hq (hu _ _ rfl)
      | quote hq => rcases hmark with rfl | rfl <;> simp at hq
      | _ => simp at hmark
  obtain ⟨r₂, rfl, h₂⟩ : ∃ r₂, r₁ = sign ++ r₂ ∧ Alike r₂ (d :: digits ++ rest) := by
    rcases hsign with rfl | rfl | rfl
    · exact ⟨r₁, rfl, h₁⟩
    · exact h₁.same_inv (by decide)
    · exact h₁.same_inv (by decide)
  obtain ⟨r₃, rfl, _⟩ := h₂.same_inv (by simp_all)
  have hthere : ExponentShape (mark :: sign ++ d :: r₃.takeWhile Char.isDigit) := by
    refine .mk hmark hsign (by simp) fun c hc => ?_
    rcases List.mem_cons.mp hc with rfl | hc
    · exact hd
    · exact List.mem_takeWhile_imp hc
  have hrun := exponent_run hthere (clear_dropWhile Char.isDigit r₃)
  simp only [List.cons_append, List.append_assoc, List.takeWhile_append_dropWhile] at hrun hr
  rw [hr] at hrun
  cases hrun

/-- What may follow a token may also follow it after writing back. -/
theorem ends_of_alike {t : Token} {r w : List Char} (h : t.Ends r) (ht : t.Formed) (ha : Alike r w)
    (hlt : t = .symbol .lt → w.head? ≠ some '<') : t.Ends w := by
  have hquote : ∀ {q}, r.head? ≠ some q → q = '\x27' ∨ q = '\x22' ∨ q = '\x60' →
      w.head? ≠ some q := by
    intro q hr hq
    refine ha.head?_ne hr ?_
    rcases hq with rfl | rfl | rfl <;> decide
  cases t with
  | word v q =>
      cases q with
      | none =>
          refine ⟨h.1.alike ha (by decide) (fun h => absurd h (by decide)) (Or.inr fun c hc => ?_),
            fun a hv => ha.leadsIn (h.2 a hv)⟩
          simp only [Char.isAlphanum, Bool.or_eq_true] at hc
          rcases hc with hc | hc <;> simp [isWordPart, Text.isLetter, hc]
      | some q => exact hquote h (Or.inr ht)
  | number d long =>
      refine h.imp id fun ⟨hdigit, hlong, hexp, hperiod, hx⟩ => ⟨?_, ?_, ?_, ?_, ?_⟩
      · exact hdigit.alike ha (by decide) (fun h => absurd h (by decide))
          (Or.inl (List.all_iff_forall_prop.mp (by decide)))
      · exact ha.head?_ne hlong (by decide)
      · exact fun hd => exponent_alike ha (hexp hd)
      · exact fun hd => ha.head?_ne (hperiod hd) (by decide)
      · exact fun hd => ha.head?_ne (hx hd) (by decide)
  | string | national | hex | escaped | unicode => exact hquote h (Or.inl rfl)
  | bytes q s => exact hquote h (ht.imp id Or.inl)
  | raw q triple s =>
      cases triple with
      | true => exact Or.inl rfl
      | false => exact h.imp id fun h => hquote h (ht.1.imp id Or.inl)
  | dollar => trivial
  | placeholder s =>
      refine ⟨fun hs => ?_, fun hs => ⟨?_, ?_⟩⟩
      · exact (h.1 hs).alike ha (by decide) (fun h => absurd h (by decide))
          (Or.inl (List.all_iff_forall_prop.mp (by decide)))
      · refine (h.2 hs).1.alike ha (by decide) (fun h => absurd h (by decide)) (Or.inr fun c hc => ?_)
        simp only [Char.isAlphanum, Bool.or_eq_true] at hc
        rcases hc with hc | hc <;> simp [isTagPart, Text.isLetter, Text.isNumeral, hc]
      · exact ha.head?_ne (h.2 hs).2 (by decide)
  | symbol s =>
      have hspace : r = [] ∨ r.head? = some ' ' → w = [] ∨ w.head? = some ' ' := by
        rintro (rfl | hr)
        · exact Or.inl ha.nil_left
        · obtain ⟨r', rfl⟩ : ∃ r', r = ' ' :: r' := by
            cases r <;> simp_all
          cases ha with
          | same => exact Or.inr rfl
          | turned h =>
              cases h with
              | blank => exact Or.inr rfl
              | quote mark => simp at mark
              | lead first => cases first
      simp only [Token.Ends] at h ⊢
      split at h
      · rw [if_pos ‹_›]
        exact hspace h
      · rw [if_neg ‹_›]
        refine h.alike ha ?_ ?_ (Or.inl ?_)
        · constructor <;>
          · refine Bool.eq_false_iff.mpr fun hgrows => ?_
            have := Symbol.mem_of_grows hgrows
            simp at this
        · intro hgrows
          exact hlt (congrArg Token.symbol (Symbol.eq_lt_of_grows hgrows))
        · intro a ha
          have hletter : ∀ a ∈ ['N', 'X', 'B', 'R', 'E', 'U'],
              ¬(a ∈ ['~', '*', '=', '>', '/', '<', '|', ':', '&', '!', '@', '-', '?'] ∨
                a.isDigit = true) := List.all_iff_forall_prop.mp (by decide)
          exact Bool.eq_false_iff.mpr fun hgrows => hletter a ha (Symbol.mem_of_grows hgrows)
  | char => trivial
  | gap g =>
      cases g with
      | lineComment s =>
          refine h.imp id fun hr => ?_
          subst hr
          exact ha.nil_left
      | _ => trivial

end Scan

end StreamSql
