/-
  The text of a window read back. A duration that was read from a clause is a number of milliseconds
  or of seconds with at most 64 bits (`clocked_of_written`). Its text picks the unit from the
  duration, so the amount that it shows has at most 64 bits, too, whatever unit the clause was
  written in (`written_tokens`).

  The text is followed through the scanner token by token (`scans_window`); that its clause is found
  and read again is then a matter of tokens (`extract_of_tokens`).
-/
import StreamSql.Proofs.Script.Durations
import StreamSql.Proofs.Script.Rendering

namespace StreamSql

open Outcome Scan

/-! ## Durations of a clause -/

/-- A duration that an amount of at most 64 bits and a unit can give. -/
def Duration.Clocked (d : Duration) : Prop :=
  d.nanos ≠ 0 ∧ ∃ n < UInt64.size, d = .ofMillis n ∨ d = .ofSeconds n

theorem WindowClause.amount?_lt {digits : String} {n : Nat} (h : amount? digits = some n) :
    n < UInt64.size := by
  simp only [amount?, Bool.and_eq_true, decide_eq_true_eq] at h
  split at h
  · rename_i hsize
    cases h
    exact hsize.2
  · cases h

theorem Duration.clocked_of_written {d : Duration} {ts : List Token} (h : d.Written ts) :
    d.Clocked := by
  obtain ⟨hnumber, hname, hproduct, hpositive⟩ := h
  rename_i unit
  cases unit with
  | millisecond =>
      cases hproduct
      exact ⟨hpositive, _, WindowClause.amount?_lt hnumber, Or.inl rfl⟩
  | _ =>
      obtain ⟨hsize, hd⟩ := WindowClause.wholeSeconds_eq_ok.mp hproduct
      exact ⟨hpositive, _, hsize, Or.inr hd⟩

/-- The tokens of the text of a duration. -/
def Duration.tokens (d : Duration) : List Token :=
  if d.subsecond / 1000000 ≠ 0 || d.seconds = 0 then
    [.number (toString d.millis) false, .gap .space, .word "MILLISECONDS" none]
  else [.number (toString d.seconds) false, .gap .space, .word "SECONDS" none]

theorem WindowClause.withoutPlus_of_digits {digits : String}
    (h : ∀ c ∈ digits.toList, c.isDigit = true) : withoutPlus digits = digits.toList := by
  unfold withoutPlus
  split
  · rename_i cs hcs
    have hplus := h '+' (by simp [hcs])
    cases hplus
  · rfl

theorem WindowClause.amount?_toString {n : Nat} (h : n < UInt64.size) :
    amount? (toString n) = some n := by
  have hvalue : (Nat.toDigits 10 n).foldl (fun n c => 10 * n + (c.toNat - 48)) 0 = n :=
    Nat.ofDigitChars_ten_toDigits
  have hdigits : ∀ c ∈ Nat.toDigits 10 n, c.isDigit = true :=
    fun c hc => Nat.isDigit_of_mem_toDigits (by decide) (by decide) hc
  have hall : (Nat.toDigits 10 n).all Char.isDigit = true := List.all_eq_true.mpr hdigits
  have hplain : withoutPlus (toString n) = (toString n).toList :=
    withoutPlus_of_digits (by simpa using hdigits)
  have hsome : (Nat.toDigits 10 n).isEmpty = false := by
    simp [Nat.toDigits_ne_nil]
  simp only [amount?, hplain]
  simp [hvalue, hall, hsome, h]

/-- The text of a duration says how long it is. -/
theorem Duration.written_tokens {d : Duration} (h : d.Clocked) :
    d.Written (d.tokens.filter (!·.isGap)) := by
  obtain ⟨hpositive, n, hn, hd⟩ := h
  unfold tokens
  split
  · rename_i hmillis
    simp only [ne_eq, Bool.or_eq_true, decide_eq_true_eq] at hmillis
    -- A number of whole seconds is shown so only if it is zero.
    have hd : d = .ofMillis n := by
      rcases hd with rfl | rfl
      · rfl
      · simp only [subsecond, seconds, ofSeconds] at hmillis hpositive
        omega
    have hn : d.millis = n := by
      simp only [hd, millis, ofMillis]
      omega
    rw [hn]
    have hname : WindowClause.ClockUnit.ofName? (Text.upper "MILLISECONDS") = some .millisecond := by
      decide +kernel
    exact .amount (WindowClause.amount?_toString ‹_›) hname (congrArg Except.ok hd.symm) hpositive
  · rename_i hseconds
    simp only [ne_eq, Bool.or_eq_true, decide_eq_true_eq, not_or, not_not] at hseconds
    have hd : d = .ofSeconds d.seconds ∧ d.seconds < UInt64.size := by
      rcases hd with rfl | rfl <;>
        simp only [subsecond, seconds, ofMillis, ofSeconds, Duration.mk.injEq] at hseconds ⊢ <;> omega
    have hname : WindowClause.ClockUnit.ofName? (Text.upper "SECONDS") = some .second := by
      decide +kernel
    have hwhole : WindowClause.wholeSeconds d.seconds = .ok d :=
      WindowClause.wholeSeconds_eq_ok.mpr ⟨hd.2, hd.1⟩
    exact .amount (WindowClause.amount?_toString hd.2) hname hwhole hpositive

namespace Window

/-- The tokens of the text of a window, without the closing parenthesis. -/
def tokens : Window → List Token
  | .tumbling size =>
    .word "TUMBLING" none :: .gap .space :: .symbol .lParen :: .word "SIZE" none :: .gap .space ::
      size.tokens
  | .hopping size advance =>
    .word "HOPPING" none :: .gap .space :: .symbol .lParen :: .word "SIZE" none :: .gap .space ::
      (size.tokens ++ .symbol .comma :: .gap .space :: .word "ADVANCE" none :: .gap .space ::
        .word "BY" none :: .gap .space :: advance.tokens)
  | .session gap => .word "SESSION" none :: .gap .space :: .symbol .lParen :: gap.tokens

/-- The text of a window says what it is. -/
theorem written_tokens {w : Window} {ts : List Token} (h : w.Written ts) :
    w.Written (w.tokens.filter (!·.isGap)) := by
  have hword (v : String) : (Token.word v none).isWord v = true := Text.sameName_iff.mpr rfl
  have hduration {d : Duration} {ts : List Token} (h : d.Written ts) :=
    Duration.written_tokens (Duration.clocked_of_written h)
  cases h with
  | tumbling _ _ hsize => exact .tumbling (hword "TUMBLING") (hword "SIZE") (hduration hsize)
  | hopping _ _ hsize _ _ hstep hle =>
      have hwritten := Written.hopping (hword "HOPPING") (hword "SIZE") (hduration hsize)
        (hword "ADVANCE") (hword "BY") (hduration hstep) hle
      simpa [tokens, Token.isGap] using hwritten
  | session _ hgap => exact .session (hword "SESSION") (hduration hgap)

end Window

/-! ## Scanning the text -/

namespace Scan

open Script

variable {R : List Char} {ts : List Token}

theorem wordShape_of_upper {v : String} (hne : v.toList ≠ [])
    (h : v.toList.all Char.isUpper = true) : WordShape v.toList := by
  obtain ⟨a, cs, heq⟩ := List.exists_cons_of_ne_nil hne
  rw [heq, List.all_cons, Bool.and_eq_true, List.all_eq_true] at h
  have hletter {c : Char} (hc : c.isUpper = true) : Text.isLetter c = true := by
    simp [Text.isLetter, Text.isAlpha_iff.mpr (Or.inl hc)]
  rw [heq]
  refine .plain ?_ ?_ ?_ fun c hc => ?_
  · simp [isWordStart, hletter h.1]
  · rintro rfl
    exact absurd h.1 (by decide)
  · rintro rfl
    exact absurd h.1 (by decide)
  · simp [isWordPart, hletter (h.2 c hc)]

theorem scans_keyword (v : String) (hne : v.toList ≠ []) (h : v.toList.all Char.isUpper = true)
    (hrest : Scans R ts) : Scans (v.toList ++ ' ' :: R) (.word v none :: .gap .space :: ts) :=
  .cons (gives_wordSpace (wordShape_of_upper hne h) R) (.cons (gives_space R) hrest)

/-- No spelling goes on from a parenthesis or a comma. -/
theorem not_grows_mark {s : Symbol} (hs : s ∈ [.lParen, .rParen, .comma]) (c : Char) :
    s.grows c = false := by
  have hspellings : ∀ v ∈ Symbol.spellings, v.1.toList.head? ∈ [some '(', some ')', some ','] →
      v.1.toList.length = 1 := by
    decide +kernel
  have htext : ∃ a, s.text.toList = [a] ∧ some a ∈ [some '(', some ')', some ','] := by
    simp only [List.mem_cons, List.not_mem_nil, or_false] at hs
    rcases hs with rfl | rfl | rfl <;> exact ⟨_, rfl, by decide⟩
  obtain ⟨a, ha, hmem⟩ := htext
  have hgoes : Symbol.goesOn s.text.toList c = false := by
    refine Bool.eq_false_iff.mpr fun hgoes => ?_
    obtain ⟨v, hv, r, hr⟩ := Symbol.goesOn_iff.mp hgoes
    have hlength := hspellings v hv
    rw [← hr, ha] at hlength
    simpa using hlength hmem
  simp only [List.mem_cons, List.not_mem_nil, or_false] at hs
  rcases hs with rfl | rfl | rfl <;> simp [Symbol.grows, hgoes]

theorem gives_mark {s : Symbol} (hs : s ∈ [.lParen, .rParen, .comma]) (R : List Char) :
    Gives (s.text.toList ++ R) (.symbol s) R := by
  refine gives_symbol ?_
  have hclear : Clear s.grows R := fun c _ => not_grows_mark hs c
  simp only [List.mem_cons, List.not_mem_nil, or_false] at hs
  rcases hs with rfl | rfl | rfl <;> exact hclear

/-- An amount and a unit in capital letters. -/
theorem scans_amount (n : Nat) {v : String} (hlong : 1 < v.toList.length)
    (h : v.toList.all Char.isUpper = true) (hR : Clear isWordPart R) (hrest : Scans R ts) :
    Scans ((toString n).toList ++ ' ' :: (v.toList ++ R))
      (.number (toString n) false :: .gap .space :: .word v none :: ts) := by
  have hdigits : NumberShape (toString n).toList := by
    have hshape : NumberShape (Nat.toDigits 10 n ++ []) :=
      .whole Nat.toDigits_ne_nil (fun c hc => Nat.isDigit_of_mem_toDigits (by decide) (by decide) hc)
        (Or.inl rfl)
    rw [List.append_nil] at hshape
    exact Nat.toList_repr ▸ hshape
  have hends : (Token.number (toString n) false).Ends (' ' :: (v.toList ++ R)) :=
    Or.inr ⟨by simp [Clear], by simp, fun _ => rfl, by simp, by simp⟩
  have hnumber := gives_number hdigits hends
  have hword : Gives (v.toList ++ R) (.word v none) R := by
    refine gives_word (wordShape_of_upper ?_ h) hR ?_
    · rintro heq
      simp [heq] at hlong
    · rintro a heq
      simp [heq] at hlong
  exact .cons hnumber (.cons (gives_space _) (.cons hword hrest))

theorem scans_duration (d : Duration) (hR : Clear isWordPart R) (hrest : Scans R ts) :
    Scans (d.text.toList ++ R) (d.tokens ++ ts) := by
  unfold Duration.text Duration.tokens
  split
  · have hscans := scans_amount d.millis (v := "MILLISECONDS") (by decide) (by decide) hR hrest
    rw [String.toList_append, List.append_assoc]
    exact hscans
  · have hscans := scans_amount d.seconds (v := "SECONDS") (by decide) (by decide) hR hrest
    rw [String.toList_append, List.append_assoc]
    exact hscans

theorem scans_window (w : Window) :
    Scans ("WINDOW " ++ w.text).toList
      (.word "WINDOW" none :: .gap .space :: (w.tokens ++ [.symbol .rParen])) := by
  have hclose : Scans [')'] [.symbol .rParen] :=
    .cons (gives_mark (s := .rParen) (by decide) []) .nil
  have hclear {c : Char} (hc : isWordPart c = false) (R : List Char) : Clear isWordPart (c :: R) := by
    simpa [Clear] using hc
  have hlast (d : Duration) : Scans (d.text.toList ++ [')']) (d.tokens ++ [.symbol .rParen]) :=
    scans_duration d (hclear (by decide) []) hclose
  have hopen {R : List Char} {ts : List Token} (h : Scans R ts) :
      Scans ('(' :: R) (.symbol .lParen :: ts) := .cons (gives_mark (s := .lParen) (by decide) R) h
  cases w with
  | tumbling size =>
      have hsize := scans_keyword "SIZE" (by decide) (by decide) (hlast size)
      have hkind := scans_keyword "TUMBLING" (by decide) (by decide) (hopen hsize)
      have hscans := scans_keyword "WINDOW" (by decide) (by decide) hkind
      change Scans ("WINDOW " ++ ("TUMBLING (SIZE " ++ size.text ++ ")")).toList _
      simp only [String.toList_append, List.append_assoc]
      exact hscans
  | hopping size advance =>
      have hby := scans_keyword "BY" (by decide) (by decide) (hlast advance)
      have hstep := scans_keyword "ADVANCE" (by decide) (by decide) hby
      have hcomma {R : List Char} {ts : List Token} (h : Scans R ts) :
          Scans (',' :: ' ' :: R) (.symbol .comma :: .gap .space :: ts) :=
        .cons (gives_mark (s := .comma) (by decide) _) (.cons (gives_space R) h)
      have hboth := scans_duration size (hclear (by decide) _) (hcomma hstep)
      have hsize := scans_keyword "SIZE" (by decide) (by decide) hboth
      have hkind := scans_keyword "HOPPING" (by decide) (by decide) (hopen hsize)
      have hscans := scans_keyword "WINDOW" (by decide) (by decide) hkind
      change Scans ("WINDOW " ++ ("HOPPING (SIZE " ++ size.text ++ ", ADVANCE BY " ++ advance.text ++
        ")")).toList _
      simp only [Window.tokens, String.toList_append, List.append_assoc, List.cons_append]
      exact hscans
  | session gap =>
      have hkind := scans_keyword "SESSION" (by decide) (by decide) (hopen (hlast gap))
      have hscans := scans_keyword "WINDOW" (by decide) (by decide) hkind
      change Scans ("WINDOW " ++ ("SESSION (" ++ gap.text ++ ")")).toList _
      simp only [String.toList_append, List.append_assoc]
      exact hscans

end Scan

/-! ## Reading the text -/

namespace WindowClause

open Token

theorem extract_of_tokens {w : Window} {ts : List Token} (h : w.Written ts) :
    extract (.word "WINDOW" none :: .gap .space :: (w.tokens ++ [.symbol .rParen])) =
      .ok (some ⟨w, 0, w.tokens.length + 3⟩, []) := by
  have hwritten := Window.written_tokens h
  have htakes : Takes (w.tokens.filter (!·.isGap) ++ [.symbol .rParen])
      (.gap .space :: (w.tokens ++ [.symbol .rParen])) [] := by
    have hwhole := takes_front (.gap .space :: w.tokens)
      (rfl : (Token.symbol .rParen).isGap = false) []
    rw [List.filter_append] at hwhole
    exact hwhole
  have hword : (Token.word "WINDOW" none).isWord "WINDOW" = true := Text.sameName_iff.mpr rfl
  have hnone : ¬Holds ([] ++ []) := find?_eq_none.mp rfl
  obtain ⟨p, hspelled, _⟩ := Window.written_iff.mp hwritten
  refine extract_eq_some.mpr ⟨[], _, .gap .space :: (w.tokens ++ [.symbol .rParen]), [], _,
    (List.append_nil _).symm, ?_, hwritten, (List.append_nil _).symm ▸ htakes, hnone, rfl, ?_, rfl⟩
  · exact find?_eq_some.mpr ⟨hspelled.opens hword htakes, by simp⟩
  · simp

/-- **The text of a window is its clause.** The text of every window that is found in some body is
    scanned, and a clause found in it: the same window, with nothing left over. -/
theorem extract_text {body remaining : List Token} {c : WindowClause}
    (h : extract body = .ok (some c, remaining)) :
    ∃ ls, Lexeme.scan ("WINDOW " ++ c.window.text) = .ok ls ∧
      extract (ls.map Lexeme.token) = .ok (some ⟨c.window, 0, ls.length⟩, []) := by
  obtain ⟨_, _, _, _, _, _, _, hwritten, _⟩ := extract_eq_some.mp h
  obtain ⟨ls, hls, hmap⟩ := scans_window c.window _ ⟨1, 1⟩ (Nat.le_refl _)
  have hlength : ls.length = c.window.tokens.length + 3 := by
    simpa using congrArg List.length hmap
  refine ⟨ls, hls, ?_⟩
  rw [hmap, hlength]
  exact extract_of_tokens hwritten

/-- As many days as there can be, and as many milliseconds: the size is shown in seconds. -/
def longest : List Token :=
  [.word "window" none, .gap .space, .word "Hopping" none, .symbol .lParen, .word "size" none,
    .gap .space, .number "213503982334601" false, .word "days" none, .symbol .comma,
    .word "advance" none, .gap .space, .word "by" none, .gap .space,
    .number "18446744073709551615" false, .word "millisecond" none, .symbol .rParen, .word "x" none]

theorem extract_text_longest : ∃ c remaining ls, extract longest = .ok (some c, remaining) ∧
    c.window.text = "HOPPING (SIZE 18446744073709526400 SECONDS, " ++
      "ADVANCE BY 18446744073709551615 MILLISECONDS)" ∧
    Lexeme.scan ("WINDOW " ++ c.window.text) = .ok ls ∧
    extract (ls.map Lexeme.token) = .ok (some ⟨c.window, 0, ls.length⟩, []) := by
  have hclause : extract longest = .ok (some
      ⟨.hopping (.ofSeconds 18446744073709526400) (.ofMillis 18446744073709551615), 0, 16⟩,
        longest.drop 16) := rfl
  obtain ⟨ls, hls, hagain⟩ := extract_text hclause
  exact ⟨_, _, ls, hclause, by decide +kernel, hls, hagain⟩

end WindowClause

end StreamSql
