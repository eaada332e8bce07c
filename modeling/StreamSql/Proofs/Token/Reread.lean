/-
  Tokens that are written back and read again. A formed token is read off its own text if what
  follows does not belong to it and nothing in it is read in another way: no quote that was doubled
  and is written back once, no backslash where that counts (`Plain`, `Uncoded`). Text between quotes
  that is read as it stands holds none of these, either.
-/
import StreamSql.Proofs.Token.Step

namespace StreamSql

open Scan

namespace Scan

/-! ## Which token begins -/

theorem isLetter_of_isDigit {c : Char} (h : c.isDigit = true) : Text.isLetter c = false := by
  simp only [Char.isDigit, Bool.and_eq_true, decide_eq_true_eq, ge_iff_le,
    UInt32.le_iff_toNat_le] at h
  have hlast : c.toNat ≤ 57 := h.2
  have halpha : c.isAlpha = false := by
    rw [← Bool.not_eq_true, Text.isAlpha_iff, Text.isUpper_iff, Text.isLower_iff]
    omega
  have hascii : ¬128 ≤ c.toNat := by omega
  simp [Text.isLetter, halpha, hascii]

theorem token_lettered {a : Char} (hstart : isWordStart a = true) (hsharp : a ≠ '#') (hat : a ≠ '@')
    (r : List Char) (l : Position) : token a r l = token.lettered a r ⟨a :: r, l⟩ := by
  unfold token
  split
  case h_11 =>
    have hquote : ¬(decide (a = '\x22') || decide (a = '\x60')) = true := by
      simp only [Bool.or_eq_true, decide_eq_true_eq]
      rintro (rfl | rfl) <;> cases hstart
    have hdigit : ¬(a.isDigit || decide (a = '.')) = true := by
      simp only [Bool.or_eq_true, decide_eq_true_eq]
      rintro (hd | rfl)
      · have hletter := isLetter_of_isDigit hd
        simp only [isWordStart, hletter, Bool.or_eq_true, decide_eq_true_eq, hsharp, hat] at hstart
        simp at hstart
        subst hstart
        cases hd
      · cases hstart
    rw [if_neg hquote, if_neg hdigit, if_neg (by simp [hsharp, hat]), if_pos hstart]
  all_goals cases hstart

theorem token_number {a : Char} (h : a.isDigit = true ∨ a = '.') (r : List Char) (l : Position) :
    token a r l = .ok (number ⟨a :: r, l⟩) := by
  unfold token
  split
  case h_11 =>
    have hquote : ¬(decide (a = '\x22') || decide (a = '\x60')) = true := by
      simp only [Bool.or_eq_true, decide_eq_true_eq]
      rintro (rfl | rfl) <;> simp at h
    rw [if_neg hquote, if_pos (by simpa using h)]
  all_goals simp at h

theorem token_symbol {a : Char} {r : List Char} {l : Position}
    (hother : a ∉ [' ', '\t', '\n', '\x0d', '\x27', '$', '?', '\x22', '\x60', '.', '#', '@'])
    (hdigit : a.isDigit = false) (hstart : isWordStart a = false)
    (hminus : ∀ r', a :: r ≠ '-' :: '-' :: r') (hdiv : ∀ r', a :: r ≠ '/' :: '*' :: r') :
    (∀ s n, symbol? (a :: r) = some (s, n) →
      token a r l = .ok (.symbol s, (Cursor.mk (a :: r) l).skip n)) ∧
    (symbol? (a :: r) = none → token a r l =
      .ok (if Text.isBlank a then .gap .space else .char a, (Cursor.mk (a :: r) l).skip 1)) := by
  unfold token
  split
  case h_7 => exact absurd rfl (hminus _)
  case h_8 => exact absurd rfl (hdiv _)
  case h_11 =>
    simp only [List.mem_cons, not_or] at hother
    constructor
    · intro s n hs
      simp [hother, hdigit, hstart, hs]
    · intro hs
      simp [hother, hdigit, hstart, hs]
  all_goals simp at hother

/-- The token is read off the front of the text, wherever that stands, with the rest left over. -/
def Gives (cs : List Char) (t : Token) (rest : List Char) : Prop :=
  ∀ l, ∃ a r k, cs = a :: r ∧ token a r l = .ok (t, k) ∧ k.rest = rest

variable {R : List Char}

/-! ## Words -/

theorem word_run {w tail : List Char} (htail : ∀ c ∈ tail, isWordPart c = true)
    (hR : Clear isWordPart R) (l : Position) :
    ∃ k, word w.length ⟨w ++ (tail ++ R), l⟩ = (.word (String.ofList (w ++ tail)) none, k) ∧
      k.rest = R := by
  simp [word, Cursor.span, takeWhile_run htail hR, dropWhile_run htail hR]

theorem leadsIn_of_wordPart {a c : Char} (hc : isWordPart c = true) (r : List Char) :
    leadsIn a (c :: r) = false := by
  unfold leadsIn
  split
  case h_9 => rfl
  all_goals
    rename_i heq
    cases heq
    cases hc

theorem gives_word {v : String} (hshape : WordShape v.toList) (hR : Clear isWordPart R)
    (hlead : ∀ a, v.toList = [a] → leadsIn a R = false) :
    Gives (v.toList ++ R) (.word v none) R := by
  intro l
  have hv : String.ofList v.toList = v := String.ofList_toList
  generalize v.toList = w at *
  subst hv
  cases hshape with
  | @plain a tail hstart hsharp hat hparts =>
      obtain ⟨k, hk, hrest⟩ := word_run (w := [a]) hparts hR l
      refine ⟨a, tail ++ R, k, rfl, ?_, hrest⟩
      rw [token_lettered hstart hsharp hat, lettered_word ?_]
      · exact congrArg Except.ok hk
      · cases tail with
        | nil => exact hlead a rfl
        | cons c tail => exact leadsIn_of_wordPart (hparts c List.mem_cons_self) _
  | @sharp c tail hc hparts =>
      obtain ⟨k, hk, hrest⟩ := word_run (w := ['#', c]) hparts hR l
      refine ⟨'#', c :: (tail ++ R), k, rfl, ?_, hrest⟩
      have hsymbol : symbol? ('#' :: c :: (tail ++ R)) = some (.sharp, 1) := by
        refine symbol?_run (s := .sharp) fun d hd => Bool.eq_false_iff.mpr fun hgoes => hc ?_
        cases hd
        exact List.mem_cons_of_mem _ (Symbol.mem_of_goesOn_next (w := ['#']) (by simp) hgoes)
      have hspace : c ≠ ' ' := fun h => hc (by simp [h])
      refine congrArg Except.ok (Eq.trans ?_ hk)
      simp [token.marked, hsymbol, hspace]
  | @at_ c tail hc hparts =>
      obtain ⟨k, hk, hrest⟩ := word_run (w := ['@', c]) hparts hR l
      refine ⟨'@', c :: (tail ++ R), k, rfl, ?_, hrest⟩
      have hsymbol : symbol? ('@' :: c :: (tail ++ R)) = some (.atSign, 1) := by
        refine symbol?_run (s := .atSign) fun d hd => Bool.eq_false_iff.mpr fun hgoes => hc ?_
        cases hd
        exact List.mem_cons_of_mem _ (Symbol.mem_of_goesOn_next (w := ['@']) (by simp) hgoes)
      have hspace : c ≠ ' ' := fun h => hc (by simp [h])
      refine congrArg Except.ok (Eq.trans ?_ hk)
      simp [token.marked, hsymbol, hspace]
  | @atAt c tail hc hparts =>
      obtain ⟨k, hk, hrest⟩ := word_run (w := ['@', '@', c]) hparts hR l
      refine ⟨'@', '@' :: c :: (tail ++ R), k, rfl, ?_, hrest⟩
      have hsymbol : symbol? ('@' :: '@' :: c :: (tail ++ R)) = some (.atAt, 2) :=
        symbol?_run (s := .atAt) fun d _ => Symbol.goesOn_eq_false (w := ['@', '@']) (by simp) d
      refine congrArg Except.ok (Eq.trans ?_ hk)
      simp [token.marked, hsymbol, hc]

/-! ## Numbers -/

theorem finish_run (digits : List Char) {e S : List Char} {long : Bool}
    (he : exponent (e ++ S) = e) (hS : S = if long then 'L' :: R else R)
    (hlong : long = false → R.head? ≠ some 'L') (l : Position) : ∃ k, number.finish digits ⟨e ++ S, l⟩ =
      (.number (String.ofList (digits ++ e)) long, k) ∧ k.rest = R := by
  unfold number.finish
  simp only [he, Cursor.rest_skip, List.drop_left]
  cases long with
  | true =>
      rw [if_pos rfl] at hS
      subst hS
      exact ⟨_, rfl, by simp⟩
  | false =>
      rw [if_neg Bool.false_ne_true] at hS
      subst hS
      split
      · exact absurd rfl (hlong rfl)
      · exact ⟨_, rfl, by simp⟩

theorem number_run {d S : List Char} {long : Bool} (hd : NumberShape d)
    (hS : S = if long then 'L' :: R else R) (hlong : long = false → R.head? ≠ some 'L')
    (hclear : Clear Char.isDigit S)
    (hexp : (∀ c ∈ d, c ≠ 'e' ∧ c ≠ 'E') → exponent S = [])
    (hperiod : (∀ c ∈ d, c.isDigit = true) → S.head? ≠ some '.')
    (hx : d = ['0'] → S.head? ≠ some 'x') (l : Position) :
    ∃ k, number ⟨d ++ S, l⟩ = (.number (String.ofList d) long, k) ∧ k.rest = R := by
  have hmark : ∀ {e}, ExponentShape e → ∃ mark e', e = mark :: e' ∧ (mark = 'e' ∨ mark = 'E') := by
    rintro _ ⟨hmark, _⟩
    exact ⟨_, _, rfl, hmark⟩
  -- digits come to an end at an exponent, too
  have hdigits : ∀ {e}, e = [] ∨ ExponentShape e → Clear Char.isDigit (e ++ S) := by
    rintro e (rfl | he)
    · exact hclear
    · obtain ⟨mark, e', rfl, hmark⟩ := hmark he
      intro c hc
      cases hc
      rcases hmark with rfl | rfl <;> rfl
  have hexponent : ∀ {digits e}, d = digits ++ e → (∀ c ∈ digits, c ≠ 'e' ∧ c ≠ 'E') →
      e = [] ∨ ExponentShape e → exponent (e ++ S) = e := by
    rintro digits e hde hplain (rfl | he)
    · exact hexp (by rw [hde, List.append_nil]; exact hplain)
    · exact exponent_run he hclear
  have hplain : ∀ {c : Char}, c.isDigit = true → c ≠ 'e' ∧ c ≠ 'E' := by
    intro c hc
    constructor <;> (rintro rfl; cases hc)
  unfold number
  cases hd with
  | @whole digits e hsome hall he =>
      have hnext : ∀ {c}, (e ++ S).head? = some c → c = 'x' ∨ c = '.' → e = [] ∧ S.head? = some c := by
        intro c hc hcase
        rcases he with rfl | he
        · exact ⟨rfl, hc⟩
        · obtain ⟨mark, e', rfl, hmark⟩ := hmark he
          cases hc
          rcases hmark with rfl | rfl <;> simp at hcase
      rw [List.append_assoc]
      simp only [Cursor.span, takeWhile_run hall (hdigits he), dropWhile_run hall (hdigits he)]
      have hfinish := finish_run digits
        (hexponent rfl (fun c hc => hplain (hall c hc)) he) hS hlong
      split
      · rename_i tail heq
        obtain ⟨rfl, hhead⟩ := hnext (by rw [heq]; rfl) (Or.inl rfl)
        rw [if_neg fun hzero => hx (by simpa using hzero) hhead]
        exact hfinish _
      · rename_i tail heq
        obtain ⟨rfl, hhead⟩ := hnext (by rw [heq]; rfl) (Or.inr rfl)
        exact absurd hhead (hperiod (by simpa using hall))
      · exact hfinish _
  | @fraction digits more e hsome hall hothers he =>
      have hperiod' : Clear Char.isDigit ('.' :: (more ++ (e ++ S))) := by
        intro c hc
        cases hc
        rfl
      have hsource : digits ++ '.' :: more ++ e ++ S = digits ++ '.' :: (more ++ (e ++ S)) := by simp
      have hempty : (digits.isEmpty && more.isEmpty) = false := by
        rcases hsome with hsome | hsome <;> simp [hsome]
      have hfinish := finish_run (digits ++ '.' :: more) (hexponent rfl (fun c hc => ?_) he) hS hlong
      · simp only [hsource, Cursor.span, takeWhile_run hall hperiod', dropWhile_run hall hperiod',
          Cursor.rest_skip, List.drop_succ_cons, List.drop_zero, takeWhile_run hothers (hdigits he),
          dropWhile_run hothers (hdigits he), hempty, Bool.false_eq_true, if_false]
        exact hfinish _
      · rcases List.mem_append.mp hc with hc | hc
        · exact hplain (hall c hc)
        · rcases List.mem_cons.mp hc with rfl | hc
          · decide
          · exact hplain (hothers c hc)

theorem gives_number {d : String} {long : Bool} (hd : NumberShape d.toList)
    (hR : (Token.number d long).Ends R) :
    Gives ((Token.number d long).text.toList ++ R) (.number d long) R := by
  intro l
  have hrun : ∃ k, number ⟨d.toList ++ (if long then 'L' :: R else R), l⟩ =
      (.number (String.ofList d.toList) long, k) ∧ k.rest = R := by
    cases long with
    | true =>
        refine number_run hd rfl (by simp) ?_ (fun _ => rfl) (by simp) (by simp) l
        intro c hc
        cases hc
        rfl
    | false =>
        obtain ⟨hclear, hlong, hexp, hperiod, hx⟩ := hR.resolve_left Bool.false_ne_true
        have hshort : R = if false = true then 'L' :: R else R := rfl
        exact number_run hd hshort (fun _ => hlong) hclear hexp hperiod hx l
  have htext : (Token.number d long).text.toList ++ R =
      d.toList ++ (if long then 'L' :: R else R) := by
    cases long <;> simp [Token.text]
  obtain ⟨a, r, hfirst, ha⟩ := hd.head
  rw [String.ofList_toList] at hrun
  obtain ⟨k, hk, hrest⟩ := hrun
  rw [hfirst, List.cons_append] at htext hk
  exact ⟨a, _, k, htext, by rw [token_number ha, hk], hrest⟩

/-! ## Quoted text -/

section

variable {q : Char} {escapes : Bool} {fault : ScanFault} {c : Cursor} {s : String}

theorem quoted_run (hc : c.rest = q :: (s.toList ++ q :: R)) (hs : q ∉ s.toList)
    (he : escapes = true → '\\' ∉ s.toList) (hR : R.head? ≠ some q) :
    ∃ k, quoted q escapes fault c = .ok (s, k) ∧ k.rest = R := by
  obtain ⟨k, hk, hrest⟩ := quotedBody_plain hs he hR (c.skip 1).position
  refine ⟨k, ?_, hrest⟩
  simp [quoted, hc, hk]

theorem gives_string (s : String) (hR : R.head? ≠ some '\x27') :
    Gives ('\x27' :: (doubled '\x27' s.toList ++ '\x27' :: R)) (.string s) R := by
  intro l
  obtain ⟨k, hk, hrest⟩ := quotedBody_doubled (s := s.toList) hR (l.after '\x27')
  refine ⟨_, _, k, rfl, ?_, hrest⟩
  simp [token, quoted, Cursor.skip, hk, bind, Except.bind, pure, Except.pure]

/-- Text is read as it stands only if it holds no quote. -/
theorem not_mem_of_quoted {k : Cursor} (h : quoted q false fault c = .ok (s, k))
    (hc : c.rest = q :: (s.toList ++ q :: R)) (hR : R.head? ≠ some q) : q ∉ s.toList := by
  obtain ⟨u, rfl, l, hbody⟩ := quoted_inv h
  simp only [hc, String.toList_ofList, List.drop_succ_cons, List.drop_zero] at hbody ⊢
  intro hmem
  exact append_ne_doubled hmem hR (eq_of_quotedBody hbody)

/-- One quote leads in text that does not begin with a quote itself. -/
theorem raw_single (hc : c.rest = q :: (s.toList ++ q :: R)) (hne : s.toList ≠ [])
    (hhead : s.toList.head? ≠ some q) {r : Token × Cursor} :
    raw q c = .ok r ↔ ∃ u k, quotedBody q false (s.toList ++ q :: R) (c.skip 1).position = some (u, k) ∧
      r = (.raw q false (String.ofList u), k) := by
  have hcount : (c.rest.takeWhile (· = q)).length = 1 := by
    obtain ⟨d, w, hw⟩ := List.exists_cons_of_ne_nil hne
    rw [hw] at hhead
    have hd : d ≠ q := by simpa using hhead
    simp [hc, hw, hd]
  have hinside : (c.skip 1).rest = s.toList ++ q :: R := by simp [hc]
  unfold raw
  simp only [hcount, hinside]
  cases quotedBody q false (s.toList ++ q :: R) (c.skip 1).position with
  | none => simp [Cursor.fail]
  | some found =>
      obtain ⟨u, k⟩ := found
      simp [eq_comm]

/-- Where a backslash counts, only if it holds no backslash either. -/
theorem not_mark_of_quoted {k : Cursor} (h : quoted '\x27' true fault c = .ok (s, k))
    (hc : c.rest = '\x27' :: (s.toList ++ '\x27' :: R)) (hR : ∀ d ∈ R.head?, ¬IsMark d) :
    ∀ d ∈ s.toList, ¬IsMark d := by
  obtain ⟨u, rfl, l, hbody⟩ := quoted_inv h
  simp only [hc, String.toList_ofList, List.drop_succ_cons, List.drop_zero] at hbody ⊢
  exact not_mark_of_quotedBody hbody hR

theorem raw_run (hc : c.rest = q :: (s.toList ++ q :: R)) (hs : q ∉ s.toList)
    (hR : R.head? ≠ some q) : ∃ k, raw q c = .ok (.raw q false s, k) ∧ k.rest = R := by
  by_cases hne : s.toList = []
  · have hcount : (c.rest.takeWhile (· = q)).length = 2 := by
      cases R with
      | nil => simp [hc, hne]
      | cons d R =>
          have hd : d ≠ q := by simpa using hR
          simp [hc, hne, hd]
    have hempty : s = "" := String.toList_eq_nil_iff.mp hne
    refine ⟨c.skip 2, ?_, by simp [hc, hne]⟩
    simp [raw, hcount, hempty]
  · obtain ⟨k, hk, hrest⟩ : ∃ k, quotedBody q false (s.toList ++ q :: R) (c.skip 1).position =
        some (s.toList, k) ∧ k.rest = R := quotedBody_plain hs (by simp) hR (c.skip 1).position
    have hhead : s.toList.head? ≠ some q := fun h => hs (List.mem_of_mem_head? h)
    exact ⟨k, (raw_single hc hne hhead).mpr ⟨_, k, hk, by simp⟩, hrest⟩

theorem not_mem_of_raw {k : Cursor} (h : raw q c = .ok (.raw q false s, k))
    (hc : c.rest = q :: (s.toList ++ q :: R)) (hhead : s.toList.head? ≠ some q)
    (hR : R.head? ≠ some q) : q ∉ s.toList := by
  by_cases hne : s.toList = []
  · simp [hne]
  · obtain ⟨u, k, hbody, heq⟩ := (raw_single hc hne hhead).mp h
    cases heq
    rw [String.toList_ofList] at hbody ⊢
    exact fun hmem => append_ne_doubled hmem hR (eq_of_quotedBody hbody)

theorem raw_triple (hc : c.rest = q :: q :: q :: (s.toList ++ [q, q, q] ++ R))
    (hs : ∀ (rest : List Char) (l : Position),
      ∃ k, tripleBody q 0 (s.toList ++ [q, q, q] ++ rest) l = some (s.toList ++ [q, q], k) ∧
        k.rest = rest) : ∃ k, raw q c = .ok (.raw q true s, k) ∧ k.rest = R := by
  obtain ⟨k, hk, hrest⟩ := hs R (c.skip 3).position
  refine ⟨k, ?_, hrest⟩
  obtain ⟨n, hcount⟩ : ∃ n, (c.rest.takeWhile (· = q)).length = n + 3 := by
    simp [hc]
  have hinside : (c.skip 3).rest = s.toList ++ [q, q, q] ++ R := by simp [hc]
  unfold raw
  simp only [hcount, hinside, hk]
  simp

end

/-- A letter leads in quoted text. -/
theorem gives_led {a : Char} {w cs : List Char} {t : Token} (ha : a ∈ ['N', 'X', 'B', 'R', 'E', 'U'])
    (hcs : cs = a :: w)
    (h : ∀ c : Cursor, c.rest = a :: w → ∃ k, token.lettered a w c = .ok (t, k) ∧ k.rest = R) :
    Gives cs t R := by
  intro l
  have hletter : ∀ a ∈ ['N', 'X', 'B', 'R', 'E', 'U'], isWordStart a = true ∧ a ≠ '#' ∧ a ≠ '@' :=
    List.all_iff_forall_prop.mp (by decide)
  obtain ⟨hstart, hsharp, hat⟩ := hletter a ha
  obtain ⟨k, hk, hrest⟩ := h ⟨a :: w, l⟩ rfl
  exact ⟨a, w, k, hcs, by rw [token_lettered hstart hsharp hat, hk], hrest⟩

/-! ## Symbols -/

/-- A symbol and what follows it do not begin a comment. -/
theorem append_ne_comment {s m : Symbol} {x y : Char} (hm : m.text.toList = [x])
    (hgrows : m.grows y = true)
    (hnone : ∀ v ∈ Symbol.spellings, [x, y].isPrefixOf v.1.toList = false)
    (hR : Clear s.grows R) (r : List Char) : s.text.toList ++ R ≠ x :: y :: r := by
  intro heq
  obtain ⟨a, w, hw⟩ := List.exists_cons_of_ne_nil (Symbol.toList_text_ne_nil s)
  rw [hw] at heq
  cases w with
  | nil =>
      obtain ⟨rfl, rfl⟩ := List.cons.inj heq
      have hs : s = m := Symbol.eq_of_spelling (Symbol.text_mem_spellings s) (hw.trans hm.symm)
      rw [hs] at hR
      rw [hR y rfl] at hgrows
      cases hgrows
  | cons b w =>
      simp only [List.cons_append, List.cons.injEq] at heq
      obtain ⟨rfl, rfl, _⟩ := heq
      have := hnone _ (Symbol.text_mem_spellings s)
      rw [hw] at this
      simp at this

/-- The first character of a symbol begins nothing else, a few ones apart. -/
theorem spelling_head {v : String × Symbol} (hv : v ∈ Symbol.spellings) {a : Char}
    (ha : v.1.toList.head? = some a) : a = '#' ∨ a = '@' ∨ v.2 = .period ∨
      a ∉ [' ', '\t', '\n', '\x0d', '\x27', '$', '?', '\x22', '\x60', '.', '#', '@'] ∧
        a.isDigit = false ∧ isWordStart a = false := by
  have hhead := (Symbol.listed hv).head
  rw [ha, Option.all_some, decide_eq_true_iff] at hhead
  exact hhead.2.2

/-- A symbol that is not followed by what would make it longer. -/
theorem marked_symbol {a : Char} {r : List Char} {s : Symbol} {n : Nat}
    (h : symbol? (a :: r) = some (s, n)) (hs : s ≠ .sharp ∧ s ≠ .atSign ∧ s ≠ .atAt) (l : Position) :
    token.marked a r ⟨a :: r, l⟩ = (.symbol s, (Cursor.mk (a :: r) l).skip n) := by
  unfold token.marked
  simp only [h]
  split <;> simp_all

theorem number_period (hR : Clear Char.isDigit R) (l : Position) :
    number ⟨'.' :: R, l⟩ = (.symbol .period, ⟨R, l.after '.'⟩) := by
  have htake : R.takeWhile Char.isDigit = [] := takeWhile_run (w := []) (by simp) hR
  have hdrop : R.dropWhile Char.isDigit = R := dropWhile_run (w := []) (by simp) hR
  have hperiod : '.'.isDigit = false := rfl
  simp [number, Cursor.span, Cursor.skip, htake, hdrop, hperiod]

theorem gives_symbol {s : Symbol} (hR : (Token.symbol s).Ends R) :
    Gives (s.text.toList ++ R) (.symbol s) R := by
  intro l
  simp only [Token.Ends] at hR
  split at hR
  case isTrue hs =>
    have hsymbol : symbol? (s.text.toList ++ R) = some (s, s.text.toList.length) := by
      refine symbol?_run fun c hc => Bool.eq_false_iff.mpr fun hgoes => ?_
      have hmem := Symbol.mem_of_goesOn (Symbol.toList_text_ne_nil s) hgoes
      rcases hR with rfl | hR
      · cases hc
      · rw [hR] at hc
        cases hc
        simp at hmem
    have hnext : R = [] ∨ ∃ R', R = ' ' :: R' := by
      refine hR.imp id fun hR => ?_
      cases R with
      | nil => cases hR
      | cons c R =>
          cases hR
          exact ⟨R, rfl⟩
    rcases hs with rfl | rfl | rfl
    · have hsymbol : symbol? ('#' :: R) = some (.sharp, 1) := hsymbol
      refine ⟨'#', R, Cursor.skip 1 ⟨'#' :: R, l⟩, rfl, congrArg Except.ok ?_, by simp⟩
      rcases hnext with rfl | ⟨R, rfl⟩ <;> simp only [token.marked, hsymbol]
    · have hsymbol : symbol? ('@' :: R) = some (.atSign, 1) := hsymbol
      refine ⟨'@', R, Cursor.skip 1 ⟨'@' :: R, l⟩, rfl, congrArg Except.ok ?_, by simp⟩
      rcases hnext with rfl | ⟨R, rfl⟩ <;> simp only [token.marked, hsymbol]
    · have hsymbol : symbol? ('@' :: '@' :: R) = some (.atAt, 2) := hsymbol
      refine ⟨'@', '@' :: R, Cursor.skip 2 ⟨'@' :: '@' :: R, l⟩, rfl, congrArg Except.ok ?_, by simp⟩
      rcases hnext with rfl | ⟨R, rfl⟩ <;> simp [token.marked, hsymbol]
  case isFalse hs =>
    have hgoes : ∀ c ∈ R.head?, Symbol.goesOn s.text.toList c = false := by
      intro c hc
      have := hR c hc
      simp only [Symbol.grows, Bool.or_eq_false_iff] at this
      exact this.1.1.1
    have hsymbol := symbol?_run hgoes
    have hminus := append_ne_comment (m := .minus) (x := '-') (y := '-') rfl (by decide)
      (fun v hv => (Symbol.listed hv).noComment.1) hR
    have hdiv := append_ne_comment (m := .div) (x := '/') (y := '*') rfl (by decide)
      (fun v hv => (Symbol.listed hv).noComment.2) hR
    obtain ⟨a, w, hw⟩ := List.exists_cons_of_ne_nil (Symbol.toList_text_ne_nil s)
    have hhead := spelling_head (Symbol.text_mem_spellings s) (by rw [hw]; rfl)
    have hrest : ∀ r, s.text.toList ++ R = r → (Cursor.skip s.text.toList.length ⟨r, l⟩).rest = R := by
      rintro r rfl
      simp
    rw [hw, List.cons_append] at hsymbol hminus hdiv hrest ⊢
    have hmarked : ¬(s = .sharp) ∧ ¬(s = .atSign) ∧ ¬(s = .atAt) := by simpa only [not_or] using hs
    rcases hhead with rfl | rfl | hperiod | ⟨hother, hdigit, hstart⟩
    · exact ⟨'#', w ++ R, _, rfl, congrArg Except.ok (marked_symbol hsymbol hmarked l), hrest _ rfl⟩
    · exact ⟨'@', w ++ R, _, rfl, congrArg Except.ok (marked_symbol hsymbol hmarked l), hrest _ rfl⟩
    · have hdigit : Clear Char.isDigit R := by
        intro c hc
        have hgrows := hR c hc
        rw [show s = .period from hperiod] at hgrows
        simp only [Symbol.grows, Bool.or_eq_false_iff] at hgrows
        simpa using hgrows.2
      have hfirst : a :: w = ['.'] := by
        rw [← hw, show s = .period from hperiod]
        rfl
      obtain ⟨rfl, rfl⟩ := List.cons.inj hfirst
      refine ⟨'.', R, ⟨R, l.after '.'⟩, rfl, ?_, rfl⟩
      rw [token_number (Or.inr rfl), number_period hdigit, show s = .period from hperiod]
    · have htoken := (token_symbol (l := l) hother hdigit hstart hminus hdiv).1 s _ hsymbol
      exact ⟨a, w ++ R, _, rfl, htoken, hrest _ rfl⟩

/-! ## Marks and comments -/

theorem dollar_run {c : Cursor} {tag : Option String} {s : String} (h : (Token.dollar tag s).Formed)
    (hc : c.rest = (Token.dollar tag s).text.toList ++ R) :
    ∃ k, dollar c = .ok (.dollar tag s, k) ∧ k.rest = R := by
  cases tag with
  | none =>
      obtain ⟨k, hk, hrest⟩ := h R (c.skip 2).position
      have hc : c.rest = '$' :: '$' :: (s.toList ++ '$' :: '$' :: R) := by
        simpa [Token.text, Token.dollarText] using hc
      refine ⟨k, ?_, hrest⟩
      simp [dollar, hc, hk, bind, Except.bind, pure, Except.pure]
  | some tag =>
      obtain ⟨hne, hparts, htagged⟩ := h
      generalize hcs : s.toList ++ '$' :: tag.toList ++ '$' :: R = cs
      have hc : c.rest = '$' :: (tag.toList ++ '$' :: cs) := by
        simpa [Token.text, Token.dollarText, ← hcs] using hc
      have hclear : Clear isTagPart ('$' :: cs) := by
        intro d hd
        cases hd
        decide
      have hname := span_run (c := c.skip 1) (by simp [hc]) hparts hclear
      have hbound : s.toList.length < cs.length + 1 := by
        rw [← hcs]
        simp only [List.length_append, List.length_cons]
        omega
      have htagged := htagged R
      rw [hcs] at htagged
      obtain ⟨k, hk, hrest⟩ := taggedBody_of_tagged htagged hbound
        ((tag.toList.foldl Position.after (c.skip 1).position).after '$')
      refine ⟨k, ?_, hrest⟩
      unfold dollar
      split
      · rename_i heq
        rw [hc] at heq
        obtain ⟨d, u, hu⟩ := List.exists_cons_of_ne_nil hne
        rw [hu] at heq hparts
        have hd := hparts d List.mem_cons_self
        obtain ⟨rfl, _⟩ := List.cons.inj (List.cons.inj heq).2
        cases hd
      · unfold isTagPart at hname
        simp only [hname, Cursor.skip, hk, bind, Except.bind, pure, Except.pure]
        simp [hne]

theorem placeholder_run {c : Cursor} {tag : List Char} (htag : ∀ d ∈ tag, isTagPart d = true)
    (hR : Clear isTagPart R) (hdollar : R.head? ≠ some '$') (hc : c.rest = '$' :: (tag ++ R)) :
    ∃ k, dollar c = .ok (.placeholder (String.ofList ('$' :: tag)), k) ∧ k.rest = R := by
  have hname := span_run (c := c.skip 1) (by simp [hc]) htag hR
  unfold dollar
  split
  · rename_i heq
    rw [hc] at heq
    cases tag with
    | nil => simp [show R = _ from (List.cons.inj heq).2] at hdollar
    | cons d tag =>
        have hd := htag d List.mem_cons_self
        obtain ⟨rfl, _⟩ := List.cons.inj (List.cons.inj heq).2
        cases hd
  · unfold isTagPart at hname
    simp only [hname]
    split
    · exact absurd rfl hdollar
    · exact ⟨_, rfl, rfl⟩

theorem gives_placeholder {s : String} (h : (Token.placeholder s).Formed)
    (hR : (Token.placeholder s).Ends R) : Gives (s.toList ++ R) (.placeholder s) R := by
  intro l
  have hs : s = String.ofList s.toList := String.ofList_toList.symm
  rcases h with ⟨ds, hds, hall⟩ | ⟨tag, htag, hall⟩
  · have hclear := hR.1 (by simp [hds])
    rw [hds] at hs
    refine ⟨'?', ds ++ R, ⟨R, ds.foldl Position.after (l.after '?')⟩, by simp [hds], ?_, rfl⟩
    simp [token, Cursor.span, Cursor.skip, takeWhile_run hall hclear, dropWhile_run hall hclear, hs]
  · obtain ⟨hclear, hdollar⟩ := hR.2 (by simp [htag])
    obtain ⟨k, hk, hrest⟩ := placeholder_run (c := ⟨'$' :: (tag ++ R), l⟩) hall hclear hdollar rfl
    rw [htag] at hs
    exact ⟨'$', tag ++ R, k, by simp [htag], by rw [hs]; exact hk, hrest⟩

theorem lineComment_run {c : Cursor} {s : String} (h : (Token.gap (.lineComment s)).Formed)
    (hR : (Token.gap (.lineComment s)).Ends R) (hc : c.rest = '-' :: '-' :: (s.toList ++ R)) :
    ∃ k, lineComment c = (.gap (.lineComment s), k) ∧ k.rest = R := by
  have hs : s = String.ofList s.toList := String.ofList_toList.symm
  have hline : ∀ {u : List Char}, '\n' ∉ u → ∀ d ∈ u, decide (d ≠ '\n') = true := by
    intro u hu d hd
    rw [decide_eq_true_iff]
    rintro rfl
    exact hu hd
  have hinside : (c.skip 2).rest = s.toList ++ R := by simp [hc]
  unfold lineComment
  simp only [Cursor.span, hinside]
  rcases h with hplain | ⟨u, hu, hplain⟩
  · have hR : R = [] := hR.resolve_left fun hlast => hplain (List.mem_of_mem_getLast? hlast)
    subst hR
    have htake := takeWhile_run (r := []) (hline hplain) (by simp)
    have hdrop := dropWhile_run (r := []) (hline hplain) (by simp)
    simp only [htake, hdrop]
    exact ⟨_, by rw [← hs], rfl⟩
  · have htake := takeWhile_run (r := '\n' :: R) (hline hplain) (by simp)
    have hdrop := dropWhile_run (r := '\n' :: R) (hline hplain) (by simp)
    rw [hu, List.append_assoc, List.singleton_append]
    simp only [htake, hdrop]
    exact ⟨_, by rw [← hu, ← hs], by simp⟩

theorem blockComment_run {c : Cursor} {s : String} (h : (Token.gap (.blockComment s)).Formed)
    (hc : c.rest = '/' :: '*' :: (s.toList ++ '*' :: '/' :: R)) :
    ∃ k, blockComment c = .ok (.gap (.blockComment s), k) ∧ k.rest = R := by
  obtain ⟨k, hk, hrest⟩ := h R (c.skip 2).position
  have hinside : (c.skip 2).rest = s.toList ++ '*' :: '/' :: R := by simp [hc]
  refine ⟨k, ?_, hrest⟩
  unfold blockComment
  simp only [hinside, hk, bind, Except.bind, pure, Except.pure]
  simp

theorem gives_gap {g : Gap} (h : (Token.gap g).Formed) (hR : (Token.gap g).Ends R) :
    Gives (g.text.toList ++ R) (.gap g) R := by
  intro l
  cases g with
  | space => exact ⟨' ', R, _, rfl, rfl, rfl⟩
  | tab => exact ⟨'\t', R, _, rfl, rfl, rfl⟩
  | newline => exact ⟨'\n', R, _, rfl, rfl, rfl⟩
  | lineComment s =>
      obtain ⟨k, hk, hrest⟩ := lineComment_run (c := ⟨'-' :: '-' :: (s.toList ++ R), l⟩) h hR rfl
      exact ⟨'-', '-' :: (s.toList ++ R), k, by simp [Gap.text], congrArg Except.ok hk, hrest⟩
  | blockComment s =>
      obtain ⟨k, hk, hrest⟩ := blockComment_run
        (c := ⟨'/' :: '*' :: (s.toList ++ '*' :: '/' :: R), l⟩) h rfl
      exact ⟨'/', '*' :: (s.toList ++ '*' :: '/' :: R), k, by simp [Gap.text], hk, hrest⟩

/-! ## Every token -/

theorem gives_of_plain {t : Token} (h : t.Formed) (hR : t.Ends R) (hplain : t.Plain)
    (huncoded : t.Uncoded) : Gives (t.text.toList ++ R) t R := by
  cases t with
  | word v q =>
      cases q with
      | none => exact gives_word h hR.1 hR.2
      | some q =>
          intro l
          obtain ⟨k, hk, hrest⟩ : ∃ k, quoted q false (.openName q) ⟨q :: (v.toList ++ q :: R), l⟩ =
              .ok (v, k) ∧ k.rest = R := quoted_run rfl hplain (by simp) hR
          refine ⟨q, v.toList ++ q :: R, k, by simp [Token.text], ?_, hrest⟩
          rcases h with rfl | rfl <;> simp [token, hk, bind, Except.bind, pure, Except.pure]
  | number d long => exact gives_number h hR
  | string s =>
      have hgives := gives_string s hR
      rw [doubled_of_not_mem hplain] at hgives
      simpa [Token.text] using hgives
  | national s =>
      have hquote : '\x27' ∉ s.toList := fun h => hplain _ h (Or.inl rfl)
      have hback : '\\' ∉ s.toList := fun h => hplain _ h (Or.inr rfl)
      refine gives_led (w := '\x27' :: (s.toList ++ '\x27' :: R)) (a := 'N') (by decide) ?_ ?_
      · simp [Token.text]
      · intro c hc
        obtain ⟨k, hk, hrest⟩ : ∃ k, quoted '\x27' true .openString (c.skip 1) = .ok (s, k) ∧
            k.rest = R := quoted_run (by simp [hc]) hquote (fun _ => hback) hR
        exact ⟨k, by simp [token.lettered, hk, bind, Except.bind, pure, Except.pure], hrest⟩
  | hex s =>
      have hquote : '\x27' ∉ s.toList := fun h => hplain _ h (Or.inl rfl)
      have hback : '\\' ∉ s.toList := fun h => hplain _ h (Or.inr rfl)
      refine gives_led (w := '\x27' :: (s.toList ++ '\x27' :: R)) (a := 'X') (by decide) ?_ ?_
      · simp [Token.text]
      · intro c hc
        obtain ⟨k, hk, hrest⟩ : ∃ k, quoted '\x27' true .openString (c.skip 1) = .ok (s, k) ∧
            k.rest = R := quoted_run (by simp [hc]) hquote (fun _ => hback) hR
        exact ⟨k, by simp [token.lettered, hk, bind, Except.bind, pure, Except.pure], hrest⟩
  | escaped s =>
      obtain ⟨hquote, hback⟩ := huncoded
      refine gives_led (w := '\x27' :: (s.toList ++ '\x27' :: R)) (a := 'E') (by decide) ?_ ?_
      · simp [Token.text]
      · intro c hc
        obtain ⟨k, hk, hrest⟩ := escapedBody_plain hquote hback hR
          (n := s.toList.length + (R.length + 1) + 1) (by omega) (c.skip 2).position
        have hskip : c.skip 2 = ⟨s.toList ++ '\x27' :: R, (c.skip 2).position⟩ := by
          rw [Cursor.skip_eq, hc]
          rfl
        rw [← hskip] at hk
        exact ⟨k, by simp [token.lettered, hk], hrest⟩
  | unicode s =>
      obtain ⟨hquote, hback⟩ := huncoded
      refine gives_led (w := '&' :: '\x27' :: (s.toList ++ '\x27' :: R)) (a := 'U') (by decide) ?_ ?_
      · simp [Token.text]
      · intro c hc
        obtain ⟨k, hk, hrest⟩ := unicodeBody_plain hquote hback hR
          (n := s.toList.length + (R.length + 1) + 1) (by omega) (c.skip 3).position
        have hskip : c.skip 3 = ⟨s.toList ++ '\x27' :: R, (c.skip 3).position⟩ := by
          rw [Cursor.skip_eq, hc]
          rfl
        rw [← hskip] at hk
        exact ⟨k, by simp [token.lettered, hk, bind, Except.bind, pure, Except.pure], hrest⟩
  | bytes q s =>
      refine gives_led (w := q :: (s.toList ++ q :: R)) (a := 'B') (by decide) ?_ ?_
      · simp [Token.text]
      · intro c hc
        obtain ⟨k, hk, hrest⟩ : ∃ k, quoted q false .openString (c.skip 1) = .ok (s, k) ∧
            k.rest = R := quoted_run (by simp [hc]) hplain (by simp) hR
        refine ⟨k, ?_, hrest⟩
        rcases h with rfl | rfl <;> simp [token.lettered, hk, bind, Except.bind, pure, Except.pure]
  | raw q triple s =>
      cases triple with
      | false =>
          refine gives_led (w := q :: (s.toList ++ q :: R)) (a := 'R') (by decide) ?_ ?_
          · simp [Token.text]
          · intro c hc
            obtain ⟨k, hk, hrest⟩ : ∃ k, raw q (c.skip 1) = .ok (.raw q false s, k) ∧ k.rest = R :=
              raw_run (by simp [hc]) hplain (hR.resolve_left Bool.false_ne_true)
            refine ⟨k, ?_, hrest⟩
            rcases h.1 with rfl | rfl <;> simp [token.lettered, hk]
      | true =>
          refine gives_led (w := q :: q :: q :: (s.toList ++ [q, q, q] ++ R)) (a := 'R') (by decide) ?_ ?_
          · simp [Token.text]
          · intro c hc
            obtain ⟨k, hk, hrest⟩ : ∃ k, raw q (c.skip 1) = .ok (.raw q true s, k) ∧ k.rest = R :=
              raw_triple (by simp [hc]) h.2
            refine ⟨k, ?_, hrest⟩
            rcases h.1 with rfl | rfl <;> simp [token.lettered, hk]
  | dollar tag s =>
      intro l
      obtain ⟨r, hr⟩ : ∃ r, (Token.dollar tag s).text.toList ++ R = '$' :: r := by
        simp [Token.text, Token.dollarText]
      obtain ⟨k, hk, hrest⟩ := dollar_run (c := ⟨'$' :: r, l⟩) h hr.symm
      exact ⟨'$', r, k, hr, hk, hrest⟩
  | placeholder s => exact gives_placeholder h hR
  | symbol s => exact gives_symbol hR
  | char c =>
      intro l
      obtain ⟨hblank, hstart, hdigit, hmarks, hnone⟩ := h
      have hsome : ∀ a ∈ ['.', '-', '/'], symbol? [a] ≠ none := by
        rw [List.forall_mem_cons, List.forall_mem_cons, List.forall_mem_singleton]
        exact ⟨symbol?_ne_none (s := .period) rfl, symbol?_ne_none (s := .minus) rfl,
          symbol?_ne_none (s := .div) rfl⟩
      have hsymbol : c ∉ ['.', '-', '/'] := fun hmem => hsome c hmem (hnone [])
      simp only [List.mem_cons, List.not_mem_nil, or_false, not_or] at hsymbol hmarks
      have htoken := (token_symbol (a := c) (r := R) (l := l) ?_ hdigit hstart ?_ ?_).2 (hnone R)
      · refine ⟨c, R, (Cursor.mk (c :: R) l).skip 1, by simp [Token.text], htoken.trans ?_, by simp⟩
        simp [hblank]
      · have hmore : ∀ a ∈ [' ', '\t', '\n', '\x0d', '#', '@'],
            Text.isBlank a = true ∨ isWordStart a = true := List.all_iff_forall_prop.mp (by decide)
        have hmore : c ∉ [' ', '\t', '\n', '\x0d', '#', '@'] := by
          intro hmem
          rcases hmore c hmem with h | h
          · rw [hblank] at h
            cases h
          · rw [hstart] at h
            cases h
        simp only [List.mem_cons, List.not_mem_nil, or_false, not_or] at hmore ⊢
        exact ⟨hmore.1, hmore.2.1, hmore.2.2.1, hmore.2.2.2.1, hmarks.1, hmarks.2.2.2.1,
          hmarks.2.2.2.2, hmarks.2.1, hmarks.2.2.1, hsymbol.1, hmore.2.2.2.2⟩
      · rintro r heq
        exact hsymbol.2.1 (List.cons.inj heq).1
      · rintro r heq
        exact hsymbol.2.2 (List.cons.inj heq).1
  | gap g => exact gives_gap h hR

end Scan
end StreamSql
