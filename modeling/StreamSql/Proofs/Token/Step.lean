/-
  What one step of the scanner takes. Every token that is read is formed as its kind demands, ends
  where the text after it cannot belong to it, and is written back as it stood there or in one of the
  few other ways (`token_read`). A number in base sixteen is the exception at its end: it is written
  back between quotes, and nothing was known of a quote after it.
-/
import StreamSql.Proofs.Token.Shape

namespace StreamSql

open Outcome

namespace Token

@[simp]
theorem toList_between (q : Char) (s : String) : (between q s).toList = q :: (s.toList ++ [q]) := by
  simp [between]

end Token

namespace Scan

/-- The token was read off the front of the text, with the rest left over. -/
structure Read (cs : List Char) (t : Token) (rest : List Char) : Prop where
  formed : t.Formed
  ends : t.Ends rest ∨ t.Plain ∧ ∃ ds, t = .hex ds
  source : cs = t.text.toList ++ rest ∨
    Turned cs t.text.toList ∧ (t.text.toList.head? = some '<' → t = .symbol .neq)
  shorter : rest.length < cs.length

/-- A token that is written back as it stood there. -/
theorem Read.exact {cs : List Char} {t : Token} {rest : List Char} (formed : t.Formed)
    (ends : t.Ends rest) (source : cs = t.text.toList ++ rest) (some : t.text.toList ≠ []) :
    Read cs t rest where
  formed := formed
  ends := Or.inl ends
  source := Or.inl source
  shorter := by
    have := List.length_pos_iff.mpr some
    rw [source, List.length_append]
    omega

/-- A token that is written back with a mark of its own. -/
theorem Read.marked {cs : List Char} {t : Token} {rest : List Char} (formed : t.Formed)
    (ends : t.Ends rest ∨ t.Plain ∧ ∃ ds, t = .hex ds) (turned : Turned cs t.text.toList)
    (other : t.text.toList.head? ≠ some '<') (shorter : rest.length < cs.length) : Read cs t rest where
  formed := formed
  ends := ends
  source := Or.inr ⟨turned, fun h => absurd h other⟩
  shorter := shorter

/-- A text and the characters at its front that pass a test. -/
theorem exists_run (p : Char → Bool) (cs : List Char) :
    ∃ run more, cs = run ++ more ∧ (∀ c ∈ run, p c = true) ∧ Clear p more :=
  ⟨cs.takeWhile p, cs.dropWhile p, List.takeWhile_append_dropWhile.symm,
    fun _ hc => List.mem_takeWhile_imp hc, clear_dropWhile _ _⟩

/-! ## Quoted text that a letter leads in -/

theorem quoted_inv {q : Char} {escapes : Bool} {fault : ScanFault} {c : Cursor} {s : String}
    {k : Cursor} (h : quoted q escapes fault c = .ok (s, k)) :
    ∃ u, s = String.ofList u ∧
      ∃ l, quotedBody q escapes (c.rest.drop 1) l = some (u, k) := by
  unfold quoted at h
  simp only [Cursor.rest_skip] at h
  split at h
  · cases h
    exact ⟨_, rfl, _, ‹_›⟩
  · cases h

theorem raw_read {q : Char} {c : Cursor} {a : Char} {r : List Char} {t : Token} {k : Cursor}
    (h : raw q c = .ok (t, k)) (hq : q = '\x27' ∨ q = '\x22') (hc : c.rest = q :: r)
    (ha : a.isAlphanum = true) : Read (a :: q :: r) t k.rest := by
  have hturned : ∀ w, Turned (a :: q :: r) ('R' :: q :: w) := fun w =>
    .lead ha (by simp) (by rcases hq with rfl | rfl <;> simp)
  unfold raw at h
  split at h
  · cases h
  · rename_i hone
    have hnext : r.head? ≠ some q := by
      rw [hc] at hone
      cases r with
      | nil => simp
      | cons d r =>
          intro hd
          simp [Option.some.inj hd] at hone
    simp only [Cursor.rest_skip, hc] at h
    split at h
    · rename_i s k' hbody
      cases h
      obtain ⟨hends, hlen⟩ := quotedBody_ends hbody
      have hhead : s.head? ≠ some q := by
        rcases quotedBody_inv hbody with ⟨_, _, _, rfl, _⟩ | ⟨used, d, r', _, s', hr, rfl, _, hused⟩
        · simp
        · have hr : r = used ++ r' := hr
          rcases hused with ⟨rfl, hne, _⟩ | ⟨rfl, _⟩ | ⟨he, _⟩
          · simpa using hne
          · simp [hr] at hnext
          · cases he
      refine .marked ⟨hq, by simpa using hhead⟩ (Or.inl (Or.inr hends)) ?_ (by simp [Token.text]) ?_
      · simpa [Token.text] using hturned _
      · simp at hlen ⊢
        omega
    · cases h
  · rename_i htwo
    cases h
    obtain ⟨d, r, rfl⟩ : ∃ d r', r = d :: r' := by
      rw [hc] at htwo
      cases r <;> simp at htwo ⊢
    rw [hc] at htwo
    have hd : d = q := by
      by_contra hne
      simp [hne] at htwo
    subst hd
    refine .marked ⟨hq, by simp⟩ (Or.inl (Or.inr ?_)) ?_ (by simp [Token.text]) ?_
    · rw [Cursor.rest_skip, hc]
      cases r with
      | nil => simp
      | cons e r =>
          intro he
          simp [Option.some.inj he] at htwo
    · simpa [Token.text] using hturned _
    · simp [hc]
      omega
  · simp only [Cursor.rest_skip] at h
    split at h
    · rename_i s k' hbody
      cases h
      obtain ⟨hsource, ⟨u, hu⟩, hagain⟩ := tripleBody_inv (Nat.zero_le 2) hbody
      have hu : s = u ++ [q, q] := hu
      subst hu
      have htake : (u ++ [q, q]).take ((u ++ [q, q]).length - 2) = u := by simp
      rw [htake]
      refine .marked ⟨hq, fun rest l => ?_⟩ (Or.inl (Or.inl rfl)) ?_ (by simp [Token.text]) ?_
      · simpa using hagain rest l
      · simpa [Token.text] using hturned _
      · have hlen := congrArg List.length hsource
        simp [hc] at hlen ⊢
        omega
    · cases h

theorem isAlphanum_of_toUpper {a : Char} (h : a.toUpper ∈ ['N', 'X', 'B', 'R', 'E', 'U']) :
    a.isAlphanum = true := by
  have hall : ∀ u ∈ ['N', 'X', 'B', 'R', 'E', 'U'], 65 ≤ u.toNat ∧ u.toNat ≤ 90 :=
    List.all_iff_forall_prop.mp (by decide)
  have hcapital := hall _ h
  rw [Text.toNat_toUpper] at hcapital
  have halpha : a.isAlpha = true := by
    rw [Text.isAlpha_iff, Text.isUpper_iff, Text.isLower_iff]
    split at hcapital <;> omega
  simp [Char.isAlphanum, halpha]

/-- A letter that leads in nothing starts a word. -/
theorem lettered_word {a : Char} {r : List Char} (h : leadsIn a r = false) (c : Cursor) :
    token.lettered a r c = .ok (word 1 c) := by
  unfold leadsIn at h
  unfold token.lettered
  split at h <;> simp_all

theorem word_read {n : Nat} {c : Cursor} {w : List Char} (hw : c.rest.take n = w) (hne : w ≠ [])
    (hshape : ∀ tail, (∀ c ∈ tail, isWordPart c = true) → WordShape (w ++ tail))
    (hlead : ∀ a, w = [a] → leadsIn a (c.rest.drop n) = false) :
    Read c.rest (word n c).1 (word n c).2.rest := by
  have hsource : c.rest = w ++ (c.rest.drop n) := by
    rw [← hw, List.take_append_drop]
  have hrun := List.takeWhile_append_dropWhile (p := isWordPart) (l := c.rest.drop n)
  simp only [word, Cursor.span, Cursor.rest_skip, hw]
  refine Read.exact ?_ ⟨clear_dropWhile _ _, fun a ha => ?_⟩ ?_ ?_
  · simpa only [Token.Formed, String.toList_ofList] using
      hshape _ fun c hc => List.mem_takeWhile_imp hc
  · rw [String.toList_ofList] at ha
    obtain ⟨b, w, rfl⟩ := List.exists_cons_of_ne_nil hne
    rw [List.cons_append, List.cons.injEq, List.append_eq_nil_iff] at ha
    obtain ⟨rfl, rfl, hnil⟩ := ha
    rw [hnil, List.nil_append] at hrun
    rw [hrun]
    exact hlead _ rfl
  · rw [Token.text, String.toList_ofList, List.append_assoc, hrun]
    exact hsource
  · simp [Token.text, hne]

theorem lettered_read {a : Char} {r : List Char} {c : Cursor} {t : Token} {k : Cursor}
    (h : token.lettered a r c = .ok (t, k)) (hc : c.rest = a :: r) (hstart : isWordStart a = true)
    (hsharp : a ≠ '#') (hat : a ≠ '@') : Read (a :: r) t k.rest := by
  by_cases hlead : leadsIn a r = false
  case pos =>
    rw [lettered_word hlead] at h
    cases h
    rw [← hc]
    refine word_read (n := 1) (w := [a]) (by simp [hc]) (by simp) (fun tail htail => ?_)
      fun b hb => ?_
    · exact .plain hstart hsharp hat htail
    · cases hb
      simpa [hc] using hlead
  rw [Bool.not_eq_false] at hlead
  unfold leadsIn at hlead
  -- the quotes may be doubled or escaped in the text, so only their kind is kept
  have hquoted : ∀ {q escapes fault s k}, quoted q escapes fault (c.skip 1) = .ok (s, k) →
      k.rest.head? ≠ some q ∧ k.rest.length < (a :: r).length := by
    intro q escapes fault s k h
    obtain ⟨u, rfl, l, hbody⟩ := quoted_inv h
    obtain ⟨hends, hlen⟩ := quotedBody_ends hbody
    simp [hc] at hlen ⊢
    exact ⟨hends, by omega⟩
  have hturned : ∀ {u q}, a.toUpper = u → u ∈ ['N', 'X', 'B', 'R', 'E', 'U'] →
      q ∈ ['\x27', '\x22', '&'] → ∀ w, Turned (a :: r) (u :: q :: w) := by
    rintro u q rfl hu hq w
    exact .lead (isAlphanum_of_toUpper hu) hu hq
  split at hlead
  case h_1 hupper | h_2 hupper | h_3 hupper | h_4 hupper =>
    unfold token.lettered at h
    simp only [hupper] at h
    obtain ⟨⟨s, k'⟩, hs, heq⟩ := bind_eq_ok.mp h
    cases heq
    obtain ⟨hends, hlen⟩ := hquoted hs
    refine .marked (by simp [Token.Formed]) (Or.inl hends) ?_ (by simp [Token.text]) hlen
    simpa [Token.text] using hturned hupper (by simp) (by simp) _
  case h_5 hupper | h_6 hupper =>
    unfold token.lettered at h
    simp only [hupper] at h
    exact raw_read h (by simp) (by simp [hc]) (isAlphanum_of_toUpper (by simp [hupper]))
  case h_7 hupper =>
    unfold token.lettered at h
    simp only [hupper] at h
    split at h
    · rename_i hbody
      cases h
      obtain ⟨hends, hlen⟩ := escapedBody_ends hbody
      refine .marked trivial (Or.inl hends) ?_ (by simp [Token.text]) ?_
      · simpa [Token.text] using hturned hupper (by simp) (by simp) _
      · simp [hc] at hlen ⊢
        omega
    · cases h
  case h_8 hupper =>
    unfold token.lettered at h
    simp only [hupper] at h
    obtain ⟨⟨s, k'⟩, hbody, heq⟩ := bind_eq_ok.mp h
    cases heq
    obtain ⟨hends, hlen⟩ := unicodeBody_ends hbody
    refine .marked trivial (Or.inl hends) ?_ (by simp [Token.text]) ?_
    · simpa [Token.text] using hturned hupper (by simp) (by simp) _
    · simp [hc] at hlen ⊢
      omega
  case h_9 => cases hlead

/-! ## Symbols -/

/-- Only the inequality sign is written back in another way. -/
theorem symbol?_text {cs : List Char} {s : Symbol} {n : Nat} (h : symbol? cs = some (s, n))
    (hs : s = .neq → cs.head? ≠ some '!') : ∃ rest, cs = s.text.toList ++ rest ∧
      ∀ c ∈ rest.head?, Symbol.goesOn s.text.toList c = false := by
  obtain ⟨w, rest, hw, _, rfl, hclear⟩ := symbol?_spec h
  rcases (Symbol.listed hw).text with htext | hneq
  · have htext : w = s.text := htext
    subst htext
    exact ⟨rest, rfl, hclear⟩
  · cases hneq
    exact absurd rfl (hs rfl)

/-- A symbol, unless a comment or a number begins there, or a word with a mark in front. -/
theorem symbol_read {cs : List Char} {s : Symbol} {n : Nat} (h : symbol? cs = some (s, n))
    (hother : s ≠ .sharp ∧ s ≠ .atSign ∧ s ≠ .atAt) (hminus : ∀ r, cs ≠ '-' :: '-' :: r)
    (hdiv : ∀ r, cs ≠ '/' :: '*' :: r) (hperiod : s ≠ .period) :
    Read cs (.symbol s) (cs.drop n) := by
  obtain ⟨w, rest, hw, rfl, rfl, hclear⟩ := symbol?_spec h
  rw [List.drop_left]
  rcases (Symbol.listed hw).text with htext | hneq
  · have htext : w = s.text := htext
    subst htext
    refine .exact trivial ?_ rfl (Symbol.toList_text_ne_nil s)
    simp only [Token.Ends]
    rw [if_neg (by simp [hother])]
    intro c hc
    obtain ⟨rest, rfl⟩ : ∃ rest', rest = c :: rest' := by
      cases rest <;> simp_all
    refine Bool.eq_false_iff.mpr fun hgrows => ?_
    simp only [Symbol.grows, Bool.or_eq_true, Bool.and_eq_true, decide_eq_true_eq, hclear c hc,
      hperiod, Bool.false_eq_true, false_and, false_or, or_false] at hgrows
    rcases hgrows with ⟨rfl, rfl⟩ | ⟨rfl, rfl⟩
    · exact hminus rest rfl
    · exact hdiv rest rfl
  · cases hneq
    refine ⟨trivial, Or.inl fun c _ => ?_, Or.inr ⟨.neq, fun _ => rfl⟩,
      Nat.lt_add_of_pos_right Nat.two_pos⟩
    have hlast : Symbol.goesOn Symbol.neq.text.toList c = false :=
      Symbol.goesOn_eq_false (w := ['<', '>']) (by simp) c
    simp [Symbol.grows, hlast]

/-! ## Words with a mark in front -/

theorem marked_read {a : Char} {r : List Char} {c : Cursor} {t : Token} {k : Cursor}
    (h : token.marked a r c = (t, k)) (hc : c.rest = a :: r) (ha : a = '#' ∨ a = '@') :
    Read (a :: r) t k.rest := by
  have hspec : ∀ {s n}, symbol? (a :: r) = some (s, n) → ∃ rest, a :: r = s.text.toList ++ rest ∧
      ∀ c ∈ rest.head?, Symbol.goesOn s.text.toList c = false := fun hs =>
    symbol?_text hs fun _ => by rcases ha with rfl | rfl <;> simp
  -- a symbol that could begin a word stands alone only before a blank or at the end
  have halone : ∀ {s rest}, s = .sharp ∨ s = .atSign ∨ s = .atAt → a :: r = s.text.toList ++ rest →
      rest = [] ∨ rest.head? = some ' ' → Read (a :: r) (.symbol s) rest := by
    intro s rest hs hsource hrest
    refine .exact trivial ?_ hsource (Symbol.toList_text_ne_nil s)
    simpa only [Token.Ends, if_pos hs] using hrest
  unfold token.marked at h
  rw [hc] at h
  split at h
  case h_1 hs =>
    obtain ⟨rest, hsource, hclear⟩ := hspec hs
    have hsource : a :: r = '#' :: rest := hsource
    obtain ⟨rfl, rfl⟩ := List.cons.inj hsource
    split at h
    case h_1 | h_2 =>
      cases h
      exact halone (by simp) (by simp [hc]; rfl) (by simp [hc])
    case h_3 hnil hspace =>
      cases h
      obtain ⟨d, rest, rfl⟩ := List.exists_cons_of_ne_nil hnil
      rw [← hc]
      refine word_read (n := 2) (w := ['#', d]) (by simp [hc]) (by simp) (fun tail htail => ?_)
        (by simp)
      refine .sharp (fun hd => ?_) htail
      have hgoes : ∀ c ∈ ['>', '-'], Symbol.goesOn ['#'] c = true := by
        rw [List.forall_mem_cons, List.forall_mem_singleton]
        exact ⟨Symbol.goesOn_text (s := .hashArrow) rfl, Symbol.goesOn_text (s := .hashMinus) rfl⟩
      rcases List.mem_cons.mp hd with rfl | hd
      · exact hspace _ rfl
      · exact Bool.false_ne_true ((hclear d rfl).symm.trans (hgoes d hd))
  case h_2 hs =>
    obtain ⟨rest, hsource, hclear⟩ := hspec hs
    have hsource : a :: r = '@' :: rest := hsource
    obtain ⟨rfl, rfl⟩ := List.cons.inj hsource
    split at h
    case h_1 | h_2 =>
      cases h
      exact halone (by simp) (by simp [hc]; rfl) (by simp [hc])
    case h_3 hnil hspace =>
      cases h
      obtain ⟨d, rest, rfl⟩ := List.exists_cons_of_ne_nil hnil
      rw [← hc]
      refine word_read (n := 2) (w := ['@', d]) (by simp [hc]) (by simp) (fun tail htail => ?_)
        (by simp)
      refine .at_ (fun hd => ?_) htail
      have hgoes : ∀ c ∈ ['>', '?', '@'], Symbol.goesOn ['@'] c = true := by
        rw [List.forall_mem_cons, List.forall_mem_cons, List.forall_mem_singleton]
        exact ⟨Symbol.goesOn_text (s := .atArrow) rfl, Symbol.goesOn_text (s := .atQuestion) rfl,
          Symbol.goesOn_text (s := .atAt) rfl⟩
      rcases List.mem_cons.mp hd with rfl | hd
      · exact hspace _ rfl
      · exact Bool.false_ne_true ((hclear d rfl).symm.trans (hgoes d hd))
  case h_3 hs =>
    obtain ⟨rest, hsource, hclear⟩ := hspec hs
    have hsource : a :: r = '@' :: '@' :: rest := hsource
    obtain ⟨rfl, rfl⟩ := List.cons.inj hsource
    simp only [List.drop_succ_cons, List.drop_zero] at h
    split at h
    case h_1 | h_2 =>
      cases h
      exact halone (by simp) (by simp [hc]; rfl) (by simp [hc])
    case h_3 hnil hspace =>
      cases h
      obtain ⟨d, rest, rfl⟩ := List.exists_cons_of_ne_nil hnil
      rw [← hc]
      refine word_read (n := 3) (w := ['@', '@', d]) (by simp [hc]) (by simp) (fun tail htail => ?_)
        (by simp)
      refine .atAt ?_ htail
      rintro rfl
      exact hspace _ rfl
  case h_4 s n hsharp hat hatAt hs =>
    cases h
    rw [Cursor.rest_skip, hc]
    refine symbol_read hs ⟨?_, ?_, ?_⟩ ?_ ?_ ?_
    · rintro rfl
      exact hsharp rfl
    · rintro rfl
      exact hat rfl
    · rintro rfl
      exact hatAt rfl
    · rintro r' heq
      rcases ha with rfl | rfl <;> cases heq
    · rintro r' heq
      rcases ha with rfl | rfl <;> cases heq
    · rintro rfl
      obtain ⟨rest, hsource, _⟩ := hspec hs
      rcases ha with rfl | rfl <;> cases hsource
  case h_5 hs =>
    have hnone := symbol?_none hs []
    rcases ha with rfl | rfl
    · exact absurd hnone (symbol?_ne_none (s := .sharp) rfl)
    · exact absurd hnone (symbol?_ne_none (s := .atSign) rfl)

/-! ## Numbers -/

theorem finish_read {digits : List Char} {k : Cursor} {t : Token} {k' : Cursor}
    (h : number.finish digits k = (t, k')) (hne : digits ≠ [])
    (hshape : ∀ e, e = [] ∨ ExponentShape e → NumberShape (digits ++ e))
    (hclear : Clear Char.isDigit k.rest)
    (hperiod : (∀ c ∈ digits, c.isDigit = true) → k.rest.head? ≠ some '.')
    (hx : digits = ['0'] → k.rest.head? ≠ some 'x') : Read (digits ++ k.rest) t k'.rest := by
  obtain ⟨e, rest, he, hrest, hdigit, hexp⟩ : ∃ e rest, exponent k.rest = e ∧ k.rest = e ++ rest ∧
      Clear Char.isDigit rest ∧ (e = [] ∨ ExponentShape e) := by
    by_cases he : exponent k.rest = []
    · exact ⟨[], k.rest, he, rfl, hclear, Or.inl rfl⟩
    · obtain ⟨hshape, rest, hrest, hdigit⟩ := exponent_spec he
      exact ⟨_, rest, rfl, hrest, hdigit, Or.inr hshape⟩
  have hdrop : k.rest.drop e.length = rest := by rw [hrest, List.drop_left]
  have hformed : ∀ long, (Token.number (String.ofList (digits ++ e)) long).Formed := by
    intro long
    simpa only [Token.Formed, String.toList_ofList] using hshape _ hexp
  unfold number.finish at h
  simp only [Cursor.rest_skip, he, hdrop] at h
  split at h
  · cases h
    refine .exact (hformed true) (Or.inl rfl) ?_ (by simp [Token.text])
    simp [Token.text, hrest]
  · rename_i hlong
    cases h
    rw [Cursor.rest_skip, hdrop]
    refine .exact (hformed false) (Or.inr ⟨hdigit, head?_ne hlong, ?_⟩) ?_ (by simp [Token.text, hne])
    · rw [String.toList_ofList]
      rcases hexp with rfl | hexp
      · rw [List.nil_append] at hrest
        rw [List.append_nil, ← hrest]
        exact ⟨fun _ => he, hperiod, hx⟩
      · -- the mark of the exponent rules out the rest
        obtain @⟨mark, sign, ds, hmark, _⟩ := hexp
        have hmem : mark ∈ digits ++ (mark :: sign ++ ds) := by simp
        refine ⟨fun hplain => ?_, fun hall => ?_, fun hzero => ?_⟩
        · have := hplain mark hmem
          rcases hmark with rfl | rfl <;> simp at this
        · have := hall mark hmem
          rcases hmark with rfl | rfl <;> cases this
        · have := congrArg List.length hzero
          have := List.length_pos_iff.mpr hne
          simp at *
          omega
    · simp [Token.text, hrest]

theorem number_read {c : Cursor} {t : Token} {k : Cursor} (h : number c = (t, k))
    (ha : ∃ a ∈ c.rest.head?, a.isDigit = true ∨ a = '.') : Read c.rest t k.rest := by
  obtain ⟨cs, l⟩ := c
  obtain ⟨whole, more, rfl, hall, hclear⟩ := exists_run Char.isDigit cs
  unfold number at h
  simp only [Cursor.span, takeWhile_run hall hclear, dropWhile_run hall hclear, Cursor.rest_skip] at h
  have hnil : whole = [] → more.head? = some '.' := by
    rintro rfl
    obtain ⟨a, hmem, hdigit | rfl⟩ := ha
    · rw [hclear a hmem] at hdigit
      cases hdigit
    · exact hmem
  have hfinish : ∀ {l}, number.finish whole ⟨more, l⟩ = (t, k) → more.head? ≠ some '.' →
      (whole = ['0'] → more.head? ≠ some 'x') → Read (whole ++ more) t k.rest := by
    intro l h hperiod hx
    have hne : whole ≠ [] := fun hnil' => hperiod (hnil hnil')
    exact finish_read (k := ⟨more, l⟩) h hne (fun e he => .whole hne hall he) hclear
      (fun _ => hperiod) hx
  split at h
  · split at h
    · rename_i tail hx
      subst hx
      cases h
      refine .marked trivial (Or.inr ⟨fun c hc => ?_, _, rfl⟩) ?_ (by simp [Token.text]) ?_
      · rw [String.toList_ofList] at hc
        have hdigit := List.mem_takeWhile_imp hc
        rintro (rfl | rfl) <;> cases hdigit
      · simpa [Token.text] using Turned.lead (by decide) (by simp) (by simp)
      · have := (List.dropWhile_suffix (l := tail) isHexDigit).length_le
        simp
        omega
    · exact hfinish h (by simp) (fun hx => absurd hx ‹_›)
  · rename_i tail
    obtain ⟨fraction, rest, rfl, hothers, hrest⟩ := exists_run Char.isDigit tail
    simp only [List.drop_succ_cons, List.drop_zero, takeWhile_run hothers hrest,
      dropWhile_run hothers hrest] at h
    split at h
    · rename_i hempty
      cases h
      simp only [Bool.and_eq_true, List.isEmpty_iff] at hempty
      obtain ⟨rfl, rfl⟩ := hempty
      refine .exact trivial ?_ rfl (by simp [Token.text, Symbol.text])
      intro c hc
      have hone : Symbol.goesOn Symbol.period.text.toList c = false :=
        Symbol.goesOn_eq_false (w := ['.']) (by simp) c
      simp [Symbol.grows, hone, hrest c hc]
    · rename_i hempty
      have hsome : whole ≠ [] ∨ fraction ≠ [] := by
        simpa only [Bool.and_eq_true, List.isEmpty_iff, not_and_or] using hempty
      have hread := finish_read h (by simp) (fun e he => .fraction hsome hall hothers he) hrest ?_ ?_
      · simpa using hread
      · intro hdigits
        have := hdigits '.' (by simp)
        cases this
      · intro hzero
        have : '.' ∈ ['0'] := by rw [← hzero]; simp
        simp at this
  · rename_i hx hperiod
    exact hfinish h (head?_ne hperiod) (fun _ => head?_ne hx)

/-! ## Dollar signs and comments -/

theorem dollar_read {c : Cursor} {r : List Char} {t : Token} {k : Cursor}
    (h : dollar c = .ok (t, k)) (hc : c.rest = '$' :: r) : Read c.rest t k.rest := by
  unfold dollar at h
  split at h
  · rename_i r' hcs
    obtain ⟨⟨s, k'⟩, hbody, heq⟩ := bind_eq_ok.mp h
    cases heq
    obtain ⟨used, hr, hused, hagain⟩ := dollarBody_inv hbody
    have hused : used = s ++ ['$', '$'] := hused
    subst hused
    refine .exact (fun rest l => ?_) trivial ?_ (by simp [Token.text, Token.dollarText])
    · simpa using hagain rest l
    · simp [Token.text, Token.dollarText, hcs, hr]
  · rename_i hdollar
    obtain ⟨tag, more, hr, htag, hmore⟩ := exists_run isTagPart r
    have hspan : (c.skip 1).rest = tag ++ more := by simp [hc, hr]
    simp only [Cursor.span, hspan] at h
    have htake : (tag ++ more).takeWhile
        (fun x => Text.isLetter x || Text.isNumeral x || decide (x = '_')) = tag :=
      takeWhile_run htag hmore
    have hdrop : (tag ++ more).dropWhile
        (fun x => Text.isLetter x || Text.isNumeral x || decide (x = '_')) = more :=
      dropWhile_run htag hmore
    simp only [htake, hdrop] at h
    split at h
    · rename_i tail
      have hne : tag ≠ [] := by
        rintro rfl
        exact hdollar tail (by rw [hc, hr]; rfl)
      obtain ⟨⟨s, k'⟩, hbody, heq⟩ := bind_eq_ok.mp h
      have htagged := tagged_of_taggedBody hbody
      rw [if_neg (by simpa using hne)] at heq
      cases heq
      refine .exact ⟨by simpa using hne, by simpa using htag, fun rest => ?_⟩ trivial ?_
        (by simp [Token.text, Token.dollarText])
      · simpa using htagged.elsewhere rest
      · have := htagged.source
        simp at this
        simp [Token.text, Token.dollarText, hc, hr, this]
    · rename_i hnext
      cases h
      refine .exact (Or.inr ⟨tag, by simp, htag⟩) ⟨by simp, fun _ => ⟨hmore, head?_ne hnext⟩⟩ ?_
        (by simp [Token.text])
      simp [Token.text, hc, hr]

theorem lineComment_read {c : Cursor} {r : List Char} {t : Token} {k : Cursor}
    (h : lineComment c = (t, k)) (hc : c.rest = '-' :: '-' :: r) : Read c.rest t k.rest := by
  unfold lineComment at h
  obtain ⟨s, more, hr, hs, hmore⟩ := exists_run (fun x => decide (x ≠ '\n')) r
  have hspan : (c.skip 2).rest = s ++ more := by simp [hc, hr]
  simp only [Cursor.span, hspan, takeWhile_run hs hmore, dropWhile_run hs hmore] at h
  have hline : '\n' ∉ s := fun hmem => by simpa using hs _ hmem
  split at h
  · rename_i d tail
    have hd : d = '\n' := by simpa using hmore d rfl
    subst hd
    cases h
    refine .exact (Or.inr ⟨s, by simp, hline⟩) (Or.inl (by simp)) ?_ (by simp [Token.text, Gap.text])
    simp [Token.text, Gap.text, hc, hr]
  · cases h
    refine .exact (Or.inl (by simpa using hline)) (Or.inr rfl) ?_ (by simp [Token.text, Gap.text])
    simp [Token.text, Gap.text, hc, hr]

theorem blockComment_read {c : Cursor} {r : List Char} {t : Token} {k : Cursor}
    (h : blockComment c = .ok (t, k)) (hc : c.rest = '/' :: '*' :: r) : Read c.rest t k.rest := by
  obtain ⟨⟨s, k'⟩, hbody, heq⟩ := bind_eq_ok.mp h
  cases heq
  obtain ⟨hsource, hlast, hagain⟩ := commentBody_inv hbody
  obtain ⟨u, rfl⟩ : ∃ u, s = u ++ ['*'] := by
    rcases List.eq_nil_or_concat s with rfl | ⟨u, d, rfl⟩
    · simp at hlast
    · rw [List.concat_eq_append, ← List.cons_append, List.getLast?_concat] at hlast
      exact ⟨u, by rw [Option.some.inj hlast, List.concat_eq_append]⟩
  rw [List.dropLast_concat]
  refine .exact (fun rest l => ?_) trivial ?_ (by simp [Token.text, Gap.text])
  · simpa using hagain rest l
  · simp [hc] at hsource
    simp [Token.text, Gap.text, hc, hsource]

/-! ## The next token -/

theorem token_read {a : Char} {r : List Char} {l : Position} {t : Token} {k : Cursor}
    (h : token a r l = .ok (t, k)) : Read (a :: r) t k.rest := by
  unfold token at h
  simp only at h
  split at h
  case h_1 | h_2 | h_3 =>
    cases h
    exact .exact trivial trivial rfl (by simp [Token.text, Gap.text])
  case h_4 | h_5 =>
    cases h
    refine .marked trivial (Or.inl trivial) .line (by simp [Token.text, Gap.text]) ?_
    simp only [Cursor.rest_skip, List.length_drop, List.length_cons]
    omega
  case h_6 =>
    obtain ⟨⟨s, k'⟩, hs, heq⟩ := bind_eq_ok.mp h
    cases heq
    obtain ⟨u, rfl, l, hbody⟩ := quoted_inv hs
    obtain ⟨hends, hlen⟩ := quotedBody_ends hbody
    refine .marked trivial (Or.inl hends) ?_ (by simp [Token.text]) ?_
    · simpa [Token.text] using Turned.quote (by simp)
    · simp at hlen ⊢
      omega
  case h_7 =>
    exact lineComment_read (Except.ok.inj h) rfl
  case h_8 => exact blockComment_read h rfl
  case h_9 => exact dollar_read h rfl
  case h_10 =>
    obtain ⟨ds, more, rfl, hds, hmore⟩ := exists_run Text.isNumeral r
    simp only [Cursor.span, Cursor.rest_skip, List.drop_succ_cons, List.drop_zero,
      takeWhile_run hds hmore, dropWhile_run hds hmore] at h
    cases h
    refine .exact (Or.inl ⟨ds, by simp, hds⟩) ⟨fun _ => hmore, by simp⟩ ?_ (by simp [Token.text])
    simp [Token.text]
  case h_11 _ _ _ _ hquote hdollar hmark _ hminus hdiv =>
    split at h
    case isTrue hq =>
      obtain ⟨⟨s, k'⟩, hs, heq⟩ := bind_eq_ok.mp h
      cases heq
      obtain ⟨u, rfl, l, hbody⟩ := quoted_inv hs
      obtain ⟨hends, hlen⟩ := quotedBody_ends hbody
      simp only [Bool.or_eq_true, decide_eq_true_eq] at hq
      refine .marked hq (Or.inl hends) ?_ ?_ ?_
      · simpa [Token.text] using Turned.quote (by rcases hq with rfl | rfl <;> simp)
      · rcases hq with rfl | rfl <;> simp [Token.text]
      · simp at hlen ⊢
        omega
    case isFalse hq =>
    split at h
    case isTrue hnumber =>
      refine number_read (c := ⟨a :: r, l⟩) (Except.ok.inj h) ⟨a, rfl, by simpa using hnumber⟩
    case isFalse hnumber =>
    split at h
    case isTrue hmarked => exact marked_read (Except.ok.inj h) rfl (by simpa using hmarked)
    case isFalse hmarked =>
    simp only [Bool.or_eq_true, decide_eq_true_eq, not_or] at hq hnumber hmarked
    split at h
    case isTrue hstart => exact lettered_read h rfl hstart hmarked.1 hmarked.2
    case isFalse hstart =>
    split at h
    · rename_i s n hs
      cases h
      have hfirst : ∀ {s'}, s = s' → s' ≠ .neq → s'.text.toList.head? = some a := by
        rintro s' rfl hneq
        obtain ⟨rest, hsource, _⟩ := symbol?_text hs fun h => absurd h hneq
        obtain ⟨b, w, hw⟩ := List.exists_cons_of_ne_nil (Symbol.toList_text_ne_nil s)
        rw [hw] at hsource ⊢
        exact congrArg some (List.cons.inj hsource).1.symm
      rw [Cursor.rest_skip]
      refine symbol_read hs ⟨fun hs => ?_, fun hs => ?_, fun hs => ?_⟩ (fun r' heq => ?_)
        (fun r' heq => ?_) (fun hs => ?_)
      · exact hmarked.1 (Option.some.inj (hfirst hs (by simp))).symm
      · exact hmarked.2 (Option.some.inj (hfirst hs (by simp))).symm
      · exact hmarked.2 (Option.some.inj (hfirst hs (by simp))).symm
      · cases heq
        exact hminus _ rfl rfl
      · cases heq
        exact hdiv _ rfl rfl
      · exact hnumber.2 (Option.some.inj (hfirst hs (by simp))).symm
    · rename_i hs
      cases h
      split
      · rename_i hblank
        exact .marked trivial (Or.inl trivial) (.blank hblank) (by simp [Token.text, Gap.text]) (by simp)
      · rename_i hblank
        refine .exact ⟨?_, ?_, ?_, ?_, symbol?_none hs⟩ trivial ?_ (by simp [Token.text])
        · exact Bool.eq_false_iff.mpr hblank
        · exact Bool.eq_false_iff.mpr hstart
        · exact Bool.eq_false_iff.mpr hnumber.1
        · simp only [List.mem_cons, List.not_mem_nil, or_false, not_or]
          exact ⟨hquote, hq.1, hq.2, hdollar, hmark⟩
        · simp [Token.text]

end Scan
end StreamSql
