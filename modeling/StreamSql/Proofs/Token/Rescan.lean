/-
  Scanning what scanning gave. The tokens of a statement are written back one after the other and
  scanned again. They come out the same unless a quote stands between plain quotes, or two of them
  run into each other (`Clash`): a number in base sixteen before a string, where the quote between
  them is taken for a doubled one, and `<` before `!=`, which is written back as `<>`.

  `Settled` is what is known of the tokens of a statement, and `rescan_iff` what follows from it. Two
  things are left out. Text with escape sequences may by chance be read as it stands, and so may text
  in which a backslash counts if another one follows its closing quote.
-/
import Mathlib.Data.List.Chain
import StreamSql.Proofs.Token.Reread

namespace StreamSql

open Outcome

namespace Scan

variable {R : List Char}

/-! ## Tokens that change -/

section

variable {t : Token} {a : Char} {r : List Char} {l : Position} {k : Cursor}

/-- Text between quotes is read again only if nothing in it is read in another way. Where a
    backslash counts, one behind the closing quote could make up for what got lost. -/
theorem plain_of_token (h : token a r l = .ok (t, k)) (hcs : t.text.toList ++ R = a :: r)
    (ht : t.Formed) (hR : t.Ends R) (hback : R.head? ≠ some '\\') : t.Plain := by
  have hmark : R.head? ≠ some '\x27' → ∀ c ∈ R.head?, ¬IsMark c := by
    rintro hquote c hc (rfl | rfl)
    · exact hquote hc
    · exact hback hc
  cases t with
  | word v q =>
      cases q with
      | none => trivial
      | some q =>
          have hcs : q :: (v.toList ++ q :: R) = a :: r := by simpa [Token.text] using hcs
          obtain ⟨rfl, rfl⟩ := List.cons.inj hcs
          have h : (quoted q false (.openName q) ⟨q :: (v.toList ++ q :: R), l⟩ >>= fun x =>
              .ok (Token.word x.1 (some q), x.2)) = .ok (.word v (some q), k) := by
            rcases ht with rfl | rfl <;> exact h
          obtain ⟨⟨s, k'⟩, hs, heq⟩ := bind_eq_ok.mp h
          cases heq
          exact not_mem_of_quoted hs rfl hR
  | string s =>
      have hcs : '\x27' :: (s.toList ++ '\x27' :: R) = a :: r := by simpa [Token.text] using hcs
      obtain ⟨rfl, rfl⟩ := List.cons.inj hcs
      obtain ⟨⟨s', k'⟩, hs, heq⟩ := bind_eq_ok.mp h
      cases heq
      exact not_mem_of_quoted hs rfl hR
  | national s =>
      have hcs : 'N' :: '\x27' :: (s.toList ++ '\x27' :: R) = a :: r := by
        simpa [Token.text] using hcs
      obtain ⟨rfl, rfl⟩ := List.cons.inj hcs
      obtain ⟨⟨s', k'⟩, hs, heq⟩ := bind_eq_ok.mp h
      cases heq
      exact not_mark_of_quoted hs rfl (hmark hR)
  | hex s =>
      have hcs : 'X' :: '\x27' :: (s.toList ++ '\x27' :: R) = a :: r := by
        simpa [Token.text] using hcs
      obtain ⟨rfl, rfl⟩ := List.cons.inj hcs
      obtain ⟨⟨s', k'⟩, hs, heq⟩ := bind_eq_ok.mp h
      cases heq
      exact not_mark_of_quoted hs rfl (hmark hR)
  | bytes q s =>
      have hcs : 'B' :: q :: (s.toList ++ q :: R) = a :: r := by simpa [Token.text] using hcs
      obtain ⟨rfl, rfl⟩ := List.cons.inj hcs
      have h : (quoted q false .openString (Cursor.skip 1 ⟨'B' :: q :: (s.toList ++ q :: R), l⟩) >>=
          fun x => .ok (Token.bytes q x.1, x.2)) = .ok (.bytes q s, k) := by
        rcases ht with rfl | rfl <;> exact h
      obtain ⟨⟨s', k'⟩, hs, heq⟩ := bind_eq_ok.mp h
      cases heq
      exact not_mem_of_quoted hs rfl hR
  | raw q triple s =>
      cases triple with
      | true => trivial
      | false =>
          have hcs : 'R' :: q :: (s.toList ++ q :: R) = a :: r := by simpa [Token.text] using hcs
          obtain ⟨rfl, rfl⟩ := List.cons.inj hcs
          have h : raw q (Cursor.skip 1 ⟨'R' :: q :: (s.toList ++ q :: R), l⟩) =
              .ok (.raw q false s, k) := by
            rcases ht.1 with rfl | rfl <;> exact h
          exact not_mem_of_raw h rfl ht.2 (hR.resolve_left Bool.false_ne_true)
  | _ => trivial

theorem ends_of_token_hex {ds : String} (h : token a r l = .ok (.hex ds, k))
    (hcs : (Token.hex ds).text.toList ++ R = a :: r) (hplain : (Token.hex ds).Plain) :
    (Token.hex ds).Ends R := by
  have hcs : 'X' :: '\x27' :: (ds.toList ++ '\x27' :: R) = a :: r := by simpa [Token.text] using hcs
  obtain ⟨rfl, rfl⟩ := List.cons.inj hcs
  obtain ⟨⟨s, k'⟩, hs, heq⟩ := bind_eq_ok.mp h
  cases heq
  obtain ⟨u, hu, l', hbody⟩ := quoted_inv hs
  intro hhead
  cases R with
  | nil => cases hhead
  | cons c R =>
      cases hhead
      obtain ⟨u', rfl⟩ := quotedBody_longer hbody (fun h => hplain _ h (Or.inl rfl))
        fun _ h => hplain _ h (Or.inr rfl)
      have := congrArg (fun s => s.toList.length) hu
      simp at this

theorem ends_of_token_lt (h : token a r l = .ok (.symbol .lt, k))
    (hcs : Symbol.lt.text.toList ++ R = a :: r) : (Token.symbol .lt).Ends R := by
  have hread := token_read h
  rw [← hcs] at hread
  have hends : (Token.symbol .lt).Ends k.rest := by
    rcases hread.ends with hends | ⟨_, ds, hds⟩
    · exact hends
    · cases hds
  rcases hread.source with hsource | ⟨hturned, _⟩
  · rw [List.append_cancel_left hsource]
    exact hends
  · have hturned : Turned ('<' :: R) ['<'] := hturned
    cases hturned with
    | quote mark => simp at mark

/-- A token that is read off its own text has no quote that would close it, and nothing that belongs
    to it follows. -/
theorem token_own (h : token a r l = .ok (t, k)) (hcs : t.text.toList ++ R = a :: r)
    (ht : t.Formed) (huncoded : t.Uncoded) (hback : R.head? ≠ some '\\')
    (hR : t.Ends R ∨ t.Plain ∧ ((∃ ds, t = .hex ds) ∨ t = .symbol .lt)) :
    t.Plain ∧ t.Ends R ∧ k.rest = R := by
  have hends : t.Ends R := by
    rcases hR with hR | ⟨hplain, ⟨ds, rfl⟩ | rfl⟩
    · exact hR
    · exact ends_of_token_hex h hcs hplain
    · exact ends_of_token_lt h hcs
  have hplain := plain_of_token h hcs ht hends hback
  obtain ⟨a', r', k', hcs', htoken, hrest⟩ := gives_of_plain ht hends hplain huncoded l
  obtain ⟨rfl, rfl⟩ := List.cons.inj (hcs.symm.trans hcs')
  rw [h] at htoken
  cases htoken
  exact ⟨hplain, hends, hrest⟩

end

/-! ## Tokens one after the other -/

/-- Tokens written back. -/
def written (ts : List Token) : List Char :=
  ts.flatMap fun t => t.text.toList

@[simp]
theorem written_cons (t : Token) (ts : List Token) :
    written (t :: ts) = t.text.toList ++ written ts :=
  List.flatMap_cons

end Scan

theorem Token.toList_render (ts : List Token) : (Token.render ts).toList = Scan.written ts := by
  induction ts with
  | nil => rfl
  | cons t ts ih =>
      rw [Scan.written_cons, ← ih]
      simp [Token.render, String.join_cons]

/-- Two tokens that run into each other when they are written back. -/
def Token.Clash : Token → Token → Prop
  | .hex _, .string _ => True
  | .symbol .lt, .symbol .neq => True
  | _, _ => False

namespace Scan

/-- Formed tokens, none of which is followed by what belongs to it unless it runs into the next. -/
def Settled : List Token → Prop
  | [] => True
  | t :: ts => t.Formed ∧ (t.Ends (written ts) ∨ t.Plain ∧ ∃ u ∈ ts.head?, t.Clash u) ∧ Settled ts

theorem not_ends_of_clash {t u : Token} (h : t.Clash u) (ts : List Token) :
    ¬t.Ends (written (u :: ts)) := by
  intro hends
  unfold Token.Clash at h
  split at h
  · exact hends (by simp [Token.text])
  · have hclear : Clear Symbol.lt.grows _ := hends
    have hgrows := Symbol.lt_grows
    rw [hclear '<' rfl] at hgrows
    cases hgrows
  · cases h

theorem exceptions_of_clash {t u : Token} (h : t.Clash u) :
    (∃ ds, t = .hex ds) ∨ t = .symbol .lt := by
  unfold Token.Clash at h
  split at h
  · exact Or.inl ⟨_, rfl⟩
  · exact Or.inr rfl
  · cases h

/-- Only a string begins with the quote, and only one symbol with the backslash. -/
theorem head_of_formed {t : Token} (h : t.Formed) : ∃ c, t.text.toList.head? = some c ∧
    (c = '\x27' → ∃ s, t = .string s) ∧ (c = '\\' → t = .symbol .backslash) := by
  have hother : ∀ {t : Token} c, t.text.toList.head? = some c → ¬IsMark c →
      ∃ c, t.text.toList.head? = some c ∧ (c = '\x27' → ∃ s, t = .string s) ∧
        (c = '\\' → t = .symbol .backslash) := fun c hc hmark =>
    ⟨c, hc, fun h => absurd (Or.inl h) hmark, fun h => absurd (Or.inr h) hmark⟩
  cases t with
  | string s => exact ⟨'\x27', by simp [Token.text], fun _ => ⟨s, rfl⟩, by simp⟩
  | word v q =>
      cases q with
      | none =>
          have hhead : ∃ c, v.toList.head? = some c ∧ isWordStart c = true := by
            have h : WordShape v.toList := h
            generalize v.toList = w at h
            cases h with
            | plain start => exact ⟨_, rfl, start⟩
            | _ => exact ⟨_, rfl, rfl⟩
          obtain ⟨c, hc, hstart⟩ := hhead
          refine hother c hc ?_
          rintro (rfl | rfl) <;> cases hstart
      | some q =>
          refine hother q (by simp [Token.text]) ?_
          rintro (rfl | rfl) <;> simp [Token.Formed] at h
  | number d long =>
      obtain ⟨a, r, hd, ha⟩ := NumberShape.head h
      refine hother a (by cases long <;> simp [Token.text, hd]) ?_
      rintro (rfl | rfl) <;> simp at ha
  | placeholder s =>
      rcases h with ⟨ds, hs, _⟩ | ⟨tag, hs, _⟩
      · exact hother '?' (by simp [Token.text, hs]) (by simp [IsMark])
      · exact hother '$' (by simp [Token.text, hs]) (by simp [IsMark])
  | symbol s =>
      obtain ⟨a, w, hw⟩ := List.exists_cons_of_ne_nil (Symbol.toList_text_ne_nil s)
      have hhead : s.text.toList.head? = some a := by rw [hw]; rfl
      have hmarks := (Symbol.listed (Symbol.text_mem_spellings s)).head
      rw [hhead, Option.all_some, decide_eq_true_iff] at hmarks
      refine ⟨a, hhead, fun ha => absurd ha hmarks.2.1, ?_⟩
      rintro rfl
      exact congrArg Token.symbol (hmarks.1 rfl)
  | char c =>
      refine hother c (by simp [Token.text]) ?_
      rintro (rfl | rfl)
      · simp [Token.Formed] at h
      · exact symbol?_ne_none (s := .backslash) rfl (h.2.2.2.2 [])
  | dollar tag s => exact hother '$' (by simp [Token.text, Token.dollarText]) (by simp [IsMark])
  | gap g => cases g <;> exact hother _ (by simp [Token.text, Gap.text]; rfl) (by simp [IsMark])
  | _ => exact hother _ (by simp [Token.text]; rfl) (by simp [IsMark])

theorem written_head_ne {ts : List Token} (h : Settled ts) (hback : .symbol .backslash ∉ ts) :
    (written ts).head? ≠ some '\\' := by
  cases ts with
  | nil => simp [written]
  | cons t ts =>
      obtain ⟨c, hc, _, hsymbol⟩ := head_of_formed h.1
      rw [written_cons, List.head?_append, hc]
      intro heq
      rw [hsymbol (Option.some.inj heq)] at hback
      exact hback List.mem_cons_self

theorem lexemes_cons {n : Nat} {a : Char} {r : List Char} {l : Position} {ls : List Lexeme}
    (h : lexemes (n + 1) ⟨a :: r, l⟩ = .ok ls) : ∃ t k ls', token a r l = .ok (t, k) ∧
      lexemes n k = .ok ls' ∧ ls = ⟨t, l⟩ :: ls' := by
  obtain ⟨⟨t, k⟩, htoken, h⟩ := bind_eq_ok.mp h
  obtain ⟨ls', hls', heq⟩ := bind_eq_ok.mp h
  cases heq
  exact ⟨t, k, ls', htoken, hls', rfl⟩

theorem lexemes_succ {n : Nat} {c : Cursor} {ls : List Lexeme} (h : lexemes (n + 1) c = .ok ls)
    (hne : ls ≠ []) : ∃ a r t k ls', c.rest = a :: r ∧ token a r c.position = .ok (t, k) ∧
      lexemes n k = .ok ls' ∧ ls = ⟨t, c.position⟩ :: ls' := by
  obtain ⟨cs, l⟩ := c
  cases cs with
  | nil =>
      cases h
      exact absurd rfl hne
  | cons a r =>
      obtain ⟨t, k, ls', hfound⟩ := lexemes_cons h
      exact ⟨a, r, t, k, ls', rfl, hfound⟩

/-- Scanning the text gives the tokens, wherever it stands. -/
def Scans (cs : List Char) (ts : List Token) : Prop :=
  ∀ n l, cs.length ≤ n → ∃ ls, lexemes n ⟨cs, l⟩ = .ok ls ∧ ls.map Lexeme.token = ts

theorem Scans.nil : Scans [] [] := fun n _ _ => ⟨[], by cases n <;> rfl, rfl⟩

theorem Scans.cons {cs rest : List Char} {t : Token} {ts : List Token} (h : Gives cs t rest)
    (hrest : Scans rest ts) : Scans cs (t :: ts) := by
  intro n l hn
  obtain ⟨a, r, k, rfl, htoken, hk⟩ := h l
  have hshorter := (token_read htoken).shorter
  rw [hk] at hshorter
  cases n with
  | zero => simp at hn
  | succ n =>
      obtain ⟨ls, hls, hmap⟩ := hrest n k.position (by omega)
      rw [← hk] at hls
      refine ⟨⟨t, l⟩ :: ls, ?_, by rw [List.map_cons, hmap]⟩
      simp [lexemes, htoken, hls, bind, Except.bind, pure, Except.pure]

/-- What is scanned begins with the token that the text gives. -/
theorem lexemes_of_gives {cs rest : List Char} {t : Token} (h : Gives cs t rest) {n : Nat}
    {l : Position} (hn : cs.length ≤ n) {ls : List Lexeme} (hls : lexemes n ⟨cs, l⟩ = .ok ls) :
    ∃ n' l' ls', rest.length ≤ n' ∧ lexemes n' ⟨rest, l'⟩ = .ok ls' ∧ ls = ⟨t, l⟩ :: ls' := by
  obtain ⟨a, r, k, rfl, htoken, hk⟩ := h l
  have hshorter := (token_read htoken).shorter
  rw [hk] at hshorter
  cases n with
  | zero => simp at hn
  | succ n =>
      obtain ⟨t', k', ls', htoken', hls', rfl⟩ := lexemes_cons hls
      rw [htoken] at htoken'
      cases htoken'
      exact ⟨n, k.position, ls', by omega, by rw [← hk]; exact hls', rfl⟩

section

variable {ts : List Token}

theorem scans_written (h : Settled ts) (huncoded : ∀ t ∈ ts, t.Uncoded)
    (hplain : ∀ t ∈ ts, t.Plain) (hchain : ts.IsChain fun t u => ¬t.Clash u) :
    Scans (written ts) ts := by
  induction ts with
  | nil => exact .nil
  | cons t ts ih =>
      obtain ⟨hformed, hends, hsettled⟩ := h
      rw [List.forall_mem_cons] at huncoded hplain
      rw [List.isChain_cons] at hchain
      have hclear : t.Ends (written ts) :=
        hends.resolve_right fun ⟨_, u, hu, h⟩ => hchain.1 u hu h
      rw [written_cons]
      exact .cons (gives_of_plain hformed hclear hplain.1 huncoded.1)
        (ih hsettled huncoded.2 hplain.2 hchain.2)

theorem plain_of_rescan (h : Settled ts) (huncoded : ∀ t ∈ ts, t.Uncoded)
    (hback : .symbol .backslash ∉ ts) {n : Nat} (hn : (written ts).length ≤ n) {l : Position}
    {ls : List Lexeme} (hls : lexemes n ⟨written ts, l⟩ = .ok ls)
    (hmap : ls.map Lexeme.token = ts) :
    (∀ t ∈ ts, t.Plain) ∧ ts.IsChain fun t u => ¬t.Clash u := by
  induction ts generalizing n l ls with
  | nil => exact ⟨by simp, .nil⟩
  | cons t ts ih =>
      obtain ⟨hformed, hends, hsettled⟩ := h
      rw [List.forall_mem_cons] at huncoded
      have hmore : .symbol .backslash ∉ ts := fun h => hback (List.mem_cons_of_mem _ h)
      rw [written_cons] at hn hls
      rw [List.forall_mem_cons, List.isChain_cons]
      cases n with
      | zero =>
          cases hls
          cases hmap
      | succ n =>
          obtain ⟨a, r, t', k, ls', hcs, htoken, hls', rfl⟩ := lexemes_succ hls (by
            rintro rfl
            cases hmap)
          simp only at hcs
          simp only [List.map_cons, List.cons.injEq] at hmap
          obtain ⟨rfl, hmap⟩ := hmap
          obtain ⟨hplain, hends, hrest⟩ := token_own htoken hcs hformed huncoded.1
            (written_head_ne hsettled hmore)
            (hends.imp id fun ⟨hplain, u, _, hclash⟩ => ⟨hplain, exceptions_of_clash hclash⟩)
          have hshorter := (token_read htoken).shorter
          rw [← hcs, hrest] at hshorter
          have hk : k = ⟨written ts, k.position⟩ := by rw [← hrest]
          rw [hk] at hls'
          obtain ⟨hothers, hchain⟩ := ih hsettled huncoded.2 hmore (by omega) hls' hmap
          refine ⟨⟨hplain, hothers⟩, fun u hu hclash => ?_, hchain⟩
          rw [← List.cons_head?_tail hu] at hends
          exact not_ends_of_clash hclash _ hends

/-- Which tokens are the same after they were written back and scanned. -/
theorem rescan_iff (h : Settled ts) (huncoded : ∀ t ∈ ts, t.Uncoded)
    (hback : .symbol .backslash ∉ ts) {n : Nat} (hn : (written ts).length ≤ n) (l : Position) :
    (∃ ls, lexemes n ⟨written ts, l⟩ = .ok ls ∧ ls.map Lexeme.token = ts) ↔
      (∀ t ∈ ts, t.Plain) ∧ ts.IsChain fun t u => ¬t.Clash u :=
  ⟨fun ⟨_, hls, hmap⟩ => plain_of_rescan h huncoded hback hn hls hmap,
    fun ⟨hplain, hchain⟩ => scans_written h huncoded hplain hchain n l hn⟩

end

/-! ## The tokens of a text -/

/-- The text begins with the tokens; it may have been written in another way. -/
structure Writes (cs : List Char) (ts : List Token) : Prop where
  alike : Alike cs (written ts)
  settled : Settled ts
  lt : (written ts).head? = some '<' → cs.head? = some '<' ∨ ts.head? = some (.symbol .neq)

theorem text_ne_nil_of_read {cs : List Char} {t : Token} {rest : List Char} (h : Read cs t rest) :
    t.text.toList ≠ [] := by
  intro hnil
  rcases h.source with hsource | ⟨hturned, _⟩
  · have := h.shorter
    rw [hsource, hnil] at this
    simp at this
  · rw [hnil] at hturned
    cases hturned

theorem Writes.cons {cs : List Char} {t : Token} {rest : List Char} {ts : List Token}
    (h : Read cs t rest) (hts : Writes rest ts) : Writes cs (t :: ts) where
  alike := by
    rw [written_cons]
    rcases h.source with rfl | ⟨hturned, _⟩
    · exact hts.alike.append _
    · exact .turned (hturned.append _)
  settled := by
    refine ⟨h.formed, ?_, hts.settled⟩
    rcases h.ends with hends | ⟨hplain, ds, rfl⟩
    · by_cases hlt : t = .symbol .lt ∧ (written ts).head? = some '<'
      · obtain ⟨rfl, hhead⟩ := hlt
        rcases hts.lt hhead with hrest | hneq
        · have hclear : Clear Symbol.lt.grows rest := hends
          have hgrows := Symbol.lt_grows
          rw [hclear '<' hrest] at hgrows
          cases hgrows
        · exact Or.inr ⟨trivial, _, hneq, trivial⟩
      · exact Or.inl (ends_of_alike hends h.formed hts.alike fun ht hhead => hlt ⟨ht, hhead⟩)
    · by_cases hquote : (written ts).head? = some '\x27'
      · right
        cases ts with
        | nil => cases hquote
        | cons u ts =>
            obtain ⟨c, hc, hstring, _⟩ := head_of_formed hts.settled.1
            rw [written_cons, List.head?_append, hc] at hquote
            obtain ⟨s, rfl⟩ := hstring (Option.some.inj hquote)
            exact ⟨hplain, _, rfl, trivial⟩
      · exact Or.inl hquote
  lt := by
    intro hhead
    obtain ⟨c, w, hw⟩ := List.exists_cons_of_ne_nil (text_ne_nil_of_read h)
    rw [written_cons, hw] at hhead
    cases hhead
    rcases h.source with hsource | ⟨_, hneq⟩
    · left
      rw [hsource, hw]
      rfl
    · right
      rw [hneq (by rw [hw]; rfl)]
      rfl

end Scan
end StreamSql
