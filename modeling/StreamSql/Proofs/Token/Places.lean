/-
  Positions of tokens. A cursor that was moved over some characters stands where these characters
  lead from its old position (`Reaches`). Every part of the scanner moves its cursor that way,
  whether it keeps the characters, changes them or drops them (`reaches_token`). So the position of
  a token is where the text before it leads (`stands_of_lexemes`). A token takes at least one
  character, so the tokens of a text stand one after the other, no two at the same position
  (`ahead_lexemes`).
-/
import StreamSql.Proofs.Token.Rescan

namespace StreamSql

open Outcome

/-! ## Positions in a text -/

namespace Position

/-- The position after some text that stands here. -/
def afterAll (l : Position) (cs : List Char) : Position :=
  cs.foldl after l

/-- The position is on an earlier line, or further left on the same one. -/
def Ahead (l m : Position) : Prop :=
  l.line < m.line ∨ l.line = m.line ∧ l.column < m.column

variable {l m n : Position}

theorem Ahead.trans (h : l.Ahead m) (h' : m.Ahead n) : l.Ahead n := by
  unfold Ahead at *
  omega

theorem Ahead.ne (h : l.Ahead m) : l ≠ m := by
  rintro rfl
  unfold Ahead at h
  omega

theorem ahead_after (l : Position) (c : Char) : l.Ahead (l.after c) := by
  unfold Ahead after
  split <;> simp

theorem ahead_afterAll (l : Position) {cs : List Char} (h : cs ≠ []) : l.Ahead (l.afterAll cs) := by
  induction cs generalizing l with
  | nil => exact absurd rfl h
  | cons c cs ih =>
      cases cs with
      | nil => exact l.ahead_after c
      | cons d cs => exact (l.ahead_after c).trans (ih (l.after c) (by simp))

/-- A text leads no further than it is long. -/
theorem afterAll_le (l : Position) (cs : List Char) : (l.afterAll cs).line ≤ l.line + cs.length ∧
    (l.afterAll cs).column ≤ max 1 l.column + cs.length := by
  induction cs generalizing l with
  | nil => exact ⟨Nat.le_refl _, Nat.le_max_right _ _⟩
  | cons c cs ih =>
      obtain ⟨hline, hcolumn⟩ := ih (l.after c)
      have hafter : (l.after c).line ≤ l.line + 1 ∧ (l.after c).column ≤ max 1 l.column + 1 := by
        unfold after
        split <;> constructor <;> dsimp only <;> omega
      have hcons : l.afterAll (c :: cs) = (l.after c).afterAll cs := rfl
      rw [hcons, List.length_cons]
      omega

/-- The position is kept in 32 bits as it is. -/
theorem narrow_of_lt (hline : l.line < UInt32.size) (hcolumn : l.column < UInt32.size) :
    l.narrow.line.toNat = l.line ∧ l.narrow.column.toNat = l.column :=
  ⟨Nat.mod_eq_of_lt hline, Nat.mod_eq_of_lt hcolumn⟩

end Position

/-! ## Cursors -/

namespace Cursor

/-- The second cursor stands further on in the same text, where the characters between lead. -/
def Reaches (c k : Cursor) : Prop :=
  ∃ taken, c.rest = taken ++ k.rest ∧ k.position = c.position.afterAll taken

variable {c k m : Cursor}

theorem Reaches.refl (c : Cursor) : Reaches c c :=
  ⟨[], rfl, rfl⟩

theorem Reaches.trans (h : c.Reaches k) (h' : k.Reaches m) : c.Reaches m := by
  obtain ⟨s, hs, hk⟩ := h
  obtain ⟨u, hu, hm⟩ := h'
  refine ⟨s ++ u, by rw [hs, hu, List.append_assoc], ?_⟩
  rw [hm, hk, Position.afterAll, Position.afterAll, Position.afterAll, List.foldl_append]

theorem Reaches.cons {a : Char} {r : List Char} {l : Position}
    (h : Reaches ⟨r, l.after a⟩ k) : Reaches ⟨a :: r, l⟩ k := by
  obtain ⟨s, hs, hk⟩ := h
  exact ⟨a :: s, congrArg (a :: ·) hs, hk⟩

theorem reaches_skip (n : Nat) (c : Cursor) : c.Reaches (c.skip n) := by
  induction n generalizing c with
  | zero => exact .refl c
  | succ n ih =>
      obtain ⟨cs, l⟩ := c
      cases cs with
      | nil => exact .refl _
      | cons a r => exact .cons (ih ⟨r, l.after a⟩)

theorem reaches_span (p : Char → Bool) (c : Cursor) : c.Reaches (c.span p).2 :=
  ⟨c.rest.takeWhile p, List.takeWhile_append_dropWhile.symm, rfl⟩

end Cursor

/-! ## Parts of the scanner -/

namespace Scan

open Cursor

variable {q : Char} {escapes : Bool} {cs s : List Char} {l : Position} {c k : Cursor} {n : Nat}

theorem reaches_quotedBody (h : quotedBody q escapes cs l = some (s, k)) : Reaches ⟨cs, l⟩ k := by
  fun_induction quotedBody q escapes cs l generalizing s with
  | case1 => cases h
  | case2 l r' ih =>
      obtain ⟨⟨u, k'⟩, hu, heq⟩ := Option.map_eq_some_iff.mp h
      cases heq
      exact (ih hu).cons.cons
  | case3 l d r' hd =>
      cases h
      exact .cons (.refl _)
  | case4 l =>
      cases h
      exact .cons (.refl _)
  | case5 l c hc he d r' ih =>
      obtain ⟨⟨u, k'⟩, hu, heq⟩ := Option.map_eq_some_iff.mp h
      cases heq
      exact (ih hu).cons.cons
  | case6 => cases h
  | case7 l c r hc he ih =>
      obtain ⟨⟨u, k'⟩, hu, heq⟩ := Option.map_eq_some_iff.mp h
      cases heq
      exact (ih hu).cons

theorem reaches_tripleBody {seen : Nat} (h : tripleBody q seen cs l = some (s, k)) :
    Reaches ⟨cs, l⟩ k := by
  induction cs generalizing seen l s with
  | nil => cases h
  | cons a r ih =>
      rw [tripleBody] at h
      split at h
      · split at h
        · cases h
          exact .cons (.refl _)
        · obtain ⟨⟨u, k'⟩, hu, heq⟩ := Option.map_eq_some_iff.mp h
          cases heq
          exact (ih hu).cons
      · obtain ⟨⟨u, k'⟩, hu, heq⟩ := Option.map_eq_some_iff.mp h
        cases heq
        exact (ih hu).cons

theorem reaches_escapedBody (h : escapedBody n c = some (s, k)) : c.Reaches k := by
  induction n generalizing c s with
  | zero => cases h
  | succ n ih =>
      unfold escapedBody at h
      split at h
      · cases h
      · split at h
        · split at h
          · obtain ⟨⟨u, k'⟩, hu, heq⟩ := Option.map_eq_some_iff.mp h
            cases heq
            exact (reaches_skip 2 c).trans (ih hu)
          · cases h
            exact reaches_skip 1 c
        · split at h
          · simp only [Option.bind_eq_bind, Option.bind_eq_some_iff, Option.pure_def] at h
            obtain ⟨⟨d, width⟩, _, ⟨u, k'⟩, hu, heq⟩ := h
            cases heq
            exact (reaches_skip (width + 1) c).trans (ih hu)
          · obtain ⟨⟨u, k'⟩, hu, heq⟩ := Option.map_eq_some_iff.mp h
            cases heq
            exact (reaches_skip 1 c).trans (ih hu)

theorem reaches_codeChar {value : Nat} {d : Char} (h : codeChar n value c = .ok (d, k)) :
    c.Reaches k := by
  induction n generalizing value c with
  | zero =>
      unfold codeChar at h
      split at h
      · cases h
        exact .refl _
      · cases h
  | succ n ih =>
      unfold codeChar at h
      split at h
      · cases h
      · split at h
        · exact (reaches_skip 1 c).trans (ih h)
        · cases h

theorem reaches_unicodeBody (h : unicodeBody n c = .ok (s, k)) : c.Reaches k := by
  induction n generalizing c s with
  | zero => cases h
  | succ n ih =>
      have hstep {c' : Cursor} {a : Char} (hc : c.Reaches c') (h : (do
          let p ← unicodeBody n c'
          return (a :: p.1, p.2) : Except ScanError (List Char × Cursor)) = .ok (s, k)) :
          c.Reaches k := by
        obtain ⟨⟨u, k'⟩, hu, heq⟩ := bind_eq_ok.mp h
        cases heq
        exact hc.trans (ih hu)
      unfold unicodeBody at h
      split at h
      · cases h
      · exact hstep (reaches_skip 2 c) h
      · cases h
        exact reaches_skip 1 c
      · exact hstep (reaches_skip 2 c) h
      · obtain ⟨⟨d, k₁⟩, hd, h⟩ := bind_eq_ok.mp h
        exact hstep ((reaches_skip 2 c).trans (reaches_codeChar hd)) h
      · obtain ⟨⟨d, k₁⟩, hd, h⟩ := bind_eq_ok.mp h
        exact hstep ((reaches_skip 1 c).trans (reaches_codeChar hd)) h
      · exact hstep (reaches_skip 1 c) h

theorem reaches_dollarBody {lone : Bool} (h : dollarBody lone cs l = .ok (s, k)) :
    Reaches ⟨cs, l⟩ k := by
  induction cs generalizing lone l s with
  | nil => cases lone <;> simp [dollarBody] at h
  | cons a r ih =>
      unfold dollarBody at h
      split at h
      · split at h
        · cases h
          exact .cons (.refl _)
        · obtain ⟨⟨u, k'⟩, hu, heq⟩ := bind_eq_ok.mp h
          cases heq
          exact (ih hu).cons
      · split at h
        · exact (ih h).cons
        · obtain ⟨⟨u, k'⟩, hu, heq⟩ := bind_eq_ok.mp h
          cases heq
          exact (ih hu).cons

theorem reaches_taggedBody {tag : List Char} (h : taggedBody tag n c = .ok (s, k)) :
    c.Reaches k := by
  induction n generalizing c s with
  | zero => cases h
  | succ n ih =>
      have hspan := reaches_span (· ≠ '$') c
      unfold taggedBody at h
      simp only at h
      split at h
      · cases h
      · rename_i r _
        have hskip := hspan.trans (reaches_skip (commonLength tag r + 1) _)
        split at h
        · split at h
          · cases h
            exact hskip.trans (reaches_skip 1 _)
          · obtain ⟨⟨u, k'⟩, hu, heq⟩ := bind_eq_ok.mp h
            cases heq
            exact hskip.trans (ih hu)
        · split at h
          · obtain ⟨⟨u, k'⟩, hu, heq⟩ := bind_eq_ok.mp h
            cases heq
            exact (hspan.trans (reaches_skip _ _)).trans (ih hu)
          · cases h

theorem reaches_commentBody {depth : Nat} {last : Char}
    (h : commentBody depth last cs l = .ok (s, k)) : Reaches ⟨cs, l⟩ k := by
  induction cs generalizing depth last l s with
  | nil => simp [commentBody] at h
  | cons a r ih =>
      unfold commentBody at h
      split at h
      · cases depth with
        | zero =>
            cases h
            exact .cons (.refl _)
        | succ depth =>
            obtain ⟨⟨u, k'⟩, hu, heq⟩ := bind_eq_ok.mp h
            cases heq
            exact (ih hu).cons
      · obtain ⟨⟨u, k'⟩, hu, heq⟩ := bind_eq_ok.mp h
        cases heq
        exact (ih hu).cons

/-! ### Whole tokens -/

variable {a : Char} {r : List Char} {t : Token}

theorem reaches_quoted {fault : ScanFault} {u : String} (h : quoted q escapes fault c = .ok (u, k)) :
    c.Reaches k := by
  unfold quoted at h
  simp only at h
  split at h
  · rename_i hbody
    cases h
    exact (reaches_skip 1 c).trans (reaches_quotedBody hbody)
  · cases h

theorem reaches_raw (h : raw q c = .ok (t, k)) : c.Reaches k := by
  unfold raw at h
  split at h
  · cases h
  · simp only at h
    split at h
    · rename_i hbody
      cases h
      exact (reaches_skip 1 c).trans (reaches_quotedBody hbody)
    · cases h
  · cases h
    exact reaches_skip 2 c
  · simp only at h
    split at h
    · rename_i hbody
      cases h
      exact (reaches_skip 3 c).trans (reaches_tripleBody hbody)
    · cases h

theorem reaches_dollar (h : dollar c = .ok (t, k)) : c.Reaches k := by
  unfold dollar at h
  split at h
  · rename_i r hc
    obtain ⟨⟨u, k'⟩, hu, heq⟩ := bind_eq_ok.mp h
    cases heq
    have hskip := reaches_skip 2 c
    have hrest : c.skip 2 = ⟨r, (c.skip 2).position⟩ := by
      obtain ⟨cs, l⟩ := c
      cases hc
      rfl
    rw [hrest] at hskip
    exact hskip.trans (reaches_dollarBody hu)
  · have hspan := (reaches_skip 1 c).trans (reaches_span
      (fun x => Text.isLetter x || Text.isNumeral x || x = '_') (c.skip 1))
    simp only at h
    split at h
    · obtain ⟨⟨u, k'⟩, hu, heq⟩ := bind_eq_ok.mp h
      cases heq
      exact (hspan.trans (reaches_skip 1 _)).trans (reaches_taggedBody hu)
    · cases h
      exact hspan

theorem reaches_finish {digits : List Char} : c.Reaches (number.finish digits c).2 := by
  unfold number.finish
  simp only
  split
  · exact (reaches_skip _ c).trans (reaches_skip 1 _)
  · exact reaches_skip _ c

theorem reaches_number (c : Cursor) : c.Reaches (number c).2 := by
  have hspan := reaches_span Char.isDigit c
  have hfraction (p : Char → Bool) :=
    (hspan.trans (reaches_skip 1 _)).trans (reaches_span p _)
  unfold number
  simp only
  split
  · split
    · exact hfraction isHexDigit
    · exact hspan.trans reaches_finish
  · split
    · exact hfraction Char.isDigit
    · exact (hfraction Char.isDigit).trans reaches_finish
  · exact hspan.trans reaches_finish

theorem reaches_word (n : Nat) (c : Cursor) : c.Reaches (word n c).2 :=
  (reaches_skip n c).trans (reaches_span isWordPart _)

theorem reaches_lineComment (c : Cursor) : c.Reaches (lineComment c).2 := by
  have hspan := (reaches_skip 2 c).trans (reaches_span (· ≠ '\n') _)
  unfold lineComment
  simp only
  split
  · exact hspan.trans (reaches_skip 1 _)
  · exact hspan

theorem reaches_marked : c.Reaches (token.marked a r c).2 := by
  unfold token.marked
  split
  · split
    · exact reaches_skip 1 c
    · exact reaches_skip 1 c
    · exact reaches_word 2 c
  · split
    · exact reaches_skip 1 c
    · exact reaches_skip 1 c
    · exact reaches_word 2 c
  · split
    · exact reaches_skip 2 c
    · exact reaches_skip 2 c
    · exact reaches_word 3 c
  · exact reaches_skip _ c
  · exact reaches_skip 1 c

theorem reaches_lettered (h : token.lettered a r c = .ok (t, k)) : c.Reaches k := by
  have hquoted {q : Char} {escapes : Bool} {make : String → Token} (h : (do
      let p ← quoted q escapes .openString (c.skip 1)
      return (make p.1, p.2) : Except ScanError (Token × Cursor)) = .ok (t, k)) : c.Reaches k := by
    obtain ⟨⟨u, k'⟩, hu, heq⟩ := bind_eq_ok.mp h
    cases heq
    exact (reaches_skip 1 c).trans (reaches_quoted hu)
  unfold token.lettered at h
  split at h
  · exact hquoted h
  · exact hquoted h
  · exact hquoted h
  · exact hquoted h
  · exact (reaches_skip 1 c).trans (reaches_raw h)
  · exact (reaches_skip 1 c).trans (reaches_raw h)
  · split at h
    · rename_i hbody
      cases h
      exact (reaches_skip 2 c).trans (reaches_escapedBody hbody)
    · cases h
  · obtain ⟨⟨u, k'⟩, hu, heq⟩ := bind_eq_ok.mp h
    cases heq
    exact (reaches_skip 3 c).trans (reaches_unicodeBody hu)
  · cases h
    exact reaches_word 1 c

theorem reaches_token (h : token a r l = .ok (t, k)) : Reaches ⟨a :: r, l⟩ k := by
  unfold token at h
  simp only at h
  split at h
  case h_1 | h_2 | h_3 | h_5 =>
    cases h
    exact reaches_skip 1 _
  case h_4 =>
    cases h
    exact reaches_skip 2 _
  case h_6 =>
    obtain ⟨⟨u, k'⟩, hu, heq⟩ := bind_eq_ok.mp h
    cases heq
    exact reaches_quoted hu
  case h_7 =>
    obtain rfl : _ = k := congrArg Prod.snd (Except.ok.inj h)
    exact reaches_lineComment _
  case h_8 =>
    obtain ⟨⟨u, k'⟩, hu, heq⟩ := bind_eq_ok.mp h
    cases heq
    exact (reaches_skip 2 _).trans (reaches_commentBody hu)
  case h_9 => exact reaches_dollar h
  case h_10 =>
    cases h
    exact (reaches_skip 1 _).trans (reaches_span Text.isNumeral _)
  case h_11 =>
    split at h
    · obtain ⟨⟨u, k'⟩, hu, heq⟩ := bind_eq_ok.mp h
      cases heq
      exact reaches_quoted hu
    · split at h
      · obtain rfl : _ = k := congrArg Prod.snd (Except.ok.inj h)
        exact reaches_number _
      · split at h
        · obtain rfl : _ = k := congrArg Prod.snd (Except.ok.inj h)
          exact reaches_marked
        · split at h
          · exact reaches_lettered h
          · split at h
            · cases h
              exact reaches_skip _ _
            · cases h
              exact reaches_skip 1 _

/-! ## Positions of tokens -/

/-- A token takes a character at least, so the next one stands further on. -/
theorem ahead_token (h : token a r l = .ok (t, k)) : l.Ahead k.position := by
  obtain ⟨taken, hrest, hlocation⟩ := reaches_token h
  have hshorter := (token_read h).shorter
  have hne : taken ≠ [] := by
    rintro rfl
    rw [show a :: r = k.rest from hrest] at hshorter
    exact Nat.lt_irrefl _ hshorter
  rw [hlocation]
  exact l.ahead_afterAll hne

variable {ls : List Lexeme} {text : String}

/-- The token begins after some of the text, and its position is where these characters lead. -/
def Stands (l : Lexeme) (c : Cursor) : Prop :=
  ∃ before after rest, c.rest = before ++ after ∧ l.position = c.position.afterAll before ∧
    Read after l.token rest

theorem Stands.of_reaches {x : Lexeme} (h : Stands x k) (hk : c.Reaches k) : Stands x c := by
  obtain ⟨before, after, rest, hrest, hplace, hread⟩ := h
  obtain ⟨taken, htaken, hposition⟩ := hk
  refine ⟨taken ++ before, after, rest, by rw [htaken, hrest, List.append_assoc], ?_, hread⟩
  rw [hplace, hposition, Position.afterAll, Position.afterAll, Position.afterAll, List.foldl_append]

theorem stands_of_lexemes (h : lexemes n c = .ok ls) {x : Lexeme} (hx : x ∈ ls) : Stands x c := by
  induction n generalizing c ls with
  | zero =>
      cases h
      cases hx
  | succ n ih =>
      obtain ⟨a, r, t, k, ls', hrest, htoken, hls', rfl⟩ := lexemes_succ h (List.ne_nil_of_mem hx)
      obtain ⟨cs, l⟩ := c
      cases hrest
      rcases List.mem_cons.mp hx with rfl | hx
      · exact ⟨[], a :: r, k.rest, rfl, rfl, token_read htoken⟩
      · exact (ih hls' hx).of_reaches (reaches_token htoken)

/-- The tokens of a text stand one after the other. -/
theorem ahead_lexemes (h : lexemes n c = .ok ls) :
    ls.Pairwise fun a b => a.position.Ahead b.position := by
  induction n generalizing c ls with
  | zero =>
      cases h
      exact .nil
  | succ n ih =>
      cases ls with
      | nil => exact .nil
      | cons a ls =>
          obtain ⟨_, _, t, k, ls', _, htoken, hls', heq⟩ := lexemes_succ h (by simp)
          cases heq
          refine .cons (fun b hb => ?_) (ih hls')
          obtain ⟨before, _, _, _, hplace, _⟩ := stands_of_lexemes hls' hb
          rw [hplace]
          cases before with
          | nil => exact ahead_token htoken
          | cons d ds => exact (ahead_token htoken).trans (k.position.ahead_afterAll (by simp))

/-- Each number of a token's position is at most the length of the text. -/
theorem position_le (h : Lexeme.scan text = .ok ls) {x : Lexeme} (hx : x ∈ ls) :
    x.position.line ≤ text.length ∧ x.position.column ≤ text.length := by
  obtain ⟨before, after, rest, htext, hplace, hread⟩ := stands_of_lexemes h hx
  have hlength : text.length = before.length + after.length := by
    rw [← String.length_toList, ← List.length_append]
    exact congrArg List.length htext
  have hstart : (Cursor.start text.toList).position = ⟨1, 1⟩ := rfl
  have hshorter := hread.shorter
  have hle := Position.afterAll_le ⟨1, 1⟩ before
  rw [hplace, hstart]
  dsimp only at hle
  omega

end Scan

end StreamSql
