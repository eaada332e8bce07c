/-
  What stands between quotes and other marks, read and read again. `doubled` is what the scanner
  expects between plain quotes; text in which a quote is written once is not read as it stands
  (`append_ne_doubled`). Text after which the scanner has to look for another quote is read again as
  long as none follows; text up to a mark that is looked for character by character is read again
  whatever follows.
-/
import Mathlib.Data.List.TakeWhile
import StreamSql.Proofs.Outcome
import StreamSql.Token.Scan

namespace StreamSql

open Outcome

namespace Cursor

@[simp]
theorem rest_skip (n : Nat) (c : Cursor) : (c.skip n).rest = c.rest.drop n := by
  fun_induction skip with
  | case1 => rfl
  | case2 => simp
  | case3 n c r l ih => simpa using ih

theorem skip_eq (n : Nat) (c : Cursor) : c.skip n = ⟨c.rest.drop n, (c.skip n).position⟩ := by
  rw [← rest_skip]

end Cursor

namespace Scan

theorem head?_ne {q : Char} {r : List Char} (h : ∀ tail, r ≠ q :: tail) : r.head? ≠ some q := by
  cases r with
  | nil => simp
  | cons c r =>
      intro hc
      cases hc
      exact h r rfl

/-- A run of characters that pass a test, and what follows it. -/
theorem takeWhile_run {p : Char → Bool} {w r : List Char} (hw : ∀ c ∈ w, p c = true)
    (hr : ∀ c ∈ r.head?, p c = false) : (w ++ r).takeWhile p = w := by
  rw [List.takeWhile_append_of_pos hw]
  cases r with
  | nil => simp
  | cons c r => simp [hr c rfl]

theorem dropWhile_run {p : Char → Bool} {w r : List Char} (hw : ∀ c ∈ w, p c = true)
    (hr : ∀ c ∈ r.head?, p c = false) : (w ++ r).dropWhile p = r := by
  rw [List.dropWhile_append_of_pos hw]
  cases r with
  | nil => simp
  | cons c r => simp [hr c rfl]

theorem span_run {p : Char → Bool} {w r : List Char} {c : Cursor} (hc : c.rest = w ++ r)
    (hw : ∀ c ∈ w, p c = true) (hr : ∀ c ∈ r.head?, p c = false) :
    c.span p = (w, ⟨r, w.foldl Position.after c.position⟩) := by
  simp only [Cursor.span, hc, takeWhile_run hw hr, dropWhile_run hw hr]

theorem head?_dropWhile {p : Char → Bool} {cs : List Char} :
    ∀ c ∈ (cs.dropWhile p).head?, p c = false := by
  intro c hc
  have hhead := List.head?_dropWhile_not p cs
  rw [Option.mem_def.mp hc] at hhead
  exact hhead

/-! ## Quotes -/

section

variable {q : Char} {escapes : Bool} {cs s rest : List Char} {l : Position} {k : Cursor}

theorem quotedBody_close (hr : rest.head? ≠ some q) :
    quotedBody q escapes (q :: rest) l = some ([], ⟨rest, l.after q⟩) := by
  cases rest with
  | nil => simp [quotedBody]
  | cons d rest =>
      have hd : d ≠ q := by simpa using hr
      simp [quotedBody, hd]

theorem quotedBody_other {c : Char} (hc : c ≠ q) (he : (escapes && decide (c = '\\')) = false) :
    quotedBody q escapes (c :: rest) l =
      (quotedBody q escapes rest (l.after c)).map fun (s, k) => (c :: s, k) := by
  rw [quotedBody.eq_def]
  simp only [hc, if_false, he, Bool.false_eq_true]

/-- Quoted text either ends at once or gives a character: one that stands for itself, a doubled
    quote, or one that a backslash leads in. -/
theorem quotedBody_inv (h : quotedBody q escapes cs l = some (s, k)) :
    (∃ r, cs = q :: r ∧ r.head? ≠ some q ∧ s = [] ∧ k.rest = r) ∨
      ∃ used c r l' s', cs = used ++ r ∧ s = c :: s' ∧ quotedBody q escapes r l' = some (s', k) ∧
        ((used = [c] ∧ c ≠ q ∧ (escapes && decide (c = '\\')) = false) ∨ (used = [q, q] ∧ c = q) ∨
          (escapes = true ∧ ∃ d, used = ['\\', d] ∧ c = unescape d)) := by
  cases cs with
  | nil => simp [quotedBody] at h
  | cons c r =>
      rw [quotedBody.eq_def] at h
      simp only at h
      split at h
      case isTrue hc =>
        subst hc
        cases r with
        | nil =>
            cases h
            exact Or.inl ⟨[], rfl, by simp, rfl, rfl⟩
        | cons d r =>
            simp only at h
            split at h
            case isTrue hd =>
              subst hd
              obtain ⟨⟨s', k'⟩, h', heq⟩ := Option.map_eq_some_iff.mp h
              cases heq
              exact Or.inr ⟨[d, d], d, r, _, s', rfl, rfl, h', Or.inr (Or.inl ⟨rfl, rfl⟩)⟩
            case isFalse hd =>
              cases h
              exact Or.inl ⟨d :: r, rfl, by simpa using hd, rfl, rfl⟩
      case isFalse hc =>
        split at h
        case isTrue he =>
          rw [Bool.and_eq_true, decide_eq_true_iff] at he
          obtain ⟨he, rfl⟩ := he
          cases r with
          | nil => cases h
          | cons d r =>
              obtain ⟨⟨s', k'⟩, h', heq⟩ := Option.map_eq_some_iff.mp h
              cases heq
              exact Or.inr ⟨['\\', d], _, r, _, s', rfl, rfl, h', Or.inr (Or.inr ⟨he, d, rfl, rfl⟩)⟩
        case isFalse he =>
          obtain ⟨⟨s', k'⟩, h', heq⟩ := Option.map_eq_some_iff.mp h
          cases heq
          exact Or.inr ⟨[c], c, r, _, s', rfl, rfl, h', Or.inl ⟨rfl, hc, Bool.eq_false_iff.mpr he⟩⟩

/-- Text without a quote and without a backslash that counts is read up to the closing quote. -/
theorem quotedBody_plain (hs : q ∉ s) (he : escapes = true → '\\' ∉ s) (hr : rest.head? ≠ some q)
    (l : Position) :
    ∃ k, quotedBody q escapes (s ++ q :: rest) l = some (s, k) ∧ k.rest = rest := by
  induction s generalizing l with
  | nil => exact ⟨_, quotedBody_close hr, rfl⟩
  | cons c s ih =>
      simp only [List.mem_cons, not_or] at hs he
      obtain ⟨k, hk, hrest⟩ := ih hs.2 (fun h => (he h).2) (l.after c)
      have hescape : (escapes && decide (c = '\\')) = false := by
        cases escapes with
        | false => rfl
        | true => simpa using Ne.symm (he rfl).1
      refine ⟨k, ?_, hrest⟩
      rw [List.cons_append, quotedBody_other (Ne.symm hs.1) hescape, hk]
      rfl

/-- Quoted text ends where no other quote follows. -/
theorem quotedBody_ends (h : quotedBody q escapes cs l = some (s, k)) :
    k.rest.head? ≠ some q ∧ k.rest.length < cs.length := by
  induction hn : cs.length using Nat.strongRecOn generalizing cs l s with
  | ind n ih =>
      rcases quotedBody_inv h with ⟨r, rfl, hr, _, rfl⟩ | ⟨used, c, r, l', s', rfl, _, h', hused⟩
      · exact ⟨hr, by simp [← hn]⟩
      · have hlt : r.length < n := by
          rcases hused with ⟨rfl, _⟩ | ⟨rfl, _⟩ | ⟨_, d, rfl, _⟩ <;> simp at hn <;> omega
        obtain ⟨hne, hlen⟩ := ih r.length hlt h' rfl
        exact ⟨hne, by omega⟩

/-- A quote right after the closing one belongs to the text. -/
theorem quotedBody_longer {u : List Char}
    (h : quotedBody q escapes (s ++ q :: q :: rest) l = some (u, k)) (hs : q ∉ s)
    (he : escapes = true → '\\' ∉ s) : ∃ u', u = s ++ q :: u' := by
  induction s generalizing l u with
  | nil =>
      rw [List.nil_append, quotedBody.eq_def] at h
      simp only [if_true] at h
      obtain ⟨⟨u', k'⟩, _, heq⟩ := Option.map_eq_some_iff.mp h
      cases heq
      exact ⟨u', rfl⟩
  | cons c s ih =>
      simp only [List.mem_cons, not_or] at hs he
      have hescape : (escapes && decide (c = '\\')) = false := by
        cases escapes with
        | false => rfl
        | true => simpa using Ne.symm (he rfl).1
      rw [List.cons_append, quotedBody_other (Ne.symm hs.1) hescape] at h
      obtain ⟨⟨u', k'⟩, hu', heq⟩ := Option.map_eq_some_iff.mp h
      cases heq
      obtain ⟨u'', rfl⟩ := ih hu' hs.2 fun h => (he h).2
      exact ⟨u'', rfl⟩

/-- Each quote written twice. -/
def doubled (q : Char) (s : List Char) : List Char :=
  s.flatMap fun c => if c = q then [q, q] else [c]

theorem doubled_cons (c : Char) :
    doubled q (c :: s) = (if c = q then [q, q] else [c]) ++ doubled q s :=
  List.flatMap_cons

theorem doubled_of_not_mem (hs : q ∉ s) : doubled q s = s := by
  induction s with
  | nil => rfl
  | cons c s ih =>
      simp only [List.mem_cons, not_or] at hs
      rw [doubled_cons, if_neg (Ne.symm hs.1), ih hs.2]
      rfl

/-- Without escapes, what was read stands there with its quotes doubled. -/
theorem eq_of_quotedBody (h : quotedBody q false cs l = some (s, k)) :
    cs = doubled q s ++ q :: k.rest := by
  induction s generalizing cs l with
  | nil =>
      rcases quotedBody_inv h with ⟨r, rfl, _, _, rfl⟩ | ⟨_, _, _, _, _, _, hs, _⟩
      · rfl
      · cases hs
  | cons c s ih =>
      rcases quotedBody_inv h with ⟨_, _, _, hs, _⟩ | ⟨used, _, r, _, _, rfl, hs, h', hused⟩
      · cases hs
      · cases hs
        rw [ih h', doubled_cons]
        rcases hused with ⟨rfl, hne, _⟩ | ⟨rfl, rfl⟩ | ⟨he, _⟩
        · simp [hne]
        · simp
        · cases he

/-- Without escapes, doubled quotes are read once each. -/
theorem quotedBody_doubled (hr : rest.head? ≠ some q) (l : Position) :
    ∃ k, quotedBody q false (doubled q s ++ q :: rest) l = some (s, k) ∧ k.rest = rest := by
  induction s generalizing l with
  | nil => exact ⟨_, quotedBody_close hr, rfl⟩
  | cons c s ih =>
      rw [doubled_cons]
      by_cases hc : c = q
      · obtain ⟨k, hk, hrest⟩ := ih ((l.after q).after q)
        exact ⟨k, by simp [quotedBody, hc, hk], hrest⟩
      · obtain ⟨k, hk, hrest⟩ := ih (l.after c)
        refine ⟨k, ?_, hrest⟩
        rw [if_neg hc, List.append_assoc, List.singleton_append, quotedBody_other hc rfl, hk]
        rfl

/-- Quotes that are written once are not read as they stand: the text behind the closing quote does
    not make up for those that get lost. -/
theorem append_ne_doubled {rest' : List Char} (hq : q ∈ s) (hr : rest.head? ≠ some q) :
    s ++ q :: rest ≠ doubled q s ++ q :: rest' := by
  have hmore : ∀ (s : List Char) (n : Nat),
      s ++ q :: rest ≠ List.replicate (n + 1) q ++ doubled q s ++ q :: rest' := by
    intro s
    induction s with
    | nil =>
        intro n h
        rw [List.replicate_succ] at h
        have hrest : rest = List.replicate n q ++ q :: rest' := by simpa [doubled] using h
        cases n <;> simp [hrest, List.replicate_succ] at hr
    | cons c s ih =>
        intro n h
        rw [List.replicate_succ] at h
        obtain ⟨rfl, h⟩ := List.cons.inj h
        refine ih (n + 1) (h.trans ?_)
        rw [doubled_cons, if_pos rfl, List.replicate_succ', List.replicate_succ']
        simp
  induction s with
  | nil => cases hq
  | cons c s ih =>
      rw [doubled_cons]
      by_cases hc : c = q
      · rw [if_pos hc, hc]
        intro h
        exact hmore s 0 (List.cons.inj h).2
      · rw [if_neg hc]
        have hq : q ∈ s := by
          rcases List.mem_cons.mp hq with rfl | hq
          · exact absurd rfl hc
          · exact hq
        intro h
        exact ih hq (List.cons.inj h).2

/-! ## Backslashes in quotes

With escapes, quotes and backslashes are marks: each comes out of two marks. Text that holds one is
not read as it stands. From its first mark on the reader is ahead of what it gives, everything it
still has to give must be marks, and so it reads marks up to the closing quote and behind it. -/

/-- A quote or a backslash. -/
def IsMark (c : Char) : Prop :=
  c = '\x27' ∨ c = '\\'

theorem unescape_eq_mark {c d : Char} (hc : IsMark c) (h : unescape d = c) : d = c := by
  unfold unescape at h
  split at h
  case h_9 => exact h
  all_goals
    subst h
    rcases hc with h | h <;> cases h

theorem quotedBody_mark {c : Char} (hc : IsMark c)
    (h : quotedBody '\x27' true cs l = some (c :: s, k)) :
    ∃ a b r l', cs = a :: b :: r ∧ IsMark a ∧ IsMark b ∧
      quotedBody '\x27' true r l' = some (s, k) := by
  rcases quotedBody_inv h with ⟨_, _, _, hs, _⟩ | ⟨used, c', r, l', s', rfl, hs, h', hused⟩
  · cases hs
  · obtain ⟨rfl, rfl⟩ := List.cons.inj hs
    rcases hused with ⟨_, hquote, hback⟩ | ⟨rfl, rfl⟩ | ⟨_, d, rfl, hd⟩
    · rcases hc with rfl | rfl
      · exact absurd rfl hquote
      · cases hback
    · exact ⟨_, _, r, l', rfl, hc, hc, h'⟩
    · rw [unescape_eq_mark hc hd.symm]
      exact ⟨_, _, r, l', rfl, Or.inr rfl, hc, h'⟩

/-- The reader cannot be ahead by marks. -/
theorem quotedBody_ahead {x w : List Char} (hx : x ≠ []) (hmarks : ∀ c ∈ x, IsMark c)
    (hr : ∀ c ∈ rest.head?, ¬IsMark c) :
    quotedBody '\x27' true (w ++ '\x27' :: rest) l ≠ some (x ++ w, k) := by
  induction hn : w.length using Nat.strongRecOn generalizing w x l with
  | ind n ih =>
      intro h
      obtain ⟨c, x, rfl⟩ := List.exists_cons_of_ne_nil hx
      rw [List.cons_append] at h
      obtain ⟨a, b, r, l', hcs, ha, hb, h'⟩ := quotedBody_mark (hmarks c List.mem_cons_self) h
      have hmarks := fun d hd => hmarks d (List.mem_cons_of_mem c hd)
      match w with
      | [] =>
          obtain ⟨_, rfl⟩ := List.cons.inj hcs
          exact hr b rfl hb
      | [a'] =>
          simp only [List.cons_append, List.nil_append, List.cons.injEq] at hcs
          obtain ⟨rfl, _, rfl⟩ := hcs
          have hall : ∀ d ∈ x ++ [a'], IsMark d := by
            intro d hd
            rcases List.mem_append.mp hd with hd | hd
            · exact hmarks d hd
            · rw [List.mem_singleton.mp hd]
              exact ha
          obtain ⟨d, y, hy⟩ := List.exists_cons_of_ne_nil (List.append_ne_nil_of_right_ne_nil x
            (List.cons_ne_nil a' []))
          rw [hy] at h' hall
          obtain ⟨a₂, _, _, _, rfl, ha₂, _⟩ := quotedBody_mark (hall d List.mem_cons_self) h'
          exact hr a₂ rfl ha₂
      | a' :: b' :: w =>
          simp only [List.cons_append, List.cons.injEq] at hcs
          obtain ⟨rfl, rfl, rfl⟩ := hcs
          refine ih w.length (by simp at hn; omega) (x := x ++ [a', b']) (w := w) (by simp) ?_ rfl
            (l := l') (by simpa using h')
          intro d hd
          simp only [List.mem_append, List.mem_cons, List.not_mem_nil, or_false] at hd
          rcases hd with hd | rfl | rfl
          · exact hmarks d hd
          · exact ha
          · exact hb

theorem not_mark_of_quotedBody (h : quotedBody '\x27' true (s ++ '\x27' :: rest) l = some (s, k))
    (hr : ∀ c ∈ rest.head?, ¬IsMark c) : ∀ c ∈ s, ¬IsMark c := by
  induction s generalizing l with
  | nil => simp
  | cons c s ih =>
      by_cases hc : IsMark c
      · exfalso
        obtain ⟨a, b, r, l', hcs, ha, hb, h'⟩ := quotedBody_mark hc h
        cases s with
        | nil =>
            simp only [List.cons_append, List.nil_append, List.cons.injEq] at hcs
            obtain ⟨_, _, rfl⟩ := hcs
            rcases quotedBody_inv h' with ⟨r', rfl, _⟩ | ⟨_, _, _, _, _, _, hs, _⟩
            · exact hr _ rfl (Or.inl rfl)
            · cases hs
        | cons b' s =>
            simp only [List.cons_append, List.cons.injEq] at hcs
            obtain ⟨_, rfl, rfl⟩ := hcs
            exact quotedBody_ahead (x := [b']) (by simp) (by simpa using hb) hr h'
      · have hquote : c ≠ '\x27' := fun h => hc (Or.inl h)
        have hback : c ≠ '\\' := fun h => hc (Or.inr h)
        rw [List.cons_append, quotedBody_other hquote (by simpa using hback)] at h
        obtain ⟨⟨s', k'⟩, h', heq⟩ := Option.map_eq_some_iff.mp h
        cases heq
        intro d hd
        rcases List.mem_cons.mp hd with rfl | hd
        · exact hc
        · exact ih h' d hd

/-! ## Codes in quotes -/

theorem escapedBody_plain (hs : '\x27' ∉ s) (he : '\\' ∉ s) (hr : rest.head? ≠ some '\x27') {n : Nat}
    (hn : s.length < n) (l : Position) :
    ∃ k, escapedBody n ⟨s ++ '\x27' :: rest, l⟩ = some (s, k) ∧ k.rest = rest := by
  induction s generalizing n l with
  | nil =>
      cases n with
      | zero => cases hn
      | succ n =>
          cases rest with
          | nil => exact ⟨_, by simp [escapedBody]; rfl, by simp⟩
          | cons d rest =>
              have hd : d ≠ '\x27' := by simpa using hr
              exact ⟨_, by simp [escapedBody, hd]; rfl, by simp⟩
  | cons c s ih =>
      cases n with
      | zero => cases hn
      | succ n =>
          simp only [List.mem_cons, not_or] at hs he
          obtain ⟨k, hk, hrest⟩ := ih hs.2 he.2 (Nat.lt_of_succ_lt_succ hn) (l.after c)
          refine ⟨k, ?_, hrest⟩
          simp [escapedBody, Ne.symm hs.1, Ne.symm he.1, Cursor.skip, hk]

theorem escapedBody_ends {n : Nat} {c : Cursor} (h : escapedBody n c = some (s, k)) :
    k.rest.head? ≠ some '\x27' ∧ k.rest.length < c.rest.length := by
  induction n generalizing c s with
  | zero => cases h
  | succ n ih =>
      have hstep : ∀ {m s'}, 0 < m → escapedBody n (c.skip m) = some (s', k) →
          k.rest.head? ≠ some '\x27' ∧ k.rest.length < c.rest.length := by
        intro m s' hm h'
        obtain ⟨hne, hlt⟩ := ih h'
        rw [Cursor.rest_skip, List.length_drop] at hlt
        exact ⟨hne, by omega⟩
      unfold escapedBody at h
      split at h
      · cases h
      · rename_i a r hcs
        split at h
        · split at h
          · obtain ⟨⟨s', k'⟩, h', heq⟩ := Option.map_eq_some_iff.mp h
            cases heq
            exact hstep (by omega) h'
          · rename_i hr
            cases h
            rw [Cursor.rest_skip, hcs]
            exact ⟨head?_ne hr, by simp⟩
        · split at h
          · simp only [Option.bind_eq_bind, Option.bind_eq_some_iff, Option.pure_def] at h
            obtain ⟨⟨d, width⟩, _, ⟨s', k'⟩, h', heq⟩ := h
            cases heq
            exact hstep (by omega) h'
          · obtain ⟨⟨s', k'⟩, h', heq⟩ := Option.map_eq_some_iff.mp h
            cases heq
            exact hstep (by omega) h'

theorem unicodeBody_plain (hs : '\x27' ∉ s) (he : '\\' ∉ s) (hr : rest.head? ≠ some '\x27') {n : Nat}
    (hn : s.length < n) (l : Position) :
    ∃ k, unicodeBody n ⟨s ++ '\x27' :: rest, l⟩ = .ok (s, k) ∧ k.rest = rest := by
  induction s generalizing n l with
  | nil =>
      cases n with
      | zero => cases hn
      | succ n =>
          cases rest with
          | nil => exact ⟨_, by simp [unicodeBody]; rfl, by simp⟩
          | cons d rest =>
              have hd : d ≠ '\x27' := by simpa using hr
              exact ⟨_, by simp [unicodeBody, hd]; rfl, by simp⟩
  | cons c s ih =>
      cases n with
      | zero => cases hn
      | succ n =>
          simp only [List.mem_cons, not_or] at hs he
          obtain ⟨k, hk, hrest⟩ := ih hs.2 he.2 (Nat.lt_of_succ_lt_succ hn) (l.after c)
          refine ⟨k, ?_, hrest⟩
          simp [unicodeBody, Ne.symm hs.1, Ne.symm he.1, Cursor.skip, hk]

theorem codeChar_rest {n value : Nat} {c : Cursor} {d : Char} (h : codeChar n value c = .ok (d, k)) :
    k.rest.length ≤ c.rest.length := by
  induction n generalizing value c with
  | zero =>
      unfold codeChar at h
      split at h
      · cases h
        exact Nat.le_refl _
      · cases h
  | succ n ih =>
      unfold codeChar at h
      split at h
      · cases h
      · split at h
        · have := ih h
          rw [Cursor.rest_skip, List.length_drop] at this
          omega
        · cases h

theorem unicodeBody_ends {n : Nat} {c : Cursor} (h : unicodeBody n c = .ok (s, k)) :
    k.rest.head? ≠ some '\x27' ∧ k.rest.length < c.rest.length := by
  induction n generalizing c s with
  | zero => cases h
  | succ n ih =>
      have hstep : ∀ {c' s'}, c'.rest.length < c.rest.length → unicodeBody n c' = .ok (s', k) →
          k.rest.head? ≠ some '\x27' ∧ k.rest.length < c.rest.length := by
        intro c' s' hlt h'
        obtain ⟨hne, hlt'⟩ := ih h'
        exact ⟨hne, by omega⟩
      unfold unicodeBody at h
      split at h
      · cases h
      · rename_i hcs
        obtain ⟨⟨s', k'⟩, h', heq⟩ := bind_eq_ok.mp h
        cases heq
        exact hstep (by rw [Cursor.rest_skip, hcs]; simp only [List.drop, List.length_cons]; omega) h'
      · rename_i tail hnext hcs
        cases h
        rw [Cursor.rest_skip, hcs]
        exact ⟨head?_ne hnext, by simp⟩
      · rename_i hcs
        obtain ⟨⟨s', k'⟩, h', heq⟩ := bind_eq_ok.mp h
        cases heq
        exact hstep (by rw [Cursor.rest_skip, hcs]; simp only [List.drop, List.length_cons]; omega) h'
      · rename_i hcs
        obtain ⟨⟨d, k₁⟩, hd, h⟩ := bind_eq_ok.mp h
        obtain ⟨⟨s', k'⟩, h', heq⟩ := bind_eq_ok.mp h
        cases heq
        have := codeChar_rest hd
        exact hstep (by simp [hcs] at this ⊢; omega) h'
      · rename_i hcs
        obtain ⟨⟨d, k₁⟩, hd, h⟩ := bind_eq_ok.mp h
        obtain ⟨⟨s', k'⟩, h', heq⟩ := bind_eq_ok.mp h
        cases heq
        have := codeChar_rest hd
        exact hstep (by simp [hcs] at this ⊢; omega) h'
      · rename_i hcs
        obtain ⟨⟨s', k'⟩, h', heq⟩ := bind_eq_ok.mp h
        cases heq
        exact hstep (by simp [hcs]) h'

/-! ## Closing marks

What stands between marks that are looked for character by character is read without a look at what
follows the closing mark. -/

/-- The two quotes before the closing one belong to the mark. -/
theorem tripleBody_inv {seen : Nat} (hseen : seen ≤ 2) (h : tripleBody q seen cs l = some (s, k)) :
    cs = s ++ q :: k.rest ∧ (∃ t, List.replicate seen q ++ s = t ++ [q, q]) ∧
      ∀ (rest : List Char) (l : Position),
        ∃ k, tripleBody q seen (s ++ q :: rest) l = some (s, k) ∧ k.rest = rest := by
  induction cs generalizing seen l s with
  | nil => simp [tripleBody] at h
  | cons c r ih =>
      unfold tripleBody at h
      split at h
      · rename_i hc
        subst hc
        split at h
        · rename_i htwo
          cases h
          subst htwo
          refine ⟨rfl, ⟨[], rfl⟩, fun rest l => ⟨_, by simp [tripleBody]; rfl, rfl⟩⟩
        · rename_i htwo
          obtain ⟨⟨s', k'⟩, h', heq⟩ := Option.map_eq_some_iff.mp h
          cases heq
          obtain ⟨rfl, ⟨t, ht⟩, hagain⟩ := ih (by omega) h'
          refine ⟨rfl, ⟨t, ?_⟩, fun rest l => ?_⟩
          · rw [← ht, List.replicate_succ']
            simp
          · obtain ⟨k, hk, hrest⟩ := hagain rest (l.after c)
            exact ⟨k, by simp [tripleBody, htwo, hk], hrest⟩
      · rename_i hc
        obtain ⟨⟨s', k'⟩, h', heq⟩ := Option.map_eq_some_iff.mp h
        cases heq
        obtain ⟨rfl, ⟨t, ht⟩, hagain⟩ := ih (by omega) h'
        refine ⟨rfl, ⟨List.replicate seen q ++ c :: t, ?_⟩, fun rest l => ?_⟩
        · rw [List.append_assoc, List.cons_append, ← ht]
          rfl
        · obtain ⟨k, hk, hrest⟩ := hagain rest (l.after c)
          exact ⟨k, by simp [tripleBody, hc, hk], hrest⟩

/-- A dollar sign just before belongs to the text, or to the closing mark. -/
theorem dollarBody_inv {lone : Bool} (h : dollarBody lone cs l = .ok (s, k)) :
    ∃ used, cs = used ++ k.rest ∧
      (if lone then '$' :: used else used) = s ++ ['$', '$'] ∧
      ∀ (rest : List Char) (l : Position),
        ∃ k, dollarBody lone (used ++ rest) l = .ok (s, k) ∧ k.rest = rest := by
  induction cs generalizing lone l s with
  | nil => cases lone <;> simp [dollarBody] at h
  | cons c r ih =>
      unfold dollarBody at h
      cases lone with
      | true =>
          simp only [if_true] at h
          split at h
          · rename_i hc
            subst hc
            cases h
            exact ⟨['$'], rfl, rfl, fun rest l => ⟨_, by simp [dollarBody]; rfl, rfl⟩⟩
          · rename_i hc
            obtain ⟨⟨s', k'⟩, h', heq⟩ := bind_eq_ok.mp h
            cases heq
            obtain ⟨used, rfl, hused, hagain⟩ := ih h'
            refine ⟨c :: used, rfl, by simpa using hused, fun rest l => ?_⟩
            obtain ⟨k, hk, hrest⟩ := hagain rest (l.after c)
            exact ⟨k, by simp [dollarBody, hc, hk], hrest⟩
      | false =>
          simp only [Bool.false_eq_true, if_false] at h
          split at h
          · rename_i hc
            subst hc
            obtain ⟨used, rfl, hused, hagain⟩ := ih h
            refine ⟨'$' :: used, rfl, by simpa using hused, fun rest l => ?_⟩
            obtain ⟨k, hk, hrest⟩ := hagain rest (l.after '$')
            exact ⟨k, by simp [dollarBody, hk], hrest⟩
          · rename_i hc
            obtain ⟨⟨s', k'⟩, h', heq⟩ := bind_eq_ok.mp h
            cases heq
            obtain ⟨used, rfl, hused, hagain⟩ := ih h'
            refine ⟨c :: used, rfl, by simpa using hused, fun rest l => ?_⟩
            obtain ⟨k, hk, hrest⟩ := hagain rest (l.after c)
            exact ⟨k, by simp [dollarBody, hc, hk], hrest⟩

/-- A comment ends with an asterisk, which may be the character before, and a slash. -/
theorem commentBody_inv {depth : Nat} {last : Char} (h : commentBody depth last cs l = .ok (s, k)) :
    cs = s ++ '/' :: k.rest ∧ (last :: s).getLast? = some '*' ∧
      ∀ (rest : List Char) (l : Position),
        ∃ k, commentBody depth last (s ++ '/' :: rest) l = .ok (s, k) ∧ k.rest = rest := by
  induction cs generalizing depth last l s with
  | nil => simp [commentBody] at h
  | cons c r ih =>
      unfold commentBody at h
      split at h
      · rename_i hclose
        simp only [Bool.and_eq_true, decide_eq_true_eq] at hclose
        obtain ⟨rfl, rfl⟩ := hclose
        cases depth with
        | zero =>
            cases h
            exact ⟨rfl, rfl, fun rest l => ⟨_, by simp [commentBody]; rfl, rfl⟩⟩
        | succ depth =>
            obtain ⟨⟨s', k'⟩, h', heq⟩ := bind_eq_ok.mp h
            cases heq
            obtain ⟨rfl, hlast, hagain⟩ := ih h'
            refine ⟨rfl, by simpa using hlast, fun rest l => ?_⟩
            obtain ⟨k, hk, hrest⟩ := hagain rest (l.after '/')
            exact ⟨k, by simp [commentBody, hk], hrest⟩
      · rename_i hclose
        obtain ⟨⟨s', k'⟩, h', heq⟩ := bind_eq_ok.mp h
        cases heq
        obtain ⟨rfl, hlast, hagain⟩ := ih h'
        refine ⟨rfl, by simpa using hlast, fun rest l => ?_⟩
        obtain ⟨k, hk, hrest⟩ := hagain rest (l.after c)
        refine ⟨k, ?_, hrest⟩
        rw [List.cons_append, commentBody.eq_def]
        simp only [hclose, Bool.false_eq_true, if_false, hk]
        rfl

/-- The whole tag stands there. -/
theorem commonLength_eq {tag r : List Char} :
    commonLength tag r = tag.length ↔ ∃ r', r = tag ++ r' := by
  fun_induction commonLength with
  | case1 t ts cs ih => simp [ih]
  | case2 t ts c cs hne => simp [Ne.symm hne]
  | case3 tag r hcons =>
      cases tag with
      | nil => simp
      | cons t ts =>
          cases r with
          | nil => simp
          | cons c cs => exact absurd rfl (hcons t ts c cs rfl)

/-- The first character that differs decides. -/
theorem commonLength_differ {u v r : List Char} {c d : Char} (hne : d ≠ c) :
    commonLength (u ++ d :: v) (u ++ c :: r) = u.length := by
  induction u with
  | nil => simp [commonLength, hne]
  | cons a u ih => simp [commonLength, ih]

theorem exists_differ {tag r : List Char} (hne : commonLength tag r ≠ tag.length)
    (hlen : commonLength tag r < r.length) :
    ∃ u d v c r', tag = u ++ d :: v ∧ r = u ++ c :: r' ∧ d ≠ c ∧ commonLength tag r = u.length := by
  fun_induction commonLength tag r with
  | case1 _ _ _ ih =>
      obtain ⟨u, d, v, c, r', rfl, rfl, hdc, hu⟩ := ih (by simpa using hne) (by simpa using hlen)
      exact ⟨_ :: u, d, v, c, r', rfl, rfl, hdc, by simp [hu]⟩
  | case2 t ts c cs hc => exact ⟨[], t, ts, c, cs, rfl, rfl, hc, rfl⟩
  | case3 tag r hcons =>
      cases tag with
      | nil => simp at hne
      | cons t ts =>
          cases r with
          | nil => simp at hlen
          | cons c cs => exact absurd rfl (hcons t ts c cs rfl)

/-- One round: up to the next dollar sign, and on from there unless the mark is complete. -/
theorem taggedBody_succ (tag r : List Char) {pre : List Char} (hpre : '$' ∉ pre) (n : Nat)
    (l : Position) :
    ∃ l', taggedBody tag (n + 1) ⟨pre ++ '$' :: r, l⟩ =
      if commonLength tag r = tag.length then
        if (r.drop tag.length).head? = some '$' then
          .ok (pre, (Cursor.mk (r.drop tag.length) l').skip 1)
        else (fun x => (pre ++ '$' :: tag ++ x.1, x.2)) <$> taggedBody tag n ⟨r.drop tag.length, l'⟩
      else if (r.take (commonLength tag r + 1)).length = commonLength tag r + 1 then
        (fun x => (pre ++ '$' :: r.take (commonLength tag r + 1) ++ x.1, x.2)) <$>
          taggedBody tag n ⟨r.drop (commonLength tag r + 1), l'⟩
      else .error ⟨.openDollarTag, l'⟩ := by
  have hp : ∀ c ∈ pre, decide (c ≠ '$') = true := by
    intro c hc
    rw [decide_eq_true_iff]
    rintro rfl
    exact hpre hc
  have hr : ∀ c ∈ ('$' :: r).head?, decide (c ≠ '$') = false := by simp
  rw [taggedBody]
  simp only [Cursor.span, takeWhile_run hp hr, dropWhile_run hp hr]
  by_cases hm : commonLength tag r = tag.length
  · simp only [hm, if_true]
    generalize hk : Cursor.skip (tag.length + 1) _ = k
    have hrest : k.rest = r.drop tag.length := by simp [← hk]
    obtain ⟨r', l'⟩ := k
    refine ⟨l', ?_⟩
    simp only at hrest
    rw [← hrest]
    split
    · rename_i heq
      simp only at heq
      rw [heq, if_pos (by rfl)]
    · rename_i hne
      rw [if_neg (head?_ne hne)]
      cases taggedBody tag n ⟨r', l'⟩ <;> rfl
  · simp only [hm, if_false]
    generalize hk : Cursor.skip ((r.take (commonLength tag r + 1)).length + 1) _ = k
    obtain ⟨r', l'⟩ := k
    refine ⟨l', ?_⟩
    split
    · rename_i hlen
      rw [hlen] at hk
      have hrest : r' = r.drop (commonLength tag r + 1) := by
        have := congrArg Cursor.rest hk
        simpa using this.symm
      rw [hrest]
      cases taggedBody tag n ⟨r.drop (commonLength tag r + 1), l'⟩ <;> rfl
    · rfl

/-- Text with its closing mark, and what follows. A dollar sign that begins no mark belongs to the
    text, together with as much after it as looked like the mark and one character more. -/
inductive Tagged (tag : List Char) : List Char → List Char → List Char → Prop
  | close {pre} (rest) (plain : '$' ∉ pre) : Tagged tag (pre ++ '$' :: (tag ++ '$' :: rest)) pre rest
  | again {pre r s rest} (plain : '$' ∉ pre) (next : r.head? ≠ some '$') (more : Tagged tag r s rest) :
      Tagged tag (pre ++ '$' :: (tag ++ r)) (pre ++ '$' :: tag ++ s) rest
  | other {pre u v r s rest d c} (plain : '$' ∉ pre) (mark : tag = u ++ d :: v) (differs : d ≠ c)
      (more : Tagged tag r s rest) :
      Tagged tag (pre ++ '$' :: (u ++ c :: r)) (pre ++ '$' :: (u ++ c :: s)) rest

theorem tagged_of_taggedBody {tag : List Char} {n : Nat} {c : Cursor}
    (h : taggedBody tag n c = .ok (s, k)) : Tagged tag c.rest s k.rest := by
  induction n generalizing c s with
  | zero => cases h
  | succ n ih =>
      obtain ⟨cs, l⟩ := c
      obtain ⟨pre, r, rfl, hpre⟩ : ∃ pre r, cs = pre ++ '$' :: r ∧ '$' ∉ pre := by
        by_cases hmem : '$' ∈ cs
        · exact List.eq_append_cons_of_mem hmem
        · have hnil : cs.dropWhile (fun x => decide (x ≠ '$')) = [] := by
            rw [List.dropWhile_eq_nil_iff]
            intro c hc
            rw [decide_eq_true_iff]
            rintro rfl
            exact hmem hc
          rw [taggedBody] at h
          simp only [Cursor.span, hnil] at h
          cases h
      obtain ⟨l', hl'⟩ := taggedBody_succ tag r hpre n l
      rw [hl'] at h
      split at h
      · rename_i hm
        obtain ⟨r', rfl⟩ := commonLength_eq.mp hm
        rw [List.drop_left] at h
        split at h
        · rename_i hnext
          obtain ⟨r'', rfl⟩ := List.head?_eq_some_iff.mp hnext
          cases h
          exact .close _ hpre
        · rename_i hne
          obtain ⟨⟨s', k'⟩, h', heq⟩ := map_eq_ok.mp h
          cases heq
          exact .again hpre hne (ih h')
      · rename_i hm
        split at h
        · rename_i hlen
          obtain ⟨⟨s', k'⟩, h', heq⟩ := map_eq_ok.mp h
          cases heq
          obtain ⟨u, d, v, c, r', rfl, rfl, hdc, hu⟩ := exists_differ hm (by
            rw [List.length_take] at hlen
            omega)
          rw [hu] at h' ⊢
          have htried : (u ++ c :: r').take (u.length + 1) = u ++ [c] := by
            rw [List.append_cons]
            exact List.take_left' (by simp)
          have hmore : (u ++ c :: r').drop (u.length + 1) = r' := by
            rw [List.append_cons]
            exact List.drop_left' (by simp)
          rw [hmore] at h'
          rw [htried]
          simpa using Tagged.other (s := s') hpre rfl hdc (ih h')
        · cases h

theorem Tagged.source {tag : List Char} (h : Tagged tag cs s rest) :
    cs = s ++ '$' :: tag ++ '$' :: rest := by
  induction h with
  | close => simp
  | again _ _ _ ih => simp [ih]
  | other _ _ _ _ ih => simp [ih]

theorem Tagged.elsewhere {tag : List Char} (h : Tagged tag cs s rest) (rest' : List Char) :
    Tagged tag (s ++ '$' :: tag ++ '$' :: rest') s rest' := by
  induction h with
  | close rest hpre => simpa using Tagged.close rest' hpre
  | @again pre r s rest hpre hr more ih =>
      have hnext : (s ++ '$' :: tag ++ '$' :: rest').head? ≠ some '$' := by
        rw [more.source] at hr
        cases s with
        | nil => simp at hr
        | cons c s => simpa using hr
      simpa using Tagged.again hpre hnext ih
  | other hpre hmark hdc more ih => simpa using Tagged.other hpre hmark hdc ih

theorem taggedBody_of_tagged {tag : List Char} (h : Tagged tag cs s rest) {n : Nat}
    (hn : s.length < n) (l : Position) :
    ∃ k, taggedBody tag n ⟨cs, l⟩ = .ok (s, k) ∧ k.rest = rest := by
  induction h generalizing n l with
  | @close pre rest hpre =>
      cases n with
      | zero => cases hn
      | succ n =>
          obtain ⟨l', hl'⟩ := taggedBody_succ tag (tag ++ '$' :: rest) hpre n l
          rw [if_pos (commonLength_eq.mpr ⟨_, rfl⟩), List.drop_left, if_pos (by rfl)] at hl'
          exact ⟨_, hl', by simp⟩
  | @again pre r s rest hpre hr more ih =>
      cases n with
      | zero => cases hn
      | succ n =>
          obtain ⟨l', hl'⟩ := taggedBody_succ tag (tag ++ r) hpre n l
          rw [if_pos (commonLength_eq.mpr ⟨_, rfl⟩), List.drop_left, if_neg hr] at hl'
          obtain ⟨k, hk, hrest⟩ := ih (n := n) (by simp at hn; omega) l'
          refine ⟨k, ?_, hrest⟩
          rw [hl', hk]
          rfl
  | @other pre u v r s rest d c hpre hmark hdc more ih =>
      cases n with
      | zero => cases hn
      | succ n =>
          obtain ⟨l', hl'⟩ := taggedBody_succ tag (u ++ c :: r) hpre n l
          have hcommon : commonLength tag (u ++ c :: r) = u.length := by
            rw [hmark, commonLength_differ hdc]
          have htried : (u ++ c :: r).take (u.length + 1) = u ++ [c] := by
            rw [List.append_cons]
            exact List.take_left' (by simp)
          have hmore : (u ++ c :: r).drop (u.length + 1) = r := by
            rw [List.append_cons]
            exact List.drop_left' (by simp)
          rw [hcommon, if_neg (by simp [hmark]), htried, if_pos (by simp), hmore] at hl'
          obtain ⟨k, hk, hrest⟩ := ih (n := n) (by simp at hn; omega) l'
          refine ⟨k, ?_, hrest⟩
          rw [hl', hk]
          simp [Functor.map, Except.map]

end

end Scan
end StreamSql
