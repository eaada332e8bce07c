/-
  Documents are read back from their texts. Each character of a string is read from its escape
  (`stringBody_escaped`), a list and an object from their parts (`ReadsWithin`), and so a document
  without numbers from what is written for it (`parse?_text`).
-/
import Mathlib.Data.List.Basic
import StreamSql.Json.Parse
import StreamSql.Json.Text

namespace StreamSql.Json

/-! ## Strings -/

/-- What stands between the quotes of a string. -/
def spelling (cs : List Char) : List Char :=
  cs.flatMap fun c => (escaped c).toList

theorem toList_stringText (s : String) :
    (stringText s).toList = '\x22' :: (spelling s.toList ++ ['\x22']) := by
  simp [stringText, spelling, String.toList_join, List.flatMap_map]

theorem charOf?_toNat (c : Char) : Scan.charOf? c.toNat = some c := by
  have hvalid : c.toNat.isValidChar := c.valid
  rw [Scan.charOf?, dif_pos hvalid]
  rfl

/-- The code of a control character is read from its four digits. -/
theorem codeUnit?_fourDigits {n : Nat} (h : n < 32) (r : List Char) :
    codeUnit? ((fourDigits n).toList ++ r) = some (n, r) := by
  have hdigits : ∀ n < 32, (fourDigits n).toList.length = 4 ∧
      (fourDigits n).toList.all Scan.isHexDigit = true ∧
      Scan.digitsValue? 16 (fourDigits n).toList = some n := by decide
  obtain ⟨hlength, hhex, hvalue⟩ := hdigits n h
  simp [codeUnit?, List.take_left' hlength, List.drop_left' hlength, hlength, hhex, hvalue]

/-- A character is read from what is written for it. -/
theorem stringBody_escaped {n : Nat} {rest r s : List Char} (c : Char)
    (h : stringBody n rest = some (some s, r)) :
    stringBody (n + 1) ((escaped c).toList ++ rest) = some (some (c :: s), r) := by
  fun_cases escaped c with
  | case1 => simp [stringBody, shortEscape?, h]
  | case2 => simp [stringBody, shortEscape?, h]
  | case3 => simp [stringBody, shortEscape?, h]
  | case4 => simp [stringBody, shortEscape?, h]
  | case5 => simp [stringBody, shortEscape?, h]
  | case6 _ hcontrol =>
      have hunit : unitChar c.toNat rest = (some c, rest) := by
        rw [unitChar, if_neg (by omega), charOf?_toNat]
      simp [if_pos hcontrol, stringBody, codeUnit?_fourDigits hcontrol, hunit, h]
  | case7 _ hplain hquote hslash =>
      have hlead : c.toString.toList ++ rest = c :: rest := by simp
      rw [if_neg hplain, hlead, stringBody, if_neg (by simpa [hplain] using hslash)]
      · simp [h]
      · exact hquote
      · exact fun _ hc _ => hslash hc
      · exact fun _ _ hc _ => hslash hc

theorem escaped_length_pos (c : Char) : 0 < (escaped c).toList.length := by
  fun_cases escaped c <;> simp [*]

theorem length_le_spelling (cs : List Char) : cs.length ≤ (spelling cs).length := by
  induction cs with
  | nil => simp
  | cons c cs ih =>
      have := escaped_length_pos c
      simp only [spelling, List.flatMap_cons, List.length_append, List.length_cons] at ih ⊢
      omega

theorem length_lt_stringText (s : String) :
    s.toList.length + 1 < (stringText s).toList.length := by
  have := length_le_spelling s.toList
  rw [toList_stringText, List.length_cons, List.length_append, List.length_singleton]
  omega

theorem stringBody_spelling {n : Nat} {cs : List Char} (h : cs.length < n) (r : List Char) :
    stringBody n (spelling cs ++ '\x22' :: r) = some (some cs, r) := by
  induction cs generalizing n with
  | nil =>
      obtain ⟨n, rfl⟩ : ∃ m, n = m + 1 := ⟨n - 1, by omega⟩
      simp [spelling, stringBody]
  | cons c cs ih =>
      obtain ⟨n, rfl⟩ : ∃ m, n = m + 1 := ⟨n - 1, by omega⟩
      rw [spelling, List.flatMap_cons, List.append_assoc]
      exact stringBody_escaped c (ih (by simpa using h))

/-! ## Steps of the reader -/

theorem skipSpace_cons {c : Char} (h : isSpace c = false) (cs : List Char) :
    skipSpace (c :: cs) = c :: cs := by
  simp [skipSpace, h]

section Steps

variable {n : Nat} {c : Char} {cs cs' r : List Char} {j : Json} {js : List Json}
  {ms : List (String × Json)} {k : String}

theorem value?_items (h : items? n (c :: cs) = some (js, r)) (hc : isSpace c = false)
    (hclose : c ≠ ']') : value? (n + 1) ('[' :: c :: cs) = some (array js, r) := by
  simp [value?, skipSpace_cons (c := '[') rfl, skipSpace_cons hc, hclose, h]

theorem items?_last (h : value? n cs = some (j, ']' :: r)) :
    items? (n + 1) cs = some ([j], r) := by
  simp [items?, h, skipSpace, isSpace]

theorem items?_more (h : value? n cs = some (j, ',' :: cs')) (hrest : items? n cs' = some (js, r)) :
    items? (n + 1) cs = some (j :: js, r) := by
  simp [items?, h, hrest, skipSpace, isSpace]

theorem value?_members (h : members? n ('\x22' :: cs) = some (ms, r)) :
    value? (n + 1) ('\x7b' :: '\x22' :: cs) = some (object ms, r) := by
  simp [value?, skipSpace, isSpace, h]

theorem members?_last (hk : k.toList.length < n) (h : value? n cs = some (j, '\x7d' :: r)) :
    members? (n + 1) ((stringText k).toList ++ ':' :: cs) = some ([(k, j)], r) := by
  simp [members?, toList_stringText, stringBody_spelling hk, h, skipSpace, isSpace]

theorem members?_more (hk : k.toList.length < n) (h : value? n cs = some (j, ',' :: cs'))
    (hrest : members? n cs' = some (ms, r)) :
    members? (n + 1) ((stringText k).toList ++ ':' :: cs) = some ((k, j) :: ms, r) := by
  simp [members?, toList_stringText, stringBody_spelling hk, h, hrest, skipSpace, isSpace]

end Steps

/-! ## Documents -/

/-- The document has no numbers, and every scalar of it has a value. -/
inductive Wordy : Json → Prop
  | null : Wordy null
  | bool (b : Bool) : Wordy (bool b)
  | string (s : String) : Wordy (string s)
  | array {items : List Json} (h : ∀ j ∈ items, Wordy j) : Wordy (array items)
  | object {members : List (String × Json)} (h : ∀ m ∈ members, Wordy m.2) : Wordy (object members)

/-- The texts of the items of a list with the commas between them. -/
def listed (js : List Json) : List Char :=
  (",".intercalate (texts js)).toList

theorem toList_array (items : List Json) :
    (text (array items)).toList = '[' :: (listed items ++ [']']) := by
  simp [text, listed]

theorem listed_singleton (j : Json) : listed [j] = (text j).toList := by
  simp [listed, texts]

theorem listed_cons_cons (j k : Json) (js : List Json) :
    listed (j :: k :: js) = (text j).toList ++ ',' :: listed (k :: js) := by
  simp [listed, texts, String.toList_intercalate]

/-- The texts of the members of an object with the commas between them. -/
def enumerated (ms : List (String × Json)) : List Char :=
  (",".intercalate (memberTexts ms)).toList

theorem toList_object (members : List (String × Json)) :
    (text (object members)).toList = '\x7b' :: (enumerated members ++ ['\x7d']) := by
  simp [text, enumerated]

theorem enumerated_singleton (k : String) (j : Json) :
    enumerated [(k, j)] = (stringText k).toList ++ ':' :: (text j).toList := by
  simp [enumerated, memberTexts]

theorem enumerated_cons_cons (k : String) (j : Json) (m : String × Json)
    (ms : List (String × Json)) :
    enumerated ((k, j) :: m :: ms) =
      (stringText k).toList ++ ':' :: ((text j).toList ++ ',' :: enumerated (m :: ms)) := by
  obtain ⟨k', j'⟩ := m
  simp [enumerated, memberTexts, String.toList_intercalate]

/-- A text starts with a character that is no blank and closes no list. -/
theorem exists_head {j : Json} (h : Wordy j) :
    ∃ c cs, (text j).toList = c :: cs ∧ isSpace c = false ∧ c ≠ ']' := by
  cases h with
  | null => exact ⟨'n', ['u', 'l', 'l'], rfl, rfl, by decide⟩
  | bool b =>
      cases b with
      | false => exact ⟨'f', ['a', 'l', 's', 'e'], rfl, rfl, by decide⟩
      | true => exact ⟨'t', ['r', 'u', 'e'], rfl, rfl, by decide⟩
  | string s => exact ⟨'\x22', _, by rw [text, toList_stringText], rfl, by decide⟩
  | array => exact ⟨'[', _, toList_array _, rfl, by decide⟩
  | object => exact ⟨'\x7b', _, toList_object _, rfl, by decide⟩

theorem exists_head_listed {j : Json} (h : Wordy j) (js : List Json) :
    ∃ c cs, listed (j :: js) = c :: cs ∧ isSpace c = false ∧ c ≠ ']' := by
  obtain ⟨c, cs, hj, hc⟩ := exists_head h
  cases js with
  | nil => exact ⟨c, cs, by rw [listed_singleton, hj], hc⟩
  | cons k js => exact ⟨c, _, by rw [listed_cons_cons, hj, List.cons_append], hc⟩

theorem exists_head_enumerated (m : String × Json) (ms : List (String × Json)) :
    ∃ cs, enumerated (m :: ms) = '\x22' :: cs := by
  obtain ⟨k, j⟩ := m
  cases ms with
  | nil => exact ⟨_, by rw [enumerated_singleton, toList_stringText, List.cons_append]⟩
  | cons m ms => exact ⟨_, by rw [enumerated_cons_cons, toList_stringText, List.cons_append]⟩

/-- Within `n` steps a document, the items of a list and the members of an object are read from
    their texts, and what follows is left. -/
structure ReadsWithin (n : Nat) : Prop where
  value : ∀ (j : Json) (r : List Char), Wordy j → (text j).toList.length ≤ n →
    value? n ((text j).toList ++ r) = some (j, r)
  items : ∀ (j : Json) (js : List Json) (r : List Char), (∀ j' ∈ j :: js, Wordy j') →
    (listed (j :: js)).length < n → items? n (listed (j :: js) ++ ']' :: r) = some (j :: js, r)
  members : ∀ (m : String × Json) (ms : List (String × Json)) (r : List Char),
    (∀ m' ∈ m :: ms, Wordy m'.2) → (enumerated (m :: ms)).length < n →
    members? n (enumerated (m :: ms) ++ '\x7d' :: r) = some (m :: ms, r)

namespace ReadsWithin

variable {n : Nat}

theorem value_succ (hn : ReadsWithin n) (j : Json) (r : List Char) (h : Wordy j)
    (hlength : (text j).toList.length ≤ n + 1) :
    value? (n + 1) ((text j).toList ++ r) = some (j, r) := by
  cases h with
  | null => simp [text, value?, skipSpace, isSpace, expect]
  | bool b =>
      cases b with
      | false => simp [text, value?, skipSpace, isSpace, expect]
      | true => simp [text, value?, skipSpace, isSpace, expect]
  | string s =>
      have hs : s.toList.length < n := by
        have := length_lt_stringText s
        rw [text] at hlength
        omega
      simp [text, toList_stringText, value?, skipSpace, isSpace, stringBody_spelling hs]
  | @array items h =>
      rw [toList_array] at hlength ⊢
      cases items with
      | nil => simp [listed, texts, value?, skipSpace, isSpace]
      | cons j js =>
          rw [List.length_cons, List.length_append, List.length_singleton] at hlength
          have hitems := hn.items j js r h (by omega)
          obtain ⟨c, cs, hcs, hc, hclose⟩ := exists_head_listed (h j List.mem_cons_self) js
          simp only [hcs, List.cons_append, List.append_assoc, List.nil_append] at hitems ⊢
          exact value?_items hitems hc hclose
  | @object members h =>
      rw [toList_object] at hlength ⊢
      cases members with
      | nil => simp [enumerated, memberTexts, value?, skipSpace, isSpace]
      | cons m ms =>
          rw [List.length_cons, List.length_append, List.length_singleton] at hlength
          have hmembers := hn.members m ms r h (by omega)
          obtain ⟨cs, hcs⟩ := exists_head_enumerated m ms
          simp only [hcs, List.cons_append, List.append_assoc, List.nil_append] at hmembers ⊢
          exact value?_members hmembers

theorem items_succ (hn : ReadsWithin n) (j : Json) (js : List Json) (r : List Char)
    (h : ∀ j' ∈ j :: js, Wordy j') (hlength : (listed (j :: js)).length < n + 1) :
    items? (n + 1) (listed (j :: js) ++ ']' :: r) = some (j :: js, r) := by
  rw [List.forall_mem_cons] at h
  cases js with
  | nil =>
      rw [listed_singleton] at hlength ⊢
      exact items?_last (hn.value j _ h.1 (Nat.lt_succ_iff.mp hlength))
  | cons k js =>
      rw [listed_cons_cons, List.append_assoc, List.cons_append]
      rw [listed_cons_cons, List.length_append, List.length_cons] at hlength
      exact items?_more (hn.value j _ h.1 (by omega)) (hn.items k js r h.2 (by omega))

theorem members_succ (hn : ReadsWithin n) (m : String × Json) (ms : List (String × Json))
    (r : List Char) (h : ∀ m' ∈ m :: ms, Wordy m'.2)
    (hlength : (enumerated (m :: ms)).length < n + 1) :
    members? (n + 1) (enumerated (m :: ms) ++ '\x7d' :: r) = some (m :: ms, r) := by
  obtain ⟨k, j⟩ := m
  rw [List.forall_mem_cons] at h
  have hk := length_lt_stringText k
  cases ms with
  | nil =>
      rw [enumerated_singleton, List.append_assoc, List.cons_append]
      rw [enumerated_singleton, List.length_append, List.length_cons] at hlength
      exact members?_last (by omega) (hn.value j _ h.1 (by omega))
  | cons m ms =>
      rw [enumerated_cons_cons, List.append_assoc, List.cons_append, List.append_assoc,
        List.cons_append]
      rw [enumerated_cons_cons, List.length_append, List.length_cons, List.length_append,
        List.length_cons] at hlength
      exact members?_more (by omega) (hn.value j _ h.1 (by omega))
        (hn.members m ms r h.2 (by omega))

end ReadsWithin

theorem readsWithin (n : Nat) : ReadsWithin n := by
  induction n with
  | zero =>
      refine ⟨fun j r h hlength => ?_, fun _ _ _ _ h => absurd h (Nat.not_lt_zero _),
        fun _ _ _ _ h => absurd h (Nat.not_lt_zero _)⟩
      obtain ⟨c, cs, hcs, _⟩ := exists_head h
      rw [hcs] at hlength
      exact absurd hlength (Nat.not_succ_le_zero _)
  | succ n ih => exact ⟨ih.value_succ, ih.items_succ, ih.members_succ⟩

/-- A document without numbers is what its text holds. -/
theorem parse?_text {j : Json} (h : Wordy j) : parse? (text j) = some j := by
  have hvalue := (readsWithin (2 * (text j).toList.length + 2)).value j [] h (by omega)
  rw [List.append_nil] at hvalue
  rw [parse?, hvalue, Option.bind_eq_bind, Option.bind_some]
  rfl

theorem list?_ofList {α : Type} {read : Json → Option α} {write : α → Json}
    (h : ∀ a, read (write a) = some a) (as : List α) : list? read (ofList write as) = some as := by
  have hread : (as.map write).mapM read = some as := by
    induction as with
    | nil => rfl
    | cons a as ih => simp [List.mapM_cons, h, ih]
  simpa [list?, ofList, array?] using hread

theorem wordy_ofList {α : Type} {write : α → Json} (h : ∀ a, Wordy (write a)) (as : List α) :
    Wordy (ofList write as) := by
  refine .array fun j hj => ?_
  obtain ⟨a, _, rfl⟩ := List.mem_map.mp hj
  exact h a

end StreamSql.Json
