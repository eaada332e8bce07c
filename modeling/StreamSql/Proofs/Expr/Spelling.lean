/-
  How texts are spelled, character by character. `Expr.write e r` is the canonical text of `e` with
  `r` after it; it says the same as `Expr.text` (`spell_text`) and shows, for each node, what
  follows each of its parts.

  The rest of the module is about the atoms of a text. Each of them can be taken off the front of a
  longer text in one way only: a word, if no character of a word follows (`word_cancel`); a number;
  a string, if no quote follows (`escape_cancel`); the words between two operands, which end at the
  next blanks (`Link.cancel`).
-/
import StreamSql.Expr.Text
import StreamSql.Proofs.Expr.Parts

namespace StreamSql

/-! ## Writing -/

/-- A word, with more text after it. -/
@[irreducible]
def spell (w : String) (r : List Char) : List Char :=
  w.toList ++ r

theorem spell_eq (w : String) (r : List Char) : spell w r = w.toList ++ r := by
  unfold spell
  rfl

theorem spell_append (v w : String) (r : List Char) : spell (v ++ w) r = spell v (spell w r) := by
  rw [spell_eq, spell_eq, spell_eq, String.toList_append, List.append_assoc]

theorem spell_empty (r : List Char) : spell "" r = r := by
  rw [spell_eq]
  rfl

namespace Expr

/-- The word that negates a predicate, before the predicate. -/
def writeNot (negated : Bool) (r : List Char) : List Char :=
  spell (notWord negated) r

theorem writeNot_false (r : List Char) : writeNot false r = r :=
  spell_empty r

theorem writeNot_true (r : List Char) : writeNot true r = ' ' :: spell "NOT" r := by
  rw [writeNot, spell_eq, spell_eq]
  rfl

mutual

/-- The text of an expression, with more text after it. -/
def write : Expr → List Char → List Char
  | literal _ v, r => spell v.text r
  | column _ c, r => spell c.text r
  | wildcard _, r => '*' :: r
  | call _ n as d, r => spell n ('(' :: spell (if d then "DISTINCT " else "") (writeList as (')' :: r)))
  | unary _ op e, r => '(' :: spell op.symbol (write e (')' :: r))
  | arith _ a op b, r => '(' :: write a (' ' :: spell op.symbol (' ' :: write b (')' :: r)))
  | compare _ a op b, r => '(' :: write a (' ' :: spell op.symbol (' ' :: write b (')' :: r)))
  | logic _ a op b, r => '(' :: write a (' ' :: spell op.symbol (' ' :: write b (')' :: r)))
  | nullIf _ a b, r => spell "NULLIF" ('(' :: write a (',' :: ' ' :: write b (')' :: r)))
  | case _ o bs e, r =>
    spell "CASE" (writeOption " " o (writeBranches bs (writeOption " ELSE " e (spell " END" r))))
  | cast _ e t, r => spell "CAST" ('(' :: write e (spell " AS " (spell t.sqlName (')' :: r))))
  | isNull _ e n, r => '(' :: write e (spell " IS" (writeNot n (spell " NULL)" r)))
  | between _ e lo hi n, r =>
    '(' :: write e (writeNot n (spell " BETWEEN " (write lo (spell " AND " (write hi (')' :: r))))))
  | like _ e p n, r => '(' :: write e (writeNot n (spell " LIKE " (write p (')' :: r))))
  | inList _ e es n, r => '(' :: write e (writeNot n (spell " IN (" (writeList es (')' :: ')' :: r))))

/-- A list of expressions, with more text after it. -/
def writeList : List Expr → List Char → List Char
  | [], r => r
  | e :: es, r => write e (writeMore es r)

/-- The rest of a list of expressions, each led in by a comma. -/
def writeMore : List Expr → List Char → List Char
  | [], r => r
  | e :: es, r => ',' :: ' ' :: write e (writeMore es r)

/-- A branch of a case, with more text after it. -/
def writeBranch : Expr × Expr → List Char → List Char
  | (w, t), r => spell " WHEN " (write w (spell " THEN " (write t r)))

def writeBranches : List (Expr × Expr) → List Char → List Char
  | [], r => r
  | b :: bs, r => writeBranch b (writeBranches bs r)

def writeOption (lead : String) : Option Expr → List Char → List Char
  | none, r => r
  | some e, r => spell lead (write e r)

end

/-- What is to be shown of an expression, for the lists of parts. -/
abbrev Written (e : Expr) : Prop :=
  ∀ r, spell e.text r = e.write r

theorem writeMore_eq {es : List Expr} (h : ∀ e ∈ es, Written e) (first : Expr)
    (hf : Written first) (r : List Char) :
    spell (", ".intercalate (texts (first :: es))) r = write first (writeMore es r) := by
  induction es generalizing first with
  | nil =>
      rw [texts, texts, String.intercalate_singleton, writeMore]
      exact hf r
  | cons e es ih =>
      rw [List.forall_mem_cons] at h
      rw [texts, texts, String.intercalate_cons_cons, ← texts, spell_append, spell_append,
        ih h.2 e h.1, hf, writeMore, spell_eq]
      rfl

theorem writeList_eq {es : List Expr} (h : ∀ e ∈ es, Written e) (r : List Char) :
    spell (", ".intercalate (texts es)) r = writeList es r := by
  cases es with
  | nil => rw [texts, String.intercalate_nil, writeList, spell_empty]
  | cons e es =>
      rw [List.forall_mem_cons] at h
      rw [writeMore_eq h.2 e h.1, writeList]

theorem writeBranches_eq {bs : List (Expr × Expr)}
    (h : ∀ c ∈ bs.flatMap fun b => [b.1, b.2], Written c) (r : List Char) :
    spell (branchesText bs) r = writeBranches bs r := by
  induction bs with
  | nil => rw [branchesText, writeBranches, spell_empty]
  | cons b bs ih =>
      obtain ⟨w, t⟩ := b
      simp only [List.flatMap_cons, List.cons_append, List.nil_append, List.forall_mem_cons] at h
      simp only [branchesText, spell_append]
      rw [ih h.2.2, h.2.1, h.1, writeBranches, writeBranch]

theorem writeOption_eq {lead : String} {o : Option Expr} (h : ∀ c ∈ o.toList, Written c)
    (r : List Char) : spell (optionText lead o) r = writeOption lead o r := by
  cases o with
  | none => rw [optionText, writeOption, spell_empty]
  | some e => rw [optionText, writeOption, spell_append, h e (by simp)]

/-- Writing gives the canonical text. -/
theorem spell_text (e : Expr) (r : List Char) : spell e.text r = e.write r := by
  induction e using inductParts generalizing r with
  | step e ih =>
      cases e with
      | literal | column => rw [text, write]
      | wildcard =>
          rw [text, write, spell_eq]
          rfl
      | call l n as d =>
          simp only [text, spell_append]
          rw [writeList_eq fun c hc => ih c (by simp [children, hc])]
          simp [write, spell_eq]
      | unary l op e =>
          simp only [text, spell_append]
          rw [ih e (by simp [children])]
          simp [write, spell_eq]
      | arith l a op b | compare l a op b | logic l a op b | nullIf l a b =>
          simp only [text, spell_append]
          rw [ih b (by simp [children]), ih a (by simp [children])]
          simp [write, spell_eq]
      | case l o bs e =>
          simp only [text, spell_append]
          rw [writeOption_eq fun c hc => ih c (by simp_all [children]),
            writeBranches_eq fun c hc => ih c (by simp_all [children]),
            writeOption_eq fun c hc => ih c (by simp_all [children]), write]
      | cast l e t =>
          simp only [text, spell_append]
          rw [ih e (by simp [children])]
          simp [write, spell_eq]
      | isNull l e n =>
          simp only [text, spell_append]
          rw [ih e (by simp [children])]
          simp [write, spell_eq, writeNot]
      | between l e lo hi n =>
          simp only [text, spell_append]
          rw [ih hi (by simp [children]), ih lo (by simp [children]), ih e (by simp [children])]
          simp [write, spell_eq, writeNot]
      | like l e p n =>
          simp only [text, spell_append]
          rw [ih p (by simp [children]), ih e (by simp [children])]
          simp [write, spell_eq, writeNot]
      | inList l e es n =>
          simp only [text, spell_append]
          rw [writeList_eq fun c hc => ih c (by simp [children, hc]), ih e (by simp [children])]
          simp [write, spell_eq, writeNot]

end Expr

/-! ## Taking an atom off a text -/

/-- A run of characters of one class ends where the class ends. -/
theorem run_cancel {p : Char → Bool} {w w' r s : List Char} (hw : ∀ c ∈ w, p c = true)
    (hw' : ∀ c ∈ w', p c = true) (hr : ∀ c ∈ r.head?, p c = false)
    (hs : ∀ c ∈ s.head?, p c = false) (h : w ++ r = w' ++ s) : w = w' ∧ r = s := by
  induction w generalizing w' with
  | nil =>
      cases w' with
      | nil => exact ⟨rfl, h⟩
      | cons c w' =>
          rw [List.nil_append] at h
          subst h
          have hc := hr c rfl
          rw [hw' c List.mem_cons_self] at hc
          cases hc
  | cons c w ih =>
      cases w' with
      | nil =>
          rw [List.nil_append] at h
          subst h
          have hc := hs c rfl
          rw [hw c List.mem_cons_self] at hc
          cases hc
      | cons c' w' =>
          rw [List.forall_mem_cons] at hw hw'
          obtain ⟨rfl, htail⟩ := List.cons.inj h
          obtain ⟨rfl, hrest⟩ := ih hw.2 hw'.2 htail
          exact ⟨rfl, hrest⟩

/-- A character of a word: a letter, a digit or an underscore. -/
def isWordChar (c : Char) : Bool :=
  c.isAlphanum || c == '_'

/-- The text does not go on with a character of a word. -/
def Breaks (r : List Char) : Prop :=
  ∀ c ∈ r.head?, isWordChar c = false

/-- The text is a word. -/
def IsWord (w : String) : Prop :=
  ∀ c ∈ w.toList, isWordChar c = true

theorem word_cancel {v w : String} {r s : List Char} (hv : IsWord v) (hw : IsWord w) (hr : Breaks r)
    (hs : Breaks s) (h : spell v r = spell w s) : v = w ∧ r = s := by
  rw [spell_eq, spell_eq] at h
  obtain ⟨heq, hrest⟩ := run_cancel hv hw hr hs h
  exact ⟨String.toList_inj.mp heq, hrest⟩

/-! ### Numbers -/

theorem isDigit_of_mem_digits {n : Nat} {c : Char} (h : c ∈ Nat.toDigits 10 n) :
    c.isDigit = true :=
  Nat.isDigit_of_mem_toDigits (by decide) (by decide) h

theorem isWordChar_of_isDigit {c : Char} (h : c.isDigit = true) : isWordChar c = true := by
  unfold isWordChar Char.isAlphanum
  rw [h, Bool.or_true, Bool.true_or]

theorem digits_inj {m n : Nat} (h : Nat.toDigits 10 m = Nat.toDigits 10 n) : m = n := by
  rw [← Nat.ofDigitChars_ten_toDigits (n := m), h, Nat.ofDigitChars_ten_toDigits]

theorem digits_cancel {m n : Nat} {r s : List Char} (hr : Breaks r) (hs : Breaks s)
    (h : Nat.toDigits 10 m ++ r = Nat.toDigits 10 n ++ s) : m = n ∧ r = s := by
  have hword : ∀ n, ∀ c ∈ Nat.toDigits 10 n, isWordChar c = true :=
    fun n c hc => isWordChar_of_isDigit (isDigit_of_mem_digits hc)
  obtain ⟨hdigits, hrest⟩ := run_cancel (hword m) (hword n) hr hs h
  exact ⟨digits_inj hdigits, hrest⟩

/-- A number is written as its digits, after a minus sign if it is negative. -/
theorem spell_int (z : Int) (r : List Char) :
    spell (toString z) r =
      if z < 0 then '-' :: (Nat.toDigits 10 z.natAbs ++ r) else Nat.toDigits 10 z.natAbs ++ r := by
  cases z with
  | ofNat n =>
      rw [if_neg (by simp), spell_eq]
      exact congrArg (· ++ r) Nat.toList_repr
  | negSucc n =>
      rw [if_pos (Int.negSucc_lt_zero n)]
      show spell ("-" ++ Nat.repr (n + 1)) r = _
      rw [spell_append, spell_eq, spell_eq, Nat.toList_repr]
      rfl

/-- The digits of a number do not begin with a minus sign. -/
theorem digits_append_ne_minus (n : Nat) (r s : List Char) :
    Nat.toDigits 10 n ++ r ≠ '-' :: s := by
  intro h
  cases hd : Nat.toDigits 10 n with
  | nil => exact Nat.toDigits_ne_nil hd
  | cons c cs =>
      rw [hd, List.cons_append, List.cons.injEq] at h
      have hc : c.isDigit = true := isDigit_of_mem_digits (n := n) (by rw [hd]; exact List.mem_cons_self)
      rw [h.1] at hc
      exact absurd hc (by decide)

theorem int_cancel {y z : Int} {r s : List Char} (hr : Breaks r) (hs : Breaks s)
    (h : spell (toString y) r = spell (toString z) s) : y = z ∧ r = s := by
  rw [spell_int, spell_int] at h
  by_cases hy : y < 0 <;> by_cases hz : z < 0
  · rw [if_pos hy, if_pos hz] at h
    obtain ⟨habs, hrest⟩ := digits_cancel hr hs (List.cons.inj h).2
    exact ⟨by omega, hrest⟩
  · rw [if_pos hy, if_neg hz] at h
    exact absurd h.symm (digits_append_ne_minus _ _ _)
  · rw [if_neg hy, if_pos hz] at h
    exact absurd h (digits_append_ne_minus _ _ _)
  · rw [if_neg hy, if_neg hz] at h
    obtain ⟨habs, hrest⟩ := digits_cancel hr hs h
    exact ⟨by omega, hrest⟩

/-! ### Strings -/

theorem escape_quote (r : List Char) :
    Literal.escape ('\x27' :: r) = '\x27' :: '\x27' :: Literal.escape r := by
  rw [Literal.escape, if_pos rfl]

theorem escape_cons {c : Char} (hc : c ≠ '\x27') (r : List Char) :
    Literal.escape (c :: r) = c :: Literal.escape r := by
  rw [Literal.escape, if_neg hc]

/-- A quote at the front of what follows a string is part of it or ends it. -/
theorem escape_nil_cancel {t q u : List Char} (hq : q.head? ≠ some '\x27')
    (h : '\x27' :: q = Literal.escape t ++ '\x27' :: u) : t = [] ∧ q = u := by
  cases t with
  | nil => exact ⟨rfl, (List.cons.inj h).2⟩
  | cons c t =>
      by_cases hc : c = '\x27'
      · rw [hc, escape_quote] at h
        rw [(List.cons.inj h).2] at hq
        exact absurd rfl hq
      · rw [escape_cons hc] at h
        exact absurd (List.cons.inj h).1.symm hc

/-- A quote that is written once ends a string, if no other quote follows it. -/
theorem escape_cancel {s t q u : List Char} (hq : q.head? ≠ some '\x27')
    (hu : u.head? ≠ some '\x27')
    (h : Literal.escape s ++ '\x27' :: q = Literal.escape t ++ '\x27' :: u) : s = t ∧ q = u := by
  induction s generalizing t with
  | nil =>
      obtain ⟨rfl, hrest⟩ := escape_nil_cancel hq h
      exact ⟨rfl, hrest⟩
  | cons c s ih =>
      cases t with
      | nil =>
          obtain ⟨hnil, _⟩ := escape_nil_cancel hu h.symm
          cases hnil
      | cons d t =>
          by_cases hc : c = '\x27' <;> by_cases hd : d = '\x27'
          · rw [hc, hd, escape_quote, escape_quote] at h
            obtain ⟨rfl, hrest⟩ := ih (List.cons.inj (List.cons.inj h).2).2
            exact ⟨by rw [hc, hd], hrest⟩
          · rw [hc, escape_quote, escape_cons hd] at h
            exact absurd (List.cons.inj h).1.symm hd
          · rw [hd, escape_quote, escape_cons hc] at h
            exact absurd (List.cons.inj h).1 hc
          · rw [escape_cons hc, escape_cons hd] at h
            obtain ⟨rfl, htail⟩ := List.cons.inj h
            obtain ⟨rfl, hrest⟩ := ih htail
            exact ⟨rfl, hrest⟩

/-! ### Words between operands -/

/-- What stands between the first operand of a node and the next. -/
inductive Link where
  | arith (op : ArithOp)
  | compare (op : CompareOp)
  | logic (op : LogicOp)
  | is
  | between
  | like
  | inList

namespace Link

def word : Link → String
  | arith op => op.symbol
  | compare op => op.symbol
  | logic op => op.symbol
  | is => "IS"
  | between => "BETWEEN"
  | like => "LIKE"
  | inList => "IN"

/-- The link that a word spells. -/
def ofWord? (w : String) : Option Link :=
  [arith .add, arith .subtract, arith .multiply, arith .divide, arith .modulo, compare .eq,
    compare .ne, compare .lt, compare .le, compare .gt, compare .ge, logic .and, logic .or, is,
    between, like, inList].find? fun k => k.word == w

theorem ofWord?_word (k : Link) : ofWord? k.word = some k := by
  cases k with
  | arith op => cases op <;> rfl
  | compare op => cases op <;> rfl
  | logic op => cases op <;> rfl
  | _ => rfl

theorem blank_not_mem_word (k : Link) : ' ' ∉ k.word.toList := by
  cases k with
  | arith op => cases op <;> decide
  | compare op => cases op <;> decide
  | logic op => cases op <;> decide
  | _ => decide

/-- A link between blanks, perhaps negated, with more text after it. -/
def write (negated : Bool) (k : Link) (r : List Char) : List Char :=
  Expr.writeNot negated (' ' :: spell k.word (' ' :: r))

/-- A text without blanks ends at the blank. -/
theorem blank_cancel {v w : String} {r s : List Char} (hv : ' ' ∉ v.toList) (hw : ' ' ∉ w.toList)
    (h : spell v (' ' :: r) = spell w (' ' :: s)) : v = w ∧ r = s := by
  have hrun : ∀ w : String, ' ' ∉ w.toList → ∀ c ∈ w.toList, (c != ' ') = true := by
    intro w hw c hc
    rw [bne_iff_ne]
    rintro rfl
    exact hw hc
  have hblank : ∀ x : List Char, ∀ c ∈ (' ' :: x).head?, (c != ' ') = false := by
    intro x c hc
    cases hc
    rfl
  rw [spell_eq, spell_eq] at h
  obtain ⟨heq, hrest⟩ := run_cancel (hrun v hv) (hrun w hw) (hblank r) (hblank s) h
  exact ⟨String.toList_inj.mp heq, (List.cons.inj hrest).2⟩

theorem word_cancel {k k' : Link} {r s : List Char}
    (h : spell k.word (' ' :: r) = spell k'.word (' ' :: s)) : k = k' ∧ r = s := by
  obtain ⟨hw, hrest⟩ := blank_cancel (blank_not_mem_word k) (blank_not_mem_word k') h
  have hk := ofWord?_word k
  rw [hw, ofWord?_word k'] at hk
  exact ⟨(Option.some.inj hk).symm, hrest⟩

/-- No link is spelled like the negation. -/
theorem spell_not_ne (k : Link) (r s : List Char) :
    spell "NOT" (' ' :: r) ≠ spell k.word (' ' :: s) := by
  intro h
  have hk := ofWord?_word k
  rw [← (blank_cancel (by decide) (blank_not_mem_word k) h).1] at hk
  cases hk

/-- Between operands the words up to the next blanks say what stands there. -/
theorem cancel {n n' : Bool} {k k' : Link} {r s : List Char}
    (h : write n k r = write n' k' s) : n = n' ∧ k = k' ∧ r = s := by
  unfold write at h
  cases n <;> cases n'
  · rw [Expr.writeNot_false, Expr.writeNot_false] at h
    exact ⟨rfl, word_cancel (List.cons.inj h).2⟩
  · rw [Expr.writeNot_false, Expr.writeNot_true] at h
    exact absurd (List.cons.inj h).2.symm (spell_not_ne k _ _)
  · rw [Expr.writeNot_true, Expr.writeNot_false] at h
    exact absurd (List.cons.inj h).2 (spell_not_ne k' _ _)
  · rw [Expr.writeNot_true, Expr.writeNot_true] at h
    obtain ⟨_, hrest⟩ := blank_cancel (by decide) (by decide) (List.cons.inj h).2
    exact ⟨rfl, word_cancel hrest⟩

end Link

end StreamSql
