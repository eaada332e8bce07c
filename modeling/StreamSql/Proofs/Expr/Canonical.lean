/-
  Canonical texts tell ordinary expressions apart. An expression is ordinary if its names are
  identifiers that are no keywords, and its constants and types are among those that are spelled in a
  way of their own; two ordinary expressions have the same text exactly if they are the same
  (`text_eq_iff_same`).

  The text of an expression does not say where it ends, so the statement that goes through by
  induction is about texts with more text after them: if two of them agree as a whole, and what
  comes after begins with a blank, a comma or a closing parenthesis, then the expressions are the
  same and what comes after is equal (`Readable`). The front of a text says what kind of expression
  it begins with (`kindOf_write`), which leaves only nodes of one kind to be compared, and among
  those in parentheses a sign from an operand.
-/
import StreamSql.Proofs.Expr.Same
import StreamSql.Proofs.Expr.Spelling

namespace StreamSql

/-! ## Ordinary expressions -/

/-- The words that texts use themselves. -/
def keywords : List String :=
  ["NULL", "TRUE", "FALSE", "NOT", "AND", "OR", "IS", "BETWEEN", "LIKE", "IN", "CASE", "WHEN", "THEN",
    "ELSE", "END", "CAST", "AS", "NULLIF", "DISTINCT"]

/-- The name is an identifier of letters, digits and underscores that does not begin with a digit and
    is no keyword, in capitals or not. -/
def isPlainName (s : String) : Bool :=
  s.toList.head?.any (!·.isDigit) && s.toList.all isWordChar && !keywords.contains (Text.upper s)

/-- The constant is no double, and a 64-bit integer only if it has to be one. -/
def Literal.isOrdinary : Literal → Bool
  | .double _ => false
  | .bigint i => decide (i.toInt < Int32.minValue.toInt ∨ Int32.maxValue.toInt < i.toInt)
  | _ => true

/-- The types that a cast of an ordinary expression may have. -/
def DataType.isOrdinary : DataType → Bool
  | .utf8 | .int32 | .int64 | .float64 | .boolean => true
  | _ => false

namespace Expr

/-- What an ordinary expression asks of a node by itself. -/
def isOrdinaryNode : Expr → Bool
  | literal _ v => v.isOrdinary
  | column _ c => c.qualifier.all isPlainName && isPlainName c.name
  | call _ n _ _ => isPlainName n
  | cast _ _ t => t.isOrdinary
  | _ => true

/-- Every node of the expression is ordinary. -/
def Ordinary (e : Expr) : Prop :=
  ∀ s, Within s e → s.isOrdinaryNode = true

theorem Ordinary.node {e : Expr} (h : Ordinary e) : e.isOrdinaryNode = true :=
  h e .self

theorem Ordinary.part {e c : Expr} (h : Ordinary e) (hc : c ∈ e.children) : Ordinary c :=
  fun s hs => h s (.part hc hs)

theorem ordinary_iff {e : Expr} :
    Ordinary e ↔ e.isOrdinaryNode = true ∧ ∀ c ∈ e.children, Ordinary c := by
  constructor
  · intro h
    exact ⟨h.node, fun c hc => h.part hc⟩
  · rintro ⟨hnode, hparts⟩ s hs
    cases hs with
    | self => exact hnode
    | part hc hs => exact hparts _ hc s hs

end Expr

/-! ## Names -/

theorem isWord_of_isPlainName {s : String} (h : isPlainName s = true) : IsWord s := by
  unfold isPlainName at h
  simp only [Bool.and_eq_true, List.all_eq_true] at h
  exact h.1.2

theorem upper_not_mem_keywords {s : String} (h : isPlainName s = true) :
    Text.upper s ∉ keywords := by
  unfold isPlainName at h
  simp only [Bool.and_eq_true, Bool.not_eq_true', List.contains_eq_mem, decide_eq_false_iff_not] at h
  exact h.2

theorem exists_cons_of_isPlainName {s : String} (h : isPlainName s = true) :
    ∃ c cs, s.toList = c :: cs ∧ c.isDigit = false := by
  unfold isPlainName at h
  simp only [Bool.and_eq_true] at h
  cases hs : s.toList with
  | nil => simp [hs] at h
  | cons c cs => exact ⟨c, cs, rfl, by simpa [hs] using h.1.1⟩

/-! ## What may follow an expression -/

/-- The text ends, or goes on with a blank, a comma or a closing parenthesis. -/
def Stops (r : List Char) : Prop :=
  ∀ c ∈ r.head?, c = ' ' ∨ c = ',' ∨ c = ')'

theorem stops_nil : Stops [] := by
  intro c hc
  cases hc

theorem stops_blank (r : List Char) : Stops (' ' :: r) := by
  intro c hc
  cases hc
  exact Or.inl rfl

theorem stops_comma (r : List Char) : Stops (',' :: r) := by
  intro c hc
  cases hc
  exact Or.inr (Or.inl rfl)

theorem stops_close (r : List Char) : Stops (')' :: r) := by
  intro c hc
  cases hc
  exact Or.inr (Or.inr rfl)

theorem Stops.breaks {r : List Char} (h : Stops r) : Breaks r := by
  intro c hc
  rcases h c hc with rfl | rfl | rfl <;> decide

theorem breaks_cons {c : Char} (hc : isWordChar c = false) (r : List Char) : Breaks (c :: r) := by
  intro d hd
  cases hd
  exact hc

/-! ## The kind of an expression -/

/-- What the front of a text shows of the expression it begins with. -/
inductive Kind where
  | sign (c : Option Char)
  | number
  | keyword (w : String)
  | column
  | call
  deriving DecidableEq

/-- The kind of expression that begins with a run of characters of words and what follows it. -/
def kindOfRun : List Char → List Char → Kind
  | [], r => if r.head? = some '-' then .number else .sign r.head?
  | c :: w, r =>
    let key := Text.upper (String.ofList (c :: w))
    if c.isDigit then .number
    else if key ∈ keywords then .keyword key
    else if r.head? = some '(' then .call
    else .column

/-- The kind of expression that a text begins with. -/
def kindOf (cs : List Char) : Kind :=
  kindOfRun (cs.takeWhile isWordChar) (cs.dropWhile isWordChar)

theorem kindOf_append {w r : List Char} (hw : ∀ c ∈ w, isWordChar c = true) (hr : Breaks r) :
    kindOf (w ++ r) = kindOfRun w r := by
  rw [kindOf, List.takeWhile_append_of_pos hw, List.dropWhile_append_of_pos hw]
  cases r with
  | nil => rw [List.takeWhile_nil, List.dropWhile_nil, List.append_nil]
  | cons c r =>
      have hc : ¬isWordChar c = true := by simp [hr c rfl]
      rw [List.takeWhile_cons_of_neg hc, List.dropWhile_cons_of_neg hc, List.append_nil]

theorem kindOf_cons {c : Char} (hc : isWordChar c = false) (r : List Char) :
    kindOf (c :: r) = if c = '-' then .number else .sign (some c) := by
  have h : kindOf ([] ++ c :: r) = kindOfRun [] (c :: r) :=
    kindOf_append (by simp) (breaks_cons hc r)
  rw [List.nil_append] at h
  rw [h]
  simp [kindOfRun]

theorem kindOf_digits (n : Nat) {r : List Char} (hr : Breaks r) :
    kindOf (Nat.toDigits 10 n ++ r) = .number := by
  have hdigit : ∀ c ∈ Nat.toDigits 10 n, c.isDigit = true := fun c => isDigit_of_mem_digits
  rw [kindOf_append (fun c hc => isWordChar_of_isDigit (hdigit c hc)) hr]
  cases hd : Nat.toDigits 10 n with
  | nil => exact absurd hd Nat.toDigits_ne_nil
  | cons c cs =>
      rw [hd] at hdigit
      rw [kindOfRun, if_pos (hdigit c List.mem_cons_self)]

theorem kindOf_int (z : Int) {r : List Char} (hr : Breaks r) :
    kindOf (spell (toString z) r) = .number := by
  rw [spell_int]
  split
  · rw [kindOf_cons (by decide), if_pos rfl]
  · exact kindOf_digits _ hr

theorem kindOf_word {w : String} {c : Char} {cs r : List Char} (hw : IsWord w)
    (hcs : w.toList = c :: cs) (hc : c.isDigit = false) (hr : Breaks r) :
    kindOf (spell w r) =
      if Text.upper w ∈ keywords then .keyword (Text.upper w)
      else if r.head? = some '(' then .call else .column := by
  have hof : String.ofList (c :: cs) = w := by
    rw [← hcs]
    exact String.ofList_toList
  rw [spell_eq, kindOf_append hw hr, hcs, kindOfRun]
  simp only [hc, hof, Bool.false_eq_true, if_false]

theorem kindOf_name {n : String} (hn : isPlainName n = true) {r : List Char} (hr : Breaks r) :
    kindOf (spell n r) = if r.head? = some '(' then .call else .column := by
  obtain ⟨c, cs, hcs, hc⟩ := exists_cons_of_isPlainName hn
  rw [kindOf_word (isWord_of_isPlainName hn) hcs hc hr, if_neg (upper_not_mem_keywords hn)]

/-- The words that texts use themselves, as they are spelled. -/
def spelledWords : List String :=
  "true" :: "false" :: keywords

theorem kindOf_keyword {w : String} (hw : w ∈ spelledWords) {r : List Char} (hr : Breaks r) :
    kindOf (spell w r) = .keyword (Text.upper w) := by
  have hwords : ∀ w ∈ spelledWords, w.toList.all isWordChar = true ∧
      w.toList.head?.any (!·.isDigit) = true ∧ Text.upper w ∈ keywords := by
    decide
  obtain ⟨hword, hfirst, hkey⟩ := hwords w hw
  cases hcs : w.toList with
  | nil => simp [hcs] at hfirst
  | cons c cs =>
      have hc : c.isDigit = false := by simpa [hcs] using hfirst
      rw [kindOf_word (List.all_eq_true.mp hword) hcs hc hr, if_pos hkey]

def Literal.kind : Literal → Kind
  | .null => .keyword "NULL"
  | .boolean true => .keyword "TRUE"
  | .boolean false => .keyword "FALSE"
  | .integer _ | .bigint _ | .double _ => .number
  | .string _ => .sign (some '\x27')

namespace Expr

def kind : Expr → Kind
  | literal _ v => v.kind
  | column _ _ => .column
  | wildcard _ => .sign (some '*')
  | call _ _ _ _ => .call
  | nullIf _ _ _ => .keyword "NULLIF"
  | case _ _ _ _ => .keyword "CASE"
  | cast _ _ _ => .keyword "CAST"
  | _ => .sign (some '(')

/-- What comes after the operand of a case. -/
def writeRest (bs : List (Expr × Expr)) (e : Option Expr) (r : List Char) : List Char :=
  writeBranches bs (writeOption " ELSE " e (spell " END" r))

/-- After its operand a case goes on with one of three keywords. -/
theorem exists_word_writeRest (bs : List (Expr × Expr)) (e : Option Expr) {r : List Char}
    (hr : Stops r) :
    ∃ w ∈ ["WHEN", "ELSE", "END"], ∃ x, writeRest bs e r = ' ' :: spell w x ∧ Breaks x := by
  unfold writeRest
  cases bs with
  | cons b bs =>
      obtain ⟨w, t⟩ := b
      refine ⟨"WHEN", by decide, ' ' :: write w (spell " THEN " (write t (writeRest bs e r))), ?_,
        breaks_cons (by decide) _⟩
      rw [writeBranches, writeBranch, ← writeRest, spell_eq, spell_eq "WHEN"]
      rfl
  | nil =>
      cases e with
      | some e =>
          refine ⟨"ELSE", by decide, ' ' :: write e (spell " END" r), ?_, breaks_cons (by decide) _⟩
          rw [writeBranches, writeOption, spell_eq, spell_eq "ELSE"]
          rfl
      | none =>
          refine ⟨"END", by decide, r, ?_, hr.breaks⟩
          rw [writeBranches, writeOption, spell_eq, spell_eq "END"]
          rfl

theorem stops_writeRest (bs : List (Expr × Expr)) (e : Option Expr) {r : List Char} (hr : Stops r) :
    Stops (writeRest bs e r) := by
  obtain ⟨w, _, x, hx, _⟩ := exists_word_writeRest bs e hr
  rw [hx]
  exact stops_blank _

theorem kindOf_literal {v : Literal} (hv : v.isOrdinary = true) {r : List Char} (hr : Stops r) :
    kindOf (spell v.text r) = v.kind := by
  cases v with
  | null => exact kindOf_keyword (by decide) hr.breaks
  | boolean b =>
      cases b with
      | true => exact kindOf_keyword (by decide) hr.breaks
      | false => exact kindOf_keyword (by decide) hr.breaks
  | integer i => exact kindOf_int _ hr.breaks
  | bigint i => exact kindOf_int _ hr.breaks
  | double d => cases hv
  | string s =>
      rw [Literal.text, spell_append, spell_append, spell_eq]
      exact kindOf_cons (by decide) _

theorem kindOf_column {c : ColumnRef} (hc : (c.qualifier.all isPlainName && isPlainName c.name) = true)
    {r : List Char} (hr : Stops r) : kindOf (spell c.text r) = .column := by
  rw [Bool.and_eq_true] at hc
  obtain ⟨qualifier, name⟩ := c
  cases qualifier with
  | none =>
      rw [ColumnRef.text, kindOf_name hc.2 hr.breaks, if_neg]
      intro h
      rcases hr _ h with h | h | h <;> cases h
  | some q =>
      rw [ColumnRef.text, spell_append, spell_append,
        kindOf_name hc.1 (by rw [spell_eq]; exact breaks_cons (by decide) _), spell_eq]
      rfl

/-- The front of the text of an expression shows its kind. -/
theorem kindOf_write {e : Expr} (he : e.isOrdinaryNode = true) {r : List Char} (hr : Stops r) :
    kindOf (e.write r) = e.kind := by
  cases e with
  | literal l v =>
      rw [write]
      exact kindOf_literal he hr
  | column l c =>
      rw [write]
      exact kindOf_column he hr
  | wildcard l =>
      rw [write]
      exact kindOf_cons (by decide) r
  | call l n as d =>
      rw [write]
      exact kindOf_name he (breaks_cons (by decide) _)
  | nullIf l a b =>
      rw [write]
      exact kindOf_keyword (by decide) (breaks_cons (by decide) _)
  | cast l a t =>
      rw [write]
      exact kindOf_keyword (by decide) (breaks_cons (by decide) _)
  | case l o bs e =>
      rw [write, ← writeRest]
      apply kindOf_keyword (by decide)
      cases o with
      | none =>
          rw [writeOption]
          exact (stops_writeRest bs e hr).breaks
      | some o =>
          rw [writeOption, spell_eq]
          exact breaks_cons (by decide) _
  | unary | arith | compare | logic | isNull | between | like | inList =>
      rw [write]
      exact kindOf_cons (by decide) _

end Expr

/-! ## Nodes without parts -/

theorem spell_left_cancel {w : String} {r s : List Char} (h : spell w r = spell w s) : r = s := by
  rw [spell_eq, spell_eq] at h
  exact List.append_cancel_left h

theorem literal_cancel {v w : Literal} {r s : List Char} (hv : v.isOrdinary = true)
    (hw : w.isOrdinary = true) (hr : Stops r) (hs : Stops s)
    (h : spell v.text r = spell w.text s) : v = w ∧ r = s := by
  have hkind : v.kind = w.kind := by
    rw [← Expr.kindOf_literal hv hr, h, Expr.kindOf_literal hw hs]
  -- no quote follows a string
  have hquote : ∀ {r : List Char}, Stops r → r.head? ≠ some '\x27' := by
    intro r hr hq
    rcases hr _ hq with h | h | h <;> cases h
  cases v with
  | null =>
      cases w with
      | null => exact ⟨rfl, spell_left_cancel h⟩
      | boolean b => cases b <;> simp [Literal.kind] at hkind
      | _ => cases hkind
  | boolean b =>
      cases w with
      | null => cases b <;> simp [Literal.kind] at hkind
      | boolean b' =>
          have hb : b = b' := by cases b <;> cases b' <;> simp [Literal.kind] at hkind ⊢
          subst hb
          exact ⟨rfl, spell_left_cancel h⟩
      | _ => cases b <;> cases hkind
  | integer i =>
      cases w with
      | integer j =>
          obtain ⟨hij, hrest⟩ := int_cancel hr.breaks hs.breaks h
          rw [Int32.toInt_inj.mp hij]
          exact ⟨rfl, hrest⟩
      | bigint j =>
          -- a 64-bit integer that fits 32 bits is not ordinary
          obtain ⟨hij, _⟩ := int_cancel hr.breaks hs.breaks h
          have hlo := i.minValue_le_toInt
          have hhi := i.toInt_le
          have hj := of_decide_eq_true hw
          omega
      | double d => cases hw
      | boolean b => cases b <;> cases hkind
      | _ => cases hkind
  | bigint i =>
      cases w with
      | integer j =>
          obtain ⟨hij, _⟩ := int_cancel hr.breaks hs.breaks h
          have hlo := j.minValue_le_toInt
          have hhi := j.toInt_le
          have hi := of_decide_eq_true hv
          omega
      | bigint j =>
          obtain ⟨hij, hrest⟩ := int_cancel hr.breaks hs.breaks h
          rw [Int64.toInt_inj.mp hij]
          exact ⟨rfl, hrest⟩
      | double d => cases hw
      | boolean b => cases b <;> cases hkind
      | _ => cases hkind
  | double d => cases hv
  | string t =>
      cases w with
      | string u =>
          rw [Literal.text, Literal.text, spell_append, spell_append, spell_append, spell_append] at h
          have h := spell_left_cancel h
          simp only [spell_eq, String.toList_ofList, String.reduceToList, List.cons_append,
            List.nil_append] at h
          obtain ⟨htu, hrest⟩ := escape_cancel (hquote hr) (hquote hs) h
          rw [String.toList_inj.mp htu]
          exact ⟨rfl, hrest⟩
      | boolean b => cases b <;> cases hkind
      | _ => cases hkind

/-- A column with a qualifier goes on with a point, one without does not. -/
theorem column_cancel {c d : ColumnRef} {r s : List Char}
    (hc : (c.qualifier.all isPlainName && isPlainName c.name) = true)
    (hd : (d.qualifier.all isPlainName && isPlainName d.name) = true) (hr : Stops r) (hs : Stops s)
    (h : spell c.text r = spell d.text s) : c = d ∧ r = s := by
  have hpoint : ∀ (n : String) (r : List Char), Breaks (spell "." (spell n r)) := by
    intro n r
    rw [spell_eq]
    exact breaks_cons (by decide) _
  have hstop : ∀ {r : List Char} (n : String) (s : List Char), Stops r → r ≠ spell "." (spell n s) := by
    rintro r n s hr rfl
    rw [spell_eq] at hr
    rcases hr '.' rfl with h | h | h <;> cases h
  rw [Bool.and_eq_true] at hc hd
  obtain ⟨q, n⟩ := c
  obtain ⟨q', n'⟩ := d
  have hn := isWord_of_isPlainName hc.2
  have hn' := isWord_of_isPlainName hd.2
  cases q with
  | none =>
      cases q' with
      | none =>
          obtain ⟨rfl, hrest⟩ := word_cancel hn hn' hr.breaks hs.breaks h
          exact ⟨rfl, hrest⟩
      | some q' =>
          rw [ColumnRef.text, ColumnRef.text, spell_append, spell_append] at h
          obtain ⟨_, hrest⟩ := word_cancel hn (isWord_of_isPlainName hd.1) hr.breaks (hpoint n' s) h
          exact absurd hrest (hstop n' s hr)
  | some q =>
      have hq := isWord_of_isPlainName hc.1
      cases q' with
      | none =>
          rw [ColumnRef.text, ColumnRef.text, spell_append, spell_append] at h
          obtain ⟨_, hrest⟩ := word_cancel hq hn' (hpoint n r) hs.breaks h
          exact absurd hrest.symm (hstop n r hs)
      | some q' =>
          rw [ColumnRef.text, ColumnRef.text, spell_append, spell_append, spell_append,
            spell_append] at h
          obtain ⟨rfl, hafter⟩ :=
            word_cancel hq (isWord_of_isPlainName hd.1) (hpoint n r) (hpoint n' s) h
          obtain ⟨rfl, hrest⟩ := word_cancel hn hn' hr.breaks hs.breaks (spell_left_cancel hafter)
          exact ⟨rfl, hrest⟩

/-! ## Parts in a row -/

namespace Expr

/-- The expression can be taken off the front of a text in one way only. -/
def Readable (a : Expr) : Prop :=
  Ordinary a → ∀ b, Ordinary b → ∀ r s, Stops r → Stops s → a.write r = b.write s →
    a.same b = true ∧ r = s

theorem kind_ne_sign {c : Char} (hc : c ∉ ['\x27', '*', '(']) (e : Expr) :
    e.kind ≠ .sign (some c) := by
  intro h
  simp only [List.mem_cons, List.not_mem_nil, or_false, not_or] at hc
  cases e with
  | literal l v =>
      cases v with
      | boolean b => cases b <;> cases h
      | string s =>
          cases h
          exact hc.1 rfl
      | _ => cases h
  | wildcard l =>
      cases h
      exact hc.2.1 rfl
  | unary | arith | compare | logic | isNull | between | like | inList =>
      cases h
      exact hc.2.2 rfl
  | _ => cases h

theorem kind_ne_keyword {w : String}
    (hw : w ∉ ["NULL", "TRUE", "FALSE", "NULLIF", "CASE", "CAST"]) (e : Expr) :
    e.kind ≠ .keyword w := by
  intro h
  simp only [List.mem_cons, List.not_mem_nil, or_false, not_or] at hw
  obtain ⟨hnull, htrue, hfalse, hnullif, hcase, hcast⟩ := hw
  cases e with
  | literal l v =>
      cases v with
      | null => exact hnull (Kind.keyword.inj h).symm
      | boolean b =>
          cases b with
          | true => exact htrue (Kind.keyword.inj h).symm
          | false => exact hfalse (Kind.keyword.inj h).symm
      | _ => cases h
  | nullIf => exact hnullif (Kind.keyword.inj h).symm
  | case => exact hcase (Kind.keyword.inj h).symm
  | cast => exact hcast (Kind.keyword.inj h).symm
  | _ => cases h

theorem stops_writeMore (es : List Expr) (r : List Char) : Stops (writeMore es (')' :: r)) := by
  cases es with
  | nil =>
      rw [writeMore]
      exact stops_close r
  | cons e es =>
      rw [writeMore]
      exact stops_comma _

theorem writeMore_cancel {as bs : List Expr} {r s : List Char} (hread : ∀ a ∈ as, Readable a)
    (ha : ∀ a ∈ as, Ordinary a) (hb : ∀ b ∈ bs, Ordinary b)
    (h : writeMore as (')' :: r) = writeMore bs (')' :: s)) : sameList as bs = true ∧ r = s := by
  induction as generalizing bs with
  | nil =>
      cases bs with
      | nil =>
          rw [writeMore, writeMore] at h
          exact ⟨by rw [sameList], (List.cons.inj h).2⟩
      | cons b bs =>
          rw [writeMore, writeMore] at h
          cases (List.cons.inj h).1
  | cons a as ih =>
      cases bs with
      | nil =>
          rw [writeMore, writeMore] at h
          cases (List.cons.inj h).1
      | cons b bs =>
          rw [List.forall_mem_cons] at hread ha hb
          rw [writeMore, writeMore] at h
          obtain ⟨hsame, hmore⟩ := hread.1 ha.1 b hb.1 _ _ (stops_writeMore as r)
            (stops_writeMore bs s) (List.cons.inj (List.cons.inj h).2).2
          obtain ⟨hrest, hrs⟩ := ih hread.2 ha.2 hb.2 hmore
          exact ⟨by rw [sameList, hsame, hrest]; rfl, hrs⟩

/-- A list of expressions up to the parenthesis that closes it. -/
theorem writeList_cancel {as bs : List Expr} {r s : List Char} (hread : ∀ a ∈ as, Readable a)
    (ha : ∀ a ∈ as, Ordinary a) (hb : ∀ b ∈ bs, Ordinary b)
    (h : writeList as (')' :: r) = writeList bs (')' :: s)) : sameList as bs = true ∧ r = s := by
  -- no expression begins with the parenthesis
  have hclose : ∀ {e : Expr} {es : List Expr} {r s : List Char}, Ordinary e →
      ')' :: r ≠ write e (writeMore es (')' :: s)) := by
    intro e es r s he h
    have hk := kindOf_write he.node (stops_writeMore es s)
    rw [← h, kindOf_cons (by decide), if_neg (by decide)] at hk
    exact kind_ne_sign (by decide) e hk.symm
  cases as with
  | nil =>
      cases bs with
      | nil =>
          rw [writeList, writeList] at h
          exact ⟨by rw [sameList], (List.cons.inj h).2⟩
      | cons b bs =>
          rw [writeList, writeList] at h
          exact absurd h (hclose (hb b List.mem_cons_self))
  | cons a as =>
      cases bs with
      | nil =>
          rw [writeList, writeList] at h
          exact absurd h.symm (hclose (ha a List.mem_cons_self))
      | cons b bs =>
          rw [List.forall_mem_cons] at hread ha hb
          rw [writeList, writeList] at h
          obtain ⟨hsame, hmore⟩ := hread.1 ha.1 b hb.1 _ _ (stops_writeMore as r)
            (stops_writeMore bs s) h
          obtain ⟨hrest, hrs⟩ := writeMore_cancel hread.2 ha.2 hb.2 hmore
          exact ⟨by rw [sameList, hsame, hrest]; rfl, hrs⟩

theorem stops_spell {w : String} (hw : w.toList.head? = some ' ') (r : List Char) :
    Stops (spell w r) := by
  intro c hc
  rw [spell_eq, List.head?_append, hw] at hc
  cases hc
  exact Or.inl rfl

theorem writeElse_cancel {e f : Option Expr} {r s : List Char}
    (hread : ∀ c ∈ e.toList, Readable c) (he : ∀ c ∈ e.toList, Ordinary c)
    (hf : ∀ c ∈ f.toList, Ordinary c)
    (h : writeOption " ELSE " e (spell " END" r) = writeOption " ELSE " f (spell " END" s)) :
    sameOption e f = true ∧ r = s := by
  cases e with
  | none =>
      cases f with
      | none =>
          rw [writeOption, writeOption] at h
          exact ⟨by rw [sameOption], spell_left_cancel h⟩
      | some f => simp [writeOption, spell_eq] at h
  | some e =>
      cases f with
      | none => simp [writeOption, spell_eq] at h
      | some f =>
          rw [writeOption, writeOption] at h
          obtain ⟨hsame, hrest⟩ := hread e (by simp) (he e (by simp)) f (hf f (by simp)) _ _
            (stops_spell rfl r) (stops_spell rfl s) (spell_left_cancel h)
          exact ⟨by rw [sameOption, hsame], spell_left_cancel hrest⟩

/-- A case after its operand. -/
theorem writeRest_cancel {bs ds : List (Expr × Expr)} {e f : Option Expr} {r s : List Char}
    (hread : ∀ c ∈ (bs.flatMap fun b => [b.1, b.2]) ++ e.toList, Readable c)
    (hb : ∀ c ∈ (bs.flatMap fun b => [b.1, b.2]) ++ e.toList, Ordinary c)
    (hd : ∀ c ∈ (ds.flatMap fun b => [b.1, b.2]) ++ f.toList, Ordinary c)
    (hr : Stops r) (hs : Stops s) (h : writeRest bs e r = writeRest ds f s) :
    sameBranches bs ds = true ∧ sameOption e f = true ∧ r = s := by
  induction bs generalizing ds with
  | nil =>
      cases ds with
      | nil =>
          unfold writeRest at h
          rw [writeBranches, writeBranches] at h
          obtain ⟨hsame, hrs⟩ := writeElse_cancel hread hb hd h
          exact ⟨by rw [sameBranches], hsame, hrs⟩
      | cons d ds =>
          obtain ⟨w, t⟩ := d
          cases e <;> simp [writeRest, writeBranches, writeBranch, writeOption, spell_eq] at h
  | cons b bs ih =>
      obtain ⟨w, t⟩ := b
      cases ds with
      | nil => cases f <;> simp [writeRest, writeBranches, writeBranch, writeOption, spell_eq] at h
      | cons d ds =>
          obtain ⟨w', t'⟩ := d
          simp only [List.flatMap_cons, List.cons_append, List.nil_append,
            List.forall_mem_cons] at hread hb hd
          unfold writeRest at h
          rw [writeBranches, writeBranches, writeBranch, writeBranch, ← writeRest, ← writeRest] at h
          obtain ⟨hw, hthen⟩ := hread.1 hb.1 w' hd.1 _ _ (stops_spell rfl _) (stops_spell rfl _)
            (spell_left_cancel h)
          obtain ⟨ht, hrest⟩ := hread.2.1 hb.2.1 t' hd.2.1 _ _ (stops_writeRest bs e hr)
            (stops_writeRest ds f hs) (spell_left_cancel hthen)
          obtain ⟨hbs, he, hrs⟩ := ih hread.2.2 hb.2.2 hd.2.2 hrest
          exact ⟨by rw [sameBranches, hw, ht, hbs]; rfl, he, hrs⟩

/-- The operand of a case is no keyword that goes on after it. -/
theorem writeRest_ne {bs ds : List (Expr × Expr)} {e f : Option Expr} {o : Expr} {r s : List Char}
    (ho : Ordinary o) (hr : Stops r) (hs : Stops s) :
    writeRest bs e r ≠ spell " " (write o (writeRest ds f s)) := by
  intro h
  obtain ⟨w, hw, x, hx, hbreak⟩ := exists_word_writeRest bs e hr
  rw [hx, spell_eq " "] at h
  have hfront : spell w x = write o (writeRest ds f s) := (List.cons.inj h).2
  have hk := kindOf_write ho.node (stops_writeRest ds f hs)
  have hwords : ∀ w ∈ ["WHEN", "ELSE", "END"], w ∈ spelledWords ∧
      Text.upper w ∉ ["NULL", "TRUE", "FALSE", "NULLIF", "CASE", "CAST"] := by
    decide
  rw [← hfront, kindOf_keyword (hwords w hw).1 hbreak] at hk
  exact kind_ne_keyword (hwords w hw).2 o hk.symm

/-! ## Two nodes -/

/-- Two ordinary nodes that are to be compared, with readable parts. -/
structure Comparable (a b : Expr) : Prop where
  readable : ∀ c ∈ a.children, Readable c
  left : Ordinary a
  right : Ordinary b

namespace Comparable

variable {a b : Expr} (hab : Comparable a b)
include hab

theorem part {c d : Expr} (hc : c ∈ a.children) (hd : d ∈ b.children) {r s : List Char}
    (hr : Stops r) (hs : Stops s) (h : c.write r = d.write s) : c.same d = true ∧ r = s :=
  hab.readable c hc (hab.left.part hc) d (hab.right.part hd) r s hr hs h

/-- A part up to the parenthesis that closes the node. -/
theorem last {c d : Expr} (hc : c ∈ a.children) (hd : d ∈ b.children) {r s : List Char}
    (h : c.write (')' :: r) = d.write (')' :: s)) : c.same d = true ∧ r = s := by
  obtain ⟨hsame, hrest⟩ := hab.part hc hd (stops_close r) (stops_close s) h
  exact ⟨hsame, (List.cons.inj hrest).2⟩

theorem list {cs ds : List Expr} (hcs : ∀ c ∈ cs, c ∈ a.children) (hds : ∀ d ∈ ds, d ∈ b.children)
    {r s : List Char} (h : writeList cs (')' :: r) = writeList ds (')' :: s)) :
    sameList cs ds = true ∧ r = s :=
  writeList_cancel (fun c hc => hab.readable c (hcs c hc)) (fun c hc => hab.left.part (hcs c hc))
    (fun d hd => hab.right.part (hds d hd)) h

end Comparable

/-! ## Nodes in parentheses -/

/-- A node that begins with an operand: the operand, what links it to the rest, and the rest. -/
def linked? : Expr → Option (Expr × Bool × Link × (List Char → List Char))
  | arith _ a op b => some (a, false, .arith op, fun r => write b (')' :: r))
  | compare _ a op b => some (a, false, .compare op, fun r => write b (')' :: r))
  | logic _ a op b => some (a, false, .logic op, fun r => write b (')' :: r))
  | isNull _ e n => some (e, false, .is, fun r => spell (if n then "NOT NULL)" else "NULL)") r)
  | between _ e lo hi n =>
    some (e, n, .between, fun r => write lo (spell " AND " (write hi (')' :: r))))
  | like _ e p n => some (e, n, .like, fun r => write p (')' :: r))
  | inList _ e es n => some (e, n, .inList, fun r => '(' :: writeList es (')' :: ')' :: r))
  | _ => none

theorem write_of_linked {e x : Expr} {n : Bool} {k : Link} {rest : List Char → List Char}
    (h : e.linked? = some (x, n, k, rest)) (r : List Char) :
    e.write r = '(' :: x.write (Link.write n k (rest r)) := by
  cases e with
  | arith | compare | logic =>
      cases h
      rw [write, Link.write, writeNot_false]
      rfl
  | isNull l e neg =>
      cases h
      rw [write, Link.write, writeNot_false]
      cases neg <;> simp [writeNot, notWord, spell_eq, Link.word]
  | between | like | inList =>
      cases h
      rw [write, Link.write]
      simp [spell_eq, Link.word]
  | _ => cases h

theorem mem_children_of_linked {e x : Expr} {n : Bool} {k : Link} {rest : List Char → List Char}
    (h : e.linked? = some (x, n, k, rest)) : x ∈ e.children := by
  cases e <;> cases h <;> simp [children]

theorem exists_blank_link (n : Bool) (k : Link) (r : List Char) :
    ∃ z, Link.write n k r = ' ' :: z := by
  unfold Link.write
  cases n with
  | false =>
      rw [writeNot_false]
      exact ⟨_, rfl⟩
  | true =>
      rw [writeNot_true]
      exact ⟨_, rfl⟩

theorem stops_link (n : Bool) (k : Link) (r : List Char) : Stops (Link.write n k r) := by
  obtain ⟨z, hz⟩ := exists_blank_link n k r
  rw [hz]
  exact stops_blank z

theorem exists_int_of_kind {e : Expr} (he : e.isOrdinaryNode = true) (h : e.kind = .number) :
    ∃ z : Int, ∀ r, e.write r = spell (toString z) r := by
  cases e with
  | literal l v =>
      cases v with
      | integer i => exact ⟨i.toInt, fun r => by rw [write, Literal.text]⟩
      | bigint i => exact ⟨i.toInt, fun r => by rw [write, Literal.text]⟩
      | double d => cases he
      | boolean b => cases b <;> cases h
      | _ => cases h
  | _ => cases h

/-- A negative number that is an operand is told from the negation of a number by what follows the
    digits. -/
theorem minus_ne_linked {e x : Expr} {r z : List Char} (he : Ordinary e) (hx : Ordinary x) :
    '-' :: write e (')' :: r) ≠ write x (' ' :: z) := by
  intro h
  have hkx := kindOf_write hx.node (stops_blank z)
  rw [← h, kindOf_cons (by decide), if_pos rfl] at hkx
  obtain ⟨i, hi⟩ := exists_int_of_kind hx.node hkx.symm
  rw [hi, spell_int] at h
  split at h
  · -- both go on with the digits
    have hdigits : write e (')' :: r) = Nat.toDigits 10 i.natAbs ++ ' ' :: z := (List.cons.inj h).2
    have hke := kindOf_write he.node (stops_close r)
    rw [hdigits, kindOf_digits _ (breaks_cons (by decide) z)] at hke
    obtain ⟨j, hj⟩ := exists_int_of_kind he.node hke.symm
    have hnat : Nat.toDigits 10 i.natAbs ++ ' ' :: z = spell (toString (i.natAbs : Int)) (' ' :: z) := by
      rw [spell_int, if_neg (by omega)]
      rfl
    rw [hj, hnat] at hdigits
    obtain ⟨_, hrest⟩ := int_cancel (stops_close r).breaks (stops_blank z).breaks hdigits
    cases (List.cons.inj hrest).1
  · exact digits_append_ne_minus _ _ _ h.symm

/-- A sign before an operand is no operand. -/
theorem unary_ne_linked {op : UnaryOp} {e x : Expr} {n : Bool} {k : Link} {r s : List Char}
    (he : Ordinary e) (hx : Ordinary x) :
    spell op.symbol (write e (')' :: r)) ≠ write x (Link.write n k s) := by
  intro h
  have hkx := kindOf_write hx.node (stops_link n k s)
  cases op with
  | minus =>
      obtain ⟨z, hz⟩ := exists_blank_link n k s
      rw [hz, spell_eq] at h
      exact minus_ne_linked he hx h
  | plus =>
      have hfront : spell UnaryOp.plus.symbol (write e (')' :: r)) = '+' :: write e (')' :: r) := by
        rw [spell_eq]
        rfl
      rw [← h, hfront, kindOf_cons (by decide), if_neg (by decide)] at hkx
      exact kind_ne_sign (by decide) x hkx.symm
  | not =>
      have hfront : spell UnaryOp.not.symbol (write e (')' :: r)) =
          spell "NOT" (' ' :: write e (')' :: r)) := by
        rw [spell_eq, spell_eq]
        rfl
      rw [← h, hfront, kindOf_keyword (by decide) (breaks_cons (by decide) _)] at hkx
      exact kind_ne_keyword (by decide) x hkx.symm

theorem unary_cancel {l l' : Option Location} {op op' : UnaryOp} {e e' : Expr} {r s : List Char}
    (hab : Comparable (unary l op e) (unary l' op' e'))
    (h : write (unary l op e) r = write (unary l' op' e') s) :
    (unary l op e).same (unary l' op' e') = true ∧ r = s := by
  rw [write, write] at h
  have hinner := (List.cons.inj h).2
  have hop : op = op' := by
    by_contra hne
    cases op <;> cases op' <;> simp [spell_eq, UnaryOp.symbol] at hinner hne
  subst hop
  obtain ⟨hsame, hrs⟩ := hab.last (by simp [children]) (by simp [children]) (spell_left_cancel hinner)
  exact ⟨by simp [same, hsame], hrs⟩

/-- Two nodes that begin with an operand. -/
theorem linked_cancel {a b x x' : Expr} {n n' : Bool} {k k' : Link}
    {rest rest' : List Char → List Char} {r s : List Char} (hab : Comparable a b)
    (hla : a.linked? = some (x, n, k, rest)) (hlb : b.linked? = some (x', n', k', rest'))
    (h : a.write r = b.write s) : a.same b = true ∧ r = s := by
  rw [write_of_linked hla, write_of_linked hlb] at h
  obtain ⟨hx, htail⟩ := hab.part (mem_children_of_linked hla) (mem_children_of_linked hlb)
    (stops_link n k _) (stops_link n' k' _) (List.cons.inj h).2
  obtain ⟨rfl, rfl, hrest⟩ := Link.cancel htail
  -- equal links leave one constructor for the second node
  cases a with
  | arith | compare | logic =>
      cases hla
      cases b <;> cases hlb
      obtain ⟨hy, hrs⟩ := hab.last (by simp [children]) (by simp [children]) hrest
      exact ⟨by simp [same, hx, hy], hrs⟩
  | isNull l e neg =>
      cases hla
      cases b <;> cases hlb
      rename_i neg'
      cases neg <;> cases neg' <;> simp [spell_eq] at hrest
      · exact ⟨by simp [same, hx], hrest⟩
      · exact ⟨by simp [same, hx], hrest⟩
  | between l e lo hi neg =>
      cases hla
      cases b <;> cases hlb
      obtain ⟨hlo, hand⟩ := hab.part (c := lo) (by simp [children]) (by simp [children])
        (stops_spell rfl _) (stops_spell rfl _) hrest
      obtain ⟨hhi, hrs⟩ := hab.last (by simp [children]) (by simp [children]) (spell_left_cancel hand)
      exact ⟨by simp [same, hx, hlo, hhi], hrs⟩
  | like l e p neg =>
      cases hla
      cases b <;> cases hlb
      obtain ⟨hp, hrs⟩ := hab.last (by simp [children]) (by simp [children]) hrest
      exact ⟨by simp [same, hx, hp], hrs⟩
  | inList l e es neg =>
      cases hla
      cases b <;> cases hlb
      obtain ⟨hes, hrs⟩ := hab.list (fun c hc => List.mem_cons_of_mem _ hc)
        (fun d hd => List.mem_cons_of_mem _ hd) (List.cons.inj hrest).2
      exact ⟨by simp [same, hx, hes], (List.cons.inj hrs).2⟩
  | _ => cases hla

/-! ## Other nodes -/

/-- The arguments of a call do not begin like the word for distinct arguments. -/
theorem distinct_ne {as : List Expr} {r s : List Char} (ha : ∀ a ∈ as, Ordinary a) :
    spell "DISTINCT " s ≠ writeList as (')' :: r) := by
  intro h
  have hfront : spell "DISTINCT " s = spell "DISTINCT" (' ' :: s) := by
    rw [spell_eq, spell_eq]
    rfl
  have hkey : kindOf (writeList as (')' :: r)) = .keyword "DISTINCT" := by
    rw [← h, hfront]
    exact kindOf_keyword (by decide) (breaks_cons (by decide) s)
  cases as with
  | nil =>
      rw [writeList, kindOf_cons (by decide)] at hkey
      cases hkey
  | cons a as =>
      rw [writeList, kindOf_write (ha a List.mem_cons_self).node (stops_writeMore as r)] at hkey
      exact kind_ne_keyword (by decide) a hkey

theorem call_cancel {l l' : Option Location} {m m' : String} {as bs : List Expr} {d d' : Bool}
    {r s : List Char} (hab : Comparable (call l m as d) (call l' m' bs d'))
    (h : write (call l m as d) r = write (call l' m' bs d') s) :
    (call l m as d).same (call l' m' bs d') = true ∧ r = s := by
  rw [write, write] at h
  obtain ⟨rfl, hopen⟩ := word_cancel (isWord_of_isPlainName hab.left.node)
    (isWord_of_isPlainName hab.right.node) (breaks_cons (by decide) _) (breaks_cons (by decide) _) h
  have hargs := (List.cons.inj hopen).2
  have hd : d = d' := by
    cases d <;> cases d'
    · rfl
    · rw [if_neg (by decide), if_pos rfl, spell_empty] at hargs
      exact absurd hargs.symm (distinct_ne fun a => hab.left.part)
    · rw [if_pos rfl, if_neg (by decide), spell_empty] at hargs
      exact absurd hargs (distinct_ne fun b => hab.right.part)
    · rfl
  subst hd
  obtain ⟨hsame, hrs⟩ := hab.list (fun c (hc : c ∈ as) => hc) (fun c (hc : c ∈ bs) => hc)
    (spell_left_cancel hargs)
  exact ⟨by simp [same, hsame], hrs⟩

theorem nullIf_cancel {l l' : Option Location} {a b a' b' : Expr} {r s : List Char}
    (hab : Comparable (nullIf l a b) (nullIf l' a' b'))
    (h : write (nullIf l a b) r = write (nullIf l' a' b') s) :
    (nullIf l a b).same (nullIf l' a' b') = true ∧ r = s := by
  rw [write, write] at h
  obtain ⟨hfirst, hcomma⟩ := hab.part (by simp [children]) (by simp [children]) (stops_comma _)
    (stops_comma _) (List.cons.inj (spell_left_cancel h)).2
  obtain ⟨hsecond, hrs⟩ := hab.last (by simp [children]) (by simp [children])
    (List.cons.inj (List.cons.inj hcomma).2).2
  exact ⟨by simp [same, hfirst, hsecond], hrs⟩

theorem mem_children_case {l : Option Location} {o : Option Expr} {bs : List (Expr × Expr)}
    {e : Option Expr} {c : Expr} (hc : c ∈ (bs.flatMap fun b => [b.1, b.2]) ++ e.toList) :
    c ∈ (case l o bs e).children := by
  rw [children, List.append_assoc]
  exact List.mem_append_right _ hc

theorem case_cancel {l l' : Option Location} {o o' : Option Expr} {bs ds : List (Expr × Expr)}
    {e f : Option Expr} {r s : List Char} (hab : Comparable (case l o bs e) (case l' o' ds f))
    (hr : Stops r) (hs : Stops s) (h : write (case l o bs e) r = write (case l' o' ds f) s) :
    (case l o bs e).same (case l' o' ds f) = true ∧ r = s := by
  rw [write, write, ← writeRest, ← writeRest] at h
  have htail := spell_left_cancel h
  have hrest : writeRest bs e r = writeRest ds f s →
      sameBranches bs ds = true ∧ sameOption e f = true ∧ r = s :=
    writeRest_cancel (fun c hc => hab.readable c (mem_children_case hc))
      (fun c hc => hab.left.part (mem_children_case hc))
      (fun c hc => hab.right.part (mem_children_case hc)) hr hs
  cases o with
  | none =>
      cases o' with
      | none =>
          rw [writeOption, writeOption] at htail
          obtain ⟨hbs, he, hrs⟩ := hrest htail
          exact ⟨by simp [same, sameOption, hbs, he], hrs⟩
      | some o' =>
          rw [writeOption, writeOption] at htail
          exact absurd htail (writeRest_ne (hab.right.part (by simp [children])) hr hs)
  | some o =>
      cases o' with
      | none =>
          rw [writeOption, writeOption] at htail
          exact absurd htail.symm (writeRest_ne (hab.left.part (by simp [children])) hs hr)
      | some o' =>
          rw [writeOption, writeOption] at htail
          obtain ⟨ho, hafter⟩ := hab.part (by simp [children]) (by simp [children])
            (stops_writeRest bs e hr) (stops_writeRest ds f hs) (spell_left_cancel htail)
          obtain ⟨hbs, he, hrs⟩ := hrest hafter
          exact ⟨by simp [same, sameOption, ho, hbs, he], hrs⟩

theorem type_cancel {t u : DataType} {r s : List Char} (ht : t.isOrdinary = true)
    (hu : u.isOrdinary = true) (h : spell t.sqlName (')' :: r) = spell u.sqlName (')' :: s)) :
    t = u ∧ r = s := by
  have hword : ∀ {t : DataType}, t.isOrdinary = true → IsWord t.sqlName := by
    intro t ht
    cases t with
    | utf8 | int32 | int64 | float64 | boolean => exact List.all_eq_true.mp (by decide)
    | _ => cases ht
  obtain ⟨hname, hrest⟩ := word_cancel (hword ht) (hword hu) (breaks_cons (by decide) r)
    (breaks_cons (by decide) s) h
  refine ⟨?_, (List.cons.inj hrest).2⟩
  cases t <;> cases ht <;> cases u <;> cases hu <;> simp [DataType.sqlName] at hname ⊢

theorem cast_cancel {l l' : Option Location} {e f : Expr} {t u : DataType} {r s : List Char}
    (hab : Comparable (cast l e t) (cast l' f u))
    (h : write (cast l e t) r = write (cast l' f u) s) :
    (cast l e t).same (cast l' f u) = true ∧ r = s := by
  rw [write, write] at h
  obtain ⟨hsame, has⟩ := hab.part (by simp [children]) (by simp [children]) (stops_spell rfl _)
    (stops_spell rfl _) (List.cons.inj (spell_left_cancel h)).2
  obtain ⟨rfl, hrs⟩ := type_cancel hab.left.node hab.right.node (spell_left_cancel has)
  exact ⟨by simp [same, hsame], hrs⟩

/-! ## Reading an expression -/

/-- What two expressions that begin with the same text share: how they are written. -/
inductive Shape where
  | literal
  | column
  | star
  | call
  | parens
  | nullIf
  | case
  | cast
  deriving DecidableEq

def shape : Expr → Shape
  | literal _ _ => .literal
  | column _ _ => .column
  | wildcard _ => .star
  | call _ _ _ _ => .call
  | nullIf _ _ _ => .nullIf
  | case _ _ _ _ => .case
  | cast _ _ _ => .cast
  | _ => .parens

end Expr

/-- The shape of the expressions of a kind. -/
def Kind.shape : Kind → Expr.Shape
  | .column => .column
  | .call => .call
  | .number => .literal
  | .sign c => if c = some '*' then .star else if c = some '(' then .parens else .literal
  | .keyword w =>
    if w = "NULLIF" then .nullIf else if w = "CASE" then .case else if w = "CAST" then .cast
    else .literal

namespace Expr

theorem shape_kind (e : Expr) : e.kind.shape = e.shape := by
  cases e with
  | literal l v =>
      cases v with
      | boolean b => cases b <;> rfl
      | _ => rfl
  | _ => rfl

theorem linked_of_shape {e : Expr} (h : e.shape = .parens) :
    (∃ l op x, e = unary l op x) ∨ ∃ x n k rest, e.linked? = some (x, n, k, rest) := by
  cases e with
  | unary l op x => exact Or.inl ⟨l, op, x, rfl⟩
  | arith | compare | logic | isNull | between | like | inList => exact Or.inr ⟨_, _, _, _, rfl⟩
  | _ => cases h

/-- Two nodes in parentheses. -/
theorem parens_cancel {a b : Expr} {r s : List Char} (hab : Comparable a b)
    (hsa : a.shape = .parens) (hsb : b.shape = .parens) (h : a.write r = b.write s) :
    a.same b = true ∧ r = s := by
  rcases linked_of_shape hsa with ⟨l, op, x, rfl⟩ | ⟨x, n, k, rest, hla⟩
  · rcases linked_of_shape hsb with ⟨l', op', y, rfl⟩ | ⟨y, n', k', rest', hlb⟩
    · exact unary_cancel hab h
    · have hx : Ordinary x := hab.left.part (by simp [children])
      rw [write_of_linked hlb, write] at h
      exact absurd (List.cons.inj h).2
        (unary_ne_linked hx (hab.right.part (mem_children_of_linked hlb)))
  · rcases linked_of_shape hsb with ⟨l', op', y, rfl⟩ | ⟨y, n', k', rest', hlb⟩
    · have hy : Ordinary y := hab.right.part (by simp [children])
      rw [write_of_linked hla, write] at h
      exact absurd (List.cons.inj h).2.symm
        (unary_ne_linked hy (hab.left.part (mem_children_of_linked hla)))
    · exact linked_cancel hab hla hlb h

/-- Every expression can be taken off the front of a text in one way only. -/
theorem readable (a : Expr) : Readable a := by
  induction a using inductParts with
  | step a hread =>
      intro ha b hb r s hr hs h
      have hab : Comparable a b := ⟨hread, ha, hb⟩
      have hkind : a.kind = b.kind := by
        rw [← kindOf_write ha.node hr, h, kindOf_write hb.node hs]
      have hshape : a.shape = b.shape := by
        rw [← shape_kind a, hkind, shape_kind]
      cases a with
      | literal l v =>
          cases b <;> cases hshape
          rw [write, write] at h
          obtain ⟨rfl, hrs⟩ := literal_cancel ha.node hb.node hr hs h
          exact ⟨by simp [same], hrs⟩
      | column l c =>
          cases b <;> cases hshape
          rw [write, write] at h
          obtain ⟨rfl, hrs⟩ := column_cancel ha.node hb.node hr hs h
          exact ⟨by simp [same], hrs⟩
      | wildcard l =>
          cases b <;> cases hshape
          rw [write, write] at h
          exact ⟨by simp [same], (List.cons.inj h).2⟩
      | call l n as d =>
          cases b <;> cases hshape
          exact call_cancel hab h
      | nullIf l x y =>
          cases b <;> cases hshape
          exact nullIf_cancel hab h
      | case l o bs e =>
          cases b <;> cases hshape
          exact case_cancel hab hr hs h
      | cast l e t =>
          cases b <;> cases hshape
          exact cast_cancel hab h
      | unary | arith | compare | logic | isNull | between | like | inList =>
          exact parens_cancel hab rfl hshape.symm h

/-- Ordinary expressions with one text are the same. -/
theorem same_of_text_eq {a b : Expr} (ha : Ordinary a) (hb : Ordinary b) (h : a.text = b.text) :
    a.same b = true := by
  have hwrite : a.write [] = b.write [] := by
    rw [← spell_text, h, spell_text]
  exact (readable a ha b hb [] [] stops_nil stops_nil hwrite).1

/-- The canonical text of an ordinary expression identifies it. -/
theorem text_eq_iff_same {a b : Expr} (ha : Ordinary a) (hb : Ordinary b) :
    a.text = b.text ↔ a.same b = true :=
  ⟨same_of_text_eq ha hb, text_eq_of_same⟩

/-- `CASE WHEN ((t.x BETWEEN low AND 3000000000) AND (note LIKE 'it''s %')) THEN COUNT(DISTINCT x) ELSE
    CAST(NULL AS BIGINT) END` -/
def banded (low : Expr) : Expr :=
  case none none
    [(logic none
        (between none (column none ⟨some "t", "x"⟩) low (literal none (.bigint 3000000000)) false) .and
        (like none (column none ⟨none, "note"⟩) (literal none (.string "it's %")) false),
      call none "COUNT" [column none ⟨none, "x"⟩] true)]
    (some (cast none (literal none .null) .int64))

theorem ordinary_of_leaf {e : Expr} (hnode : e.isOrdinaryNode = true) (hleaf : e.children = []) :
    Ordinary e :=
  ordinary_iff.mpr ⟨hnode, by simp [hleaf]⟩

theorem ordinary_banded {low : Expr} (hlow : Ordinary low) : Ordinary (banded low) := by
  refine ordinary_iff.mpr ⟨rfl, ?_⟩
  simp only [banded, children, Option.toList, List.flatMap_cons, List.flatMap_nil, List.append_nil,
    List.nil_append, List.cons_append, List.forall_mem_cons]
  refine ⟨ordinary_iff.mpr ⟨rfl, ?_⟩, ordinary_iff.mpr ⟨by decide, ?_⟩, ordinary_iff.mpr ⟨rfl, ?_⟩,
    by simp⟩
  · simp only [children, List.forall_mem_cons]
    refine ⟨ordinary_iff.mpr ⟨rfl, ?_⟩, ordinary_iff.mpr ⟨rfl, ?_⟩, by simp⟩
    · simp only [children, List.forall_mem_cons]
      exact ⟨ordinary_of_leaf (by decide) rfl, hlow, ordinary_of_leaf (by decide) rfl, by simp⟩
    · simp only [children, List.forall_mem_cons]
      exact ⟨ordinary_of_leaf (by decide) rfl, ordinary_of_leaf rfl rfl, by simp⟩
  · simp only [children, List.forall_mem_cons]
    exact ⟨ordinary_of_leaf (by decide) rfl, by simp⟩
  · simp only [children, List.forall_mem_cons]
    exact ⟨ordinary_of_leaf rfl rfl, by simp⟩

def minusOne (l : Option Location) : Expr :=
  literal l (.integer (-1))

def negatedOne : Expr :=
  unary none .minus (literal none (.integer 1))

/-- A negative number and a negated number are told apart, and the position of a number does not
    show. -/
theorem text_eq_iff_same_banded :
    Ordinary (banded (minusOne none)) ∧ Ordinary (banded (minusOne (some ⟨1, 7⟩))) ∧
      Ordinary (banded negatedOne) ∧
      (banded (minusOne none)).text = (banded (minusOne (some ⟨1, 7⟩))).text ∧
      (banded (minusOne none)).text ≠ (banded negatedOne).text := by
  have hminus : ∀ l, Ordinary (banded (minusOne l)) := by
    intro l
    exact ordinary_banded (ordinary_of_leaf rfl rfl)
  have hnegated : Ordinary (banded negatedOne) := by
    refine ordinary_banded (ordinary_iff.mpr ⟨rfl, ?_⟩)
    simp only [negatedOne, children, List.forall_mem_cons]
    exact ⟨ordinary_of_leaf rfl rfl, by simp⟩
  refine ⟨hminus _, hminus _, hnegated, ?_, ?_⟩
  · refine (text_eq_iff_same (hminus _) (hminus _)).mpr ?_
    simp [banded, minusOne, same, sameList, sameBranches, sameOption]
  · intro h
    have hsame := (text_eq_iff_same (hminus _) hnegated).mp h
    simp [banded, minusOne, negatedOne, same, sameList, sameBranches, sameOption] at hsame

end Expr

end StreamSql
