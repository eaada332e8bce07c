/-
  Select lists of columns. A column reference is one name or two with a period between them. Its
  words may be keywords, as long as they begin no operand of their own and no type is read off them;
  a type would have a text next, and what comes next is a comma, a period or the word FROM
  (`typedText_reference`). The items of such a list are then these names and nothing else, in their
  order (`items_references`), and so is the query (`parseAll_selection`).
-/
import StreamSql.Grammar.Sentence
import StreamSql.Proofs.Outcome

namespace StreamSql.Grammar

open Outcome

/-! ## Column references -/

/-- The token of a name. -/
def Ident.token (i : Ident) : Token :=
  .word i.value i.quote

/-- The name is none of the keywords. -/
def Ident.Avoids (i : Ident) (ks : List String) : Prop :=
  ∀ k ∈ ks, isKeyword k i.token = false

instance (i : Ident) (ks : List String) : Decidable (i.Avoids ks) :=
  inferInstanceAs (Decidable (∀ k ∈ ks, _))

theorem Ident.not_mem_of_avoids {v : String} {ks : List String} (h : Avoids ⟨v, none⟩ ks) :
    Keyword.capitals v ∉ ks := by
  intro hmem
  have hkeyword := h _ hmem
  simp [isKeyword, token] at hkeyword

/-- A column with its qualifier, as a query names it. -/
structure Reference where
  qualifier : Option Ident := none
  name : Ident
  deriving DecidableEq

namespace Reference

/-- The first word. -/
def first (r : Reference) : Ident :=
  r.qualifier.getD r.name

def tokens (r : Reference) : List Token :=
  match r.qualifier with
  | none => [r.name.token]
  | some q => [q.token, .symbol .period, r.name.token]

def term (r : Reference) : Term :=
  match r.qualifier with
  | none => .name r.name
  | some q => .path [q, r.name]

def item (r : Reference) : Item :=
  .expr r.term none

end Reference

/-- The words that begin an operand of their own. -/
def ownForms : List String :=
  ["TRUE", "FALSE", "NULL", "CURRENT_CATALOG", "CURRENT_USER", "SESSION_USER", "USER",
   "CURRENT_TIMESTAMP", "CURRENT_TIME", "CURRENT_DATE", "LOCALTIME", "LOCALTIMESTAMP", "CASE",
   "CONVERT", "TRY_CONVERT", "CAST", "TRY_CAST", "SAFE_CAST", "EXISTS", "EXTRACT", "CEIL", "FLOOR",
   "SUBSTRING", "OVERLAY", "TRIM", "INTERVAL", "NOT", "MATCH", "STRUCT"]

/-- The words of the reference are read as names. -/
structure Reference.Free (r : Reference) : Prop where
  first : r.first.Avoids ownForms
  bare : r.qualifier = none → r.name.Avoids ["FROM"]

instance (r : Reference) : Decidable r.Free :=
  decidable_of_iff (r.first.Avoids ownForms ∧ (r.qualifier = none → r.name.Avoids ["FROM"]))
    ⟨fun h => ⟨h.1, h.2⟩, fun h => ⟨h.first, h.bare⟩⟩

/-! ## Types -/

/-- The token may follow a column of a select list. -/
inductive EndsColumn : Token → Prop
  | comma : EndsColumn (.symbol .comma)
  | source : EndsColumn (.word "FROM" none)

/-- The token may follow a word of a column. -/
inductive EndsName : Token → Prop
  | column {t : Token} (ends : EndsColumn t) : EndsName t
  | period : EndsName (.symbol .period)

variable {f : Forms} {t : Token} {R : List Token} {n : Nat}

namespace TypeName

variable {v w : String} {p q : Option Char}

theorem ofShape_endsName (text node : String) (shape : Shape) (ht : EndsName t) :
    ∃ type, ofShape text node shape (t :: R) = .ok (type, t :: R) ∧ type.interval = false := by
  rcases ht with ⟨⟨⟩ | ⟨⟩⟩ | ⟨⟩ <;> cases shape <;> exact ⟨_, rfl, rfl⟩

/-- The tokens are no type, or the type ends before a token that may follow a word of a column. -/
def Halts (x : Except Fault ((TypeName × Bool) × List Token)) : Prop :=
  x = .error .unexpected ∨
    ∃ type extra u S, x = .ok ((type, extra), u :: S) ∧ EndsName u ∧ type.interval = false

theorem halts_unit (ht : EndsName t)
    (hinterval : (if q.isNone then Keyword.capitals v else "") ≠ "INTERVAL")
    (hcustom : Halts ((do return (← customType, false) : Parser (TypeName × Bool))
      (.word v q :: t :: R))) :
    Halts (unit (n + 1) (.word v q :: t :: R)) := by
  have fails : Halts (.error .unexpected) := Or.inl rfl
  have stops {type : TypeName} (extra : Bool) (h : type.interval = false) :
      Halts (.ok ((type, extra), t :: R)) := Or.inr ⟨type, extra, t, R, rfl, ht, h⟩
  unfold unit
  simp only [bind, StateT.bind, Except.bind, get, getThe, MonadStateOf.get, StateT.get, pure,
    Except.pure, List.head?_cons]
  generalize (if q.isNone = true then Keyword.capitals v else "") = k at hinterval ⊢
  cases table.lookup k with
  | some e =>
      obtain ⟨text, node, shape⟩ := e
      obtain ⟨type, hrun, htype⟩ := ofShape_endsName (R := R) text node shape ht
      have hnext : (do let _ ← next; return (← ofShape text node shape, false) :
          Parser (TypeName × Bool)) (.word v q :: t :: R) = .ok ((type, false), t :: R) :=
        stateBind_eq_ok.mpr ⟨_, _, rfl, stateBind_eq_ok.mpr ⟨_, _, hrun, rfl⟩⟩
      have hstops := stops false htype
      rw [← hnext] at hstops
      exact hstops
  | none =>
      -- a type with a form of its own needs an opening bracket next, or nothing more
      simp only
      split
      case h_6 => exact absurd rfl hinterval
      case h_19 => exact hcustom
      case h_12 =>
          cases n with
          | zero => exact fails
          | succ n => rcases ht with ⟨⟨⟩ | ⟨⟩⟩ | ⟨⟩ <;> exact stops _ rfl
      case h_14 | h_15 => cases n <;> rcases ht with ⟨⟨⟩ | ⟨⟩⟩ | ⟨⟩ <;> exact fails
      case h_1 | h_2 | h_3 | h_4 | h_5 => rcases ht with ⟨⟨⟩ | ⟨⟩⟩ | ⟨⟩ <;> exact stops _ rfl
      all_goals rcases ht with ⟨⟨⟩ | ⟨⟩⟩ | ⟨⟩ <;> exact fails

theorem halts_customType (ht : EndsColumn t) :
    Halts ((do return (← customType, false) : Parser (TypeName × Bool)) (.word v q :: t :: R)) ∧
      Halts ((do return (← customType, false) : Parser (TypeName × Bool))
        (.word v q :: .symbol .period :: .word w p :: t :: R)) := by
  cases ht with
  | comma => exact ⟨Or.inr ⟨_, _, _, _, rfl, .column .comma, rfl⟩,
      Or.inr ⟨_, _, _, _, rfl, .column .comma, rfl⟩⟩
  | source => exact ⟨Or.inr ⟨_, _, _, _, rfl, .column .source, rfl⟩,
      Or.inr ⟨_, _, _, _, rfl, .column .source, rfl⟩⟩

end TypeName

theorem typedText_of_halts {ts : List Token}
    (h : TypeName.Halts (TypeName.unit (4 * ts.length + 2) ts)) :
    typedText f ts = .error .unexpected := by
  have htype : typeName ts = TypeName.closed (4 * ts.length + 4) ts := rfl
  simp only [typedText, bind, StateT.bind, htype, TypeName.closed, TypeName.bracketed]
  rcases h with h | ⟨type, extra, u, S, h, hu, hinterval⟩
  · rw [h]
    rfl
  · rw [h]
    obtain ⟨text, outline, custom, interval⟩ := type
    cases hinterval
    cases extra <;> cases custom <;> rcases hu with ⟨⟨⟩ | ⟨⟩⟩ | ⟨⟩ <;> rfl

/-- No text with a type begins with a column. -/
theorem typedText_reference {r : Reference} (hr : r.Free) (ht : EndsColumn t) :
    typedText f (r.tokens ++ t :: R) = .error .unexpected := by
  have hinterval {i : Ident} (h : i.Avoids ownForms) :
      (if i.quote.isNone then Keyword.capitals i.value else "") ≠ "INTERVAL" := by
    obtain ⟨v, q⟩ := i
    cases q with
    | some q => exact (by decide : "" ≠ "INTERVAL")
    | none =>
        intro heq
        have hcapitals : Keyword.capitals v = "INTERVAL" := heq
        exact Ident.not_mem_of_avoids h (by rw [hcapitals]; decide)
  obtain ⟨qualifier, name⟩ := r
  cases qualifier with
  | none =>
      exact typedText_of_halts (TypeName.halts_unit (.column ht) (hinterval hr.first)
        (TypeName.halts_customType ht (w := "") (p := none)).1)
  | some q =>
      exact typedText_of_halts (TypeName.halts_unit .period (hinterval hr.first)
        (TypeName.halts_customType ht).2)

/-! ## Terms -/

theorem keywordTerm_eq (hprior : f.prior = false) (i : Ident) {k : String} (hk : k ∉ ownForms)
    (ht : EndsName t) : keywordTerm f i k (t :: R) = wordTerm f i (t :: R) := by
  unfold keywordTerm
  split
  case h_34 => rfl
  case h_33 =>
    rw [hprior]
    rfl
  case h_23 | h_28 | h_32 => rcases ht with ⟨⟨⟩ | ⟨⟩⟩ | ⟨⟩ <;> rfl
  all_goals exact absurd (by decide) hk

theorem plainOperand_word (hprior : f.prior = false) {i : Ident} (h : i.Avoids ownForms)
    (ht : EndsName t) : plainOperand f (i.token :: t :: R) = wordTerm f i (t :: R) := by
  obtain ⟨v, q⟩ := i
  cases q with
  | none =>
      rw [← keywordTerm_eq hprior ⟨v, none⟩ (Ident.not_mem_of_avoids h) ht]
      unfold plainOperand
      -- otherwise the two sides are compared by what the keywords do
      generalize keywordTerm f = read
      rfl
  | some q => rfl

theorem operand_reference (hprior : f.prior = false) {r : Reference} (hr : r.Free)
    (ht : EndsColumn t) : operand f (r.tokens ++ t :: R) = .ok (r.term, t :: R) := by
  have hplain : plainOperand f (r.tokens ++ t :: R) = .ok (r.term, t :: R) := by
    obtain ⟨qualifier, name⟩ := r
    cases qualifier with
    | none =>
        refine (plainOperand_word hprior hr.first (.column ht)).trans ?_
        cases ht <;> rfl
    | some q =>
        refine (plainOperand_word hprior hr.first .period).trans ?_
        cases ht <;> rfl
  have htyped : attempt (typedText f) (r.tokens ++ t :: R) = .ok (none, r.tokens ++ t :: R) := by
    rw [attempt, typedText_reference hr ht]
  refine stateBind_eq_ok.mpr ⟨none, _, htyped, stateBind_eq_ok.mpr ⟨_, _, hplain, ?_⟩⟩
  cases ht <;> rfl

variable {calls levels : Nat}

theorem expr_reference {r : Reference} (hr : r.Free) (ht : EndsColumn t) :
    (forms (calls + 2) (levels + 1) false).expr (r.tokens ++ t :: R) = .ok (r.term, t :: R) := by
  have hprior : (forms (calls + 1) levels false).prior = false := rfl
  refine stateBind_eq_ok.mpr ⟨_, _, operand_reference hprior hr ht, ?_⟩
  cases ht <;> rfl

theorem starred_reference {r : Reference} (hr : r.Free) (ht : EndsColumn t) :
    starred (forms (calls + 2) (levels + 1) false) (r.tokens ++ t :: R) =
      .ok (.term r.term, t :: R) := by
  have hexpr : (forms (calls + 2) (levels + 1) false).expr (r.tokens ++ t :: R) =
      .ok (r.term, t :: R) := expr_reference hr ht
  have hterm : (do return .term (← (forms (calls + 2) (levels + 1) false).expr) : Parser Starred)
      (r.tokens ++ t :: R) = .ok (.term r.term, t :: R) :=
    stateBind_eq_ok.mpr ⟨_, _, hexpr, rfl⟩
  obtain ⟨qualifier, name⟩ := r
  cases qualifier with
  | none => cases ht <;> exact hterm
  | some q => cases ht <;> exact hterm

theorem aliasName?_endsColumn (ht : EndsColumn t) :
    aliasName? endsItem (t :: R) = .ok (none, t :: R) := by
  cases ht <;> rfl

theorem item_reference {r : Reference} (hr : r.Free) (ht : EndsColumn t) :
    item (forms (calls + 2) (levels + 1) false) (r.tokens ++ t :: R) = .ok (r.item, t :: R) := by
  have hstarred : starred (forms (calls + 2) (levels + 1) false) (r.tokens ++ t :: R) =
      .ok (.term r.term, t :: R) := starred_reference hr ht
  have halias (x : Term) : (do return .expr x (← aliasName? endsItem) : Parser Item) (t :: R) =
      .ok (.expr x none, t :: R) :=
    stateBind_eq_ok.mpr ⟨_, _, aliasName?_endsColumn ht, rfl⟩
  refine stateBind_eq_ok.mpr ⟨_, _, hstarred, ?_⟩
  obtain ⟨qualifier, v, quote⟩ := r
  cases qualifier with
  | some q => exact halias _
  | none =>
      cases quote with
      | some quote => exact halias _
      | none =>
          have hfrom : Keyword.capitals v ≠ "FROM" := by
            intro heq
            exact Ident.not_mem_of_avoids (hr.bare rfl) (by rw [heq]; decide)
          refine Eq.trans ?_ (halias (.name ⟨v, none⟩))
          simp only [Reference.term, hfrom, if_false]

/-! ## Select lists -/

/-- The tokens of further columns, a comma before each. -/
def moreTokens (rs : List Reference) : List Token :=
  rs.flatMap fun r => .symbol .comma :: r.tokens

theorem exists_endsColumn (rs : List Reference) (R : List Token) :
    ∃ t S, moreTokens rs ++ .word "FROM" none :: R = t :: S ∧ EndsColumn t := by
  cases rs with
  | nil => exact ⟨_, _, rfl, .source⟩
  | cons r rs => exact ⟨_, _, rfl, .comma⟩

theorem repeatWhile_references {rs : List Reference} (hrs : ∀ r ∈ rs, r.Free) (hn : rs.length < n) :
    repeatWhile (symbol .comma) (item (forms (calls + 2) (levels + 1) false)) n
        (moreTokens rs ++ .word "FROM" none :: R) =
      .ok (rs.map Reference.item, .word "FROM" none :: R) := by
  induction rs generalizing n with
  | nil =>
      cases n with
      | zero => cases hn
      | succ n => rfl
  | cons r rs ih =>
      cases n with
      | zero => cases hn
      | succ n =>
          rw [List.forall_mem_cons] at hrs
          have htokens : moreTokens (r :: rs) ++ .word "FROM" none :: R =
              .symbol .comma :: (r.tokens ++ (moreTokens rs ++ .word "FROM" none :: R)) := by
            simp [moreTokens]
          have hmore := ih hrs.2 (Nat.lt_of_succ_lt_succ hn)
          obtain ⟨t, S, hts, ht⟩ := exists_endsColumn rs R
          rw [htokens]
          rw [hts] at hmore ⊢
          exact stateBind_eq_ok.mpr ⟨true, _, rfl, stateBind_eq_ok.mpr
            ⟨_, _, item_reference hrs.1 ht, stateBind_eq_ok.mpr ⟨_, _, hmore, rfl⟩⟩⟩

theorem length_le_moreTokens (rs : List Reference) : rs.length ≤ (moreTokens rs).length := by
  induction rs with
  | nil => exact Nat.le_refl _
  | cons r rs ih =>
      simp only [moreTokens, List.flatMap_cons, List.length_append, List.length_cons] at ih ⊢
      omega

/-- A list of columns is read as their names, up to the word FROM. -/
theorem items_references {r : Reference} {rs : List Reference} (hrs : ∀ x ∈ r :: rs, x.Free) :
    commaSeparated (item (forms (calls + 2) (levels + 1) false))
        (r.tokens ++ (moreTokens rs ++ .word "FROM" none :: R)) =
      .ok ((r :: rs).map Reference.item, .word "FROM" none :: R) := by
  rw [List.forall_mem_cons] at hrs
  have hmore : whileSome (symbol .comma) (item (forms (calls + 2) (levels + 1) false))
      (moreTokens rs ++ .word "FROM" none :: R) =
        .ok (rs.map Reference.item, .word "FROM" none :: R) := by
    refine stateBind_eq_ok.mpr ⟨_, _, rfl, repeatWhile_references hrs.2 ?_⟩
    have hlength := length_le_moreTokens rs
    simp only [List.length_append]
    omega
  obtain ⟨t, S, hts, ht⟩ := exists_endsColumn rs R
  rw [hts] at hmore ⊢
  exact stateBind_eq_ok.mpr
    ⟨_, _, item_reference hrs.1 ht, stateBind_eq_ok.mpr ⟨_, _, hmore, rfl⟩⟩

/-! ## The query -/

theorem keyword_of_ne {k : String} (h : isKeyword k t = false) :
    keyword k (t :: R) = .ok (false, t :: R) := by
  have hbegin : beginWith [k] (t :: R) = false := by simp [beginWith, h]
  refine stateBind_eq_ok.mpr ⟨_, _, rfl, ?_⟩
  simp only [hbegin, Bool.false_eq_true, if_false]
  rfl

/-- A relation that is its name. -/
theorem factor_name {source : Ident} (h : source.Avoids ["LATERAL", "TABLE", "UNNEST"]) :
    ∃ r : Factor, r.table = some [source] ∧ factor f [source.token] = .ok (r, []) := by
  have hword {k : String} (hk : k ∈ ["LATERAL", "TABLE", "UNNEST"]) :
      keyword k [source.token] = .ok (false, [source.token]) := keyword_of_ne (h k hk)
  refine ⟨_, ?_, stateBind_eq_ok.mpr ⟨false, _, hword (by decide), stateBind_eq_ok.mpr
    ⟨false, _, hword (by decide), stateBind_eq_ok.mpr ⟨false, _, rfl, stateBind_eq_ok.mpr
    ⟨false, _, rfl, stateBind_eq_ok.mpr ⟨false, _, hword (by decide), stateBind_eq_ok.mpr
    ⟨false, _, rfl, rfl⟩⟩⟩⟩⟩⟩⟩
  rfl

theorem joined_name {source : Ident} (h : source.Avoids ["LATERAL", "TABLE", "UNNEST"]) :
    ∃ r : Factor, r.table = some [source] ∧ joined f [source.token] = .ok (⟨r, []⟩, []) := by
  obtain ⟨r, htable, hfactor⟩ := factor_name (f := f) h
  exact ⟨r, htable, stateBind_eq_ok.mpr ⟨_, _, hfactor, rfl⟩⟩

theorem Reference.tokens_eq (r : Reference) : ∃ tail, r.tokens = r.first.token :: tail := by
  obtain ⟨qualifier, name⟩ := r
  cases qualifier <;> exact ⟨_, rfl⟩

/-- A select list of columns and the relation that it is for. -/
structure Selection where
  first : Reference
  others : List Reference
  source : Ident

namespace Selection

def references (s : Selection) : List Reference :=
  s.first :: s.others

def tokens (s : Selection) : List Token :=
  .word "SELECT" none ::
    (s.first.tokens ++ (moreTokens s.others ++ [.word "FROM" none, s.source.token]))

/-- The words of the columns and of the relation are read as names. -/
structure Free (s : Selection) : Prop where
  columns : ∀ r ∈ s.references, r.Free
  first : s.first.first.Avoids ["ALL", "DISTINCT", "TOP"]
  source : s.source.Avoids ["LATERAL", "TABLE", "UNNEST"]

instance (s : Selection) : Decidable s.Free :=
  decidable_of_iff ((∀ r ∈ s.references, r.Free) ∧ s.first.first.Avoids ["ALL", "DISTINCT", "TOP"] ∧
      s.source.Avoids ["LATERAL", "TABLE", "UNNEST"])
    ⟨fun h => ⟨h.1, h.2.1, h.2.2⟩, fun h => ⟨h.columns, h.first, h.source⟩⟩

/-- The tree of a select list of columns. -/
def tree (s : Selection) (r : Factor) : Query where
  body := .select { items := s.references.map Reference.item, sources := [⟨r, []⟩] }

end Selection

theorem select_selection {s : Selection} (hs : s.Free) : ∃ r : Factor, r.table = some [s.source] ∧
    select (forms (calls + 2) (levels + 1) false)
        (s.first.tokens ++ (moreTokens s.others ++ [.word "FROM" none, s.source.token])) =
      .ok ({ items := s.references.map Reference.item, sources := [⟨r, []⟩] }, []) := by
  obtain ⟨r, htable, hjoined⟩ :=
    joined_name (f := forms (calls + 1) (levels + 1) false) hs.source
  have hitems : commaSeparated (item (forms (calls + 2) (levels + 1) false))
      (s.first.tokens ++ (moreTokens s.others ++ [.word "FROM" none, s.source.token])) =
        .ok (s.references.map Reference.item, [.word "FROM" none, s.source.token]) :=
    items_references hs.columns
  obtain ⟨tail, htail⟩ := s.first.tokens_eq
  have hword {k : String} (hk : k ∈ ["ALL", "DISTINCT", "TOP"]) (R : List Token) :
      keyword k (s.first.tokens ++ R) = .ok (false, s.first.tokens ++ R) := by
    rw [htail]
    exact keyword_of_ne (hs.first k hk)
  have hdistinct (R : List Token) : distinct (forms (calls + 2) (levels + 1) false)
      (s.first.tokens ++ R) = .ok (none, s.first.tokens ++ R) :=
    stateBind_eq_ok.mpr ⟨_, _, hword (by decide) R, stateBind_eq_ok.mpr
      ⟨_, _, hword (by decide) R, rfl⟩⟩
  have htop (R : List Token) : whenever (keyword "TOP") (top (forms (calls + 2) (levels + 1) false))
      (s.first.tokens ++ R) = .ok (none, s.first.tokens ++ R) :=
    stateBind_eq_ok.mpr ⟨_, _, hword (by decide) R, rfl⟩
  have hsources : commaSeparated (forms (calls + 2) (levels + 1) false).joined [s.source.token] =
      .ok ([⟨r, []⟩], []) := stateBind_eq_ok.mpr ⟨_, _, hjoined, rfl⟩
  refine ⟨r, htable, stateBind_eq_ok.mpr ⟨none, _, hdistinct _, stateBind_eq_ok.mpr
    ⟨none, _, htop _, stateBind_eq_ok.mpr ⟨_, _, hitems, stateBind_eq_ok.mpr ⟨none, _, rfl,
    stateBind_eq_ok.mpr ⟨true, _, rfl, stateBind_eq_ok.mpr ⟨_, _, hsources, ?_⟩⟩⟩⟩⟩⟩⟩
  rfl

theorem query_selection {s : Selection} (hs : s.Free) : ∃ r : Factor, r.table = some [s.source] ∧
    query (forms (calls + 3) (levels + 1) false) s.tokens = .ok (s.tree r, []) := by
  obtain ⟨r, htable, hselect⟩ : ∃ r : Factor, r.table = some [s.source] ∧
      select (forms (calls + 2) (levels + 1) false)
          (s.first.tokens ++ (moreTokens s.others ++ [.word "FROM" none, s.source.token])) =
        .ok ({ items := s.references.map Reference.item, sources := [⟨r, []⟩] }, []) :=
    select_selection hs
  have hbody : (forms (calls + 3) (levels + 1) false).body 0 s.tokens =
      .ok ((s.tree r).body, []) := by
    refine stateBind_eq_ok.mpr ⟨(s.tree r).body, [], ?_, rfl⟩
    exact stateBind_eq_ok.mpr ⟨true, _, rfl, stateBind_eq_ok.mpr ⟨_, _, hselect, rfl⟩⟩
  refine ⟨r, htable, stateBind_eq_ok.mpr ⟨none, s.tokens, rfl, stateBind_eq_ok.mpr
    ⟨false, s.tokens, rfl, stateBind_eq_ok.mpr ⟨false, s.tokens, rfl, stateBind_eq_ok.mpr
    ⟨_, _, hbody, ?_⟩⟩⟩⟩⟩
  rfl

/-- A script that selects columns from a relation is one query for these columns. -/
theorem parseAll_selection {s : Selection} (hs : s.Free) (levels : Nat) : ∃ r : Factor,
    r.table = some [s.source] ∧ Sentence.parseAll (levels + 3) s.tokens = .ok [.query (s.tree r)] := by
  obtain ⟨r, htable, hquery⟩ : ∃ r : Factor, r.table = some [s.source] ∧
      query (forms (8 * s.tokens.length + 15) (levels + 1) false) s.tokens = .ok (s.tree r, []) :=
    query_selection hs
  have hsentence : sentence (callsFor s.tokens) (callsFor s.tokens) (levels + 3) s.tokens =
      .ok (.query (s.tree r), []) :=
    stateBind_eq_ok.mpr ⟨_, s.tokens, rfl, stateBind_eq_ok.mpr ⟨_, _, rfl, stateBind_eq_ok.mpr
      ⟨_, s.tokens, rfl, stateBind_eq_ok.mpr ⟨_, _, hquery, rfl⟩⟩⟩⟩
  have hsentences : sentences (sentence (callsFor s.tokens) (callsFor s.tokens) (levels + 3))
      s.tokens = .ok ([.query (s.tree r)], []) :=
    stateBind_eq_ok.mpr ⟨_, s.tokens, rfl, stateBind_eq_ok.mpr ⟨_, s.tokens, rfl,
      stateBind_eq_ok.mpr ⟨_, s.tokens, rfl, stateBind_eq_ok.mpr ⟨_, _, hsentence, rfl⟩⟩⟩⟩
  exact ⟨r, htable, bind_eq_ok.mpr ⟨_, hsentences, rfl⟩⟩

end StreamSql.Grammar
