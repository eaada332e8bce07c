/-
  Positions of the columns in a select list. A column is looked up under its first word, and the
  n-th lookup of a name finds the n-th word of the query that is spelled so (`selectItems_columns`).
  Lookups and words stay in step as long as every word so spelled was looked up: the word SELECT and
  the names after a period are not (`countP_front`).

  The tokens of a script stand at different positions, so a column has its own position exactly if no
  such word is spelled like it and stands before it (`prepare_columns`, `exists_column_elsewhere`).
  Positions are kept in 32 bits, which hold those of every script with fewer than so many characters.
-/
import Mathlib.Data.List.Chain
import StreamSql.Proofs.Grammar.Columns
import StreamSql.Proofs.Script.Rendering
import StreamSql.Proofs.Script.WindowClause
import StreamSql.Proofs.Token.Places

namespace StreamSql

open Outcome Scan
open Grammar (Ident Reference Selection EndsColumn moreTokens)

/-! ## The tokens of a selection -/

/-- The token is a word that is spelled like the name. -/
def Token.spells (t : Token) (name : String) : Bool :=
  match t with
  | .word v _ => Text.sameName v name
  | _ => false

/-- The tokens that stand before a reference. -/
def Grammar.Selection.front (s : Selection) (i : Nat) : List Token :=
  .word "SELECT" none :: (s.references.take i).flatMap fun r => r.tokens ++ [.symbol .comma]

/-- A comma after each reference but the last one. -/
theorem Grammar.append_moreTokens (r : Reference) (rs : List Reference) (i : Nat) (x : Reference)
    (hx : (r :: rs)[i]? = some x) : ∃ rest, r.tokens ++ moreTokens rs =
      ((r :: rs).take i).flatMap (fun r => r.tokens ++ [.symbol .comma]) ++ x.tokens ++ rest := by
  induction i generalizing r rs with
  | zero =>
      cases hx
      exact ⟨moreTokens rs, rfl⟩
  | succ i ih =>
      cases rs with
      | nil => cases hx
      | cons y rs =>
          obtain ⟨rest, hrest⟩ := ih y rs hx
          refine ⟨rest, ?_⟩
          have hmore : moreTokens (y :: rs) = .symbol .comma :: (y.tokens ++ moreTokens rs) := by
            simp [moreTokens]
          rw [hmore, hrest, List.take_succ_cons, List.flatMap_cons]
          simp

theorem Grammar.Selection.tokens_split {s : Selection} {i : Nat} {r : Reference}
    (hr : s.references[i]? = some r) : ∃ rest, s.tokens = s.front i ++ r.first.token :: rest := by
  obtain ⟨rest, hrest⟩ := append_moreTokens s.first s.others i r hr
  obtain ⟨tail, htail⟩ := r.tokens_eq
  refine ⟨tail ++ (rest ++ [.word "FROM" none, s.source.token]), ?_⟩
  rw [Selection.tokens, ← List.append_assoc, hrest, htail]
  simp [Selection.front, Selection.references]

/-- A token of a selection is a word, a comma or a period. -/
theorem Grammar.Selection.mem_tokens {s : Selection} {t : Token} (h : t ∈ s.tokens) :
    (∃ v q, t = .word v q) ∨ t = .symbol .comma ∨ t = .symbol .period := by
  have hreference (r : Reference) (hr : t ∈ r.tokens) :
      (∃ v q, t = .word v q) ∨ t = .symbol .comma ∨ t = .symbol .period := by
    obtain ⟨qualifier, name⟩ := r
    cases qualifier with
    | none =>
        rw [List.mem_singleton.mp hr]
        exact Or.inl ⟨_, _, rfl⟩
    | some q =>
        simp only [Reference.tokens, List.mem_cons, List.not_mem_nil, or_false] at hr
        rcases hr with rfl | rfl | rfl
        · exact Or.inl ⟨_, _, rfl⟩
        · exact Or.inr (Or.inr rfl)
        · exact Or.inl ⟨_, _, rfl⟩
  simp only [Selection.tokens, moreTokens, List.mem_cons, List.mem_append, List.mem_flatMap,
    List.not_mem_nil, or_false] at h
  rcases h with rfl | hr | ⟨r, _, rfl | hr⟩ | rfl | rfl
  · exact Or.inl ⟨_, _, rfl⟩
  · exact hreference _ hr
  · exact Or.inr (Or.inl rfl)
  · exact hreference r hr
  · exact Or.inl ⟨_, _, rfl⟩
  · exact Or.inl ⟨_, _, rfl⟩

/-! ## No window in a selection -/

namespace WindowClause

/-- A clause does not begin with the two tokens. -/
def Apart (t u : Token) : Prop :=
  t.isWord "WINDOW" = true → ∀ k ∈ kinds, u.isWord k = false

theorem apart_left {t : Token} (h : t.isWord "WINDOW" = false) (u : Token) : Apart t u := by
  intro hword
  rw [h] at hword
  cases hword

theorem apart_endsColumn (t : Token) {u : Token} (hu : EndsColumn u) : Apart t u := by
  intro _
  cases hu with
  | comma => decide
  | source => decide

theorem isChain_reference (r : Reference) {t : Token} {R : List Token} (ht : EndsColumn t)
    (hR : (t :: R).IsChain Apart) : (r.tokens ++ t :: R).IsChain Apart := by
  obtain ⟨qualifier, name⟩ := r
  have hname : (name.token :: t :: R).IsChain Apart :=
    List.isChain_cons_cons.mpr ⟨apart_endsColumn _ ht, hR⟩
  cases qualifier with
  | none => exact hname
  | some q =>
      have hperiod : Apart q.token (.symbol .period) := fun _ => by decide
      exact List.isChain_cons_cons.mpr ⟨hperiod,
        List.isChain_cons_cons.mpr ⟨apart_left rfl _, hname⟩⟩

theorem isChain_moreTokens (rs : List Reference) (source : Token) :
    (moreTokens rs ++ [.word "FROM" none, source]).IsChain Apart := by
  induction rs with
  | nil => exact List.isChain_cons_cons.mpr ⟨apart_left (by decide) _, List.isChain_singleton _⟩
  | cons r rs ih =>
      obtain ⟨t, S, hts, ht⟩ := Grammar.exists_endsColumn rs [source]
      have htokens : moreTokens (r :: rs) ++ [.word "FROM" none, source] =
          .symbol .comma :: (r.tokens ++ t :: S) := by
        rw [← hts]
        simp [moreTokens]
      rw [htokens]
      rw [hts] at ih
      exact List.isChain_cons.mpr ⟨fun _ _ => apart_left rfl _, isChain_reference r ht ih⟩

theorem isChain_selection (s : Selection) : s.tokens.IsChain Apart := by
  obtain ⟨t, S, hts, ht⟩ := Grammar.exists_endsColumn s.others [s.source.token]
  have hmore := isChain_moreTokens s.others s.source.token
  rw [Selection.tokens, hts]
  rw [hts] at hmore
  exact List.isChain_cons.mpr ⟨fun _ _ => apart_left (by decide) _,
    isChain_reference s.first ht hmore⟩

/-- Where no two tokens in a row begin a clause, there is none. -/
theorem not_holds_of_isChain {ts : List Token} (h : (ts.filter (!·.isGap)).IsChain Apart) :
    ¬Holds ts := by
  rintro ⟨before, _, rfl, t, r, rfl, hwindow, kind, m, htake, k, hk, hkind⟩
  have hfilter : (before ++ t :: r).filter (!·.isGap) =
      before.filter (!·.isGap) ++ t :: kind :: m.filter (!·.isGap) := by
    simp [Token.filter_of_take htake, Token.isGap_of_isWord hwindow]
  rw [hfilter] at h
  have hapart := (List.isChain_append_cons_cons.mp h).2.1 hwindow k hk
  rw [hkind] at hapart
  cases hapart

end WindowClause

namespace Script

/-! ## The query of a selection -/

section

variable {sql : String} {ls : List Lexeme} {s : Selection}

theorem mem_tokens_of_lexeme (htokens : (ls.map Lexeme.token).filter (!·.isGap) = s.tokens)
    {t : Token} (ht : t ∈ ls.map Lexeme.token) : (∃ g, t = .gap g) ∨ (∃ v q, t = .word v q) ∨
      t = .symbol .comma ∨ t = .symbol .period := by
  cases t with
  | gap g => exact Or.inl ⟨g, rfl⟩
  | _ =>
      refine Or.inr (Selection.mem_tokens (s := s) ?_)
      rw [← htokens]
      exact List.mem_filter.mpr ⟨ht, rfl⟩

theorem split_selection (htokens : (ls.map Lexeme.token).filter (!·.isGap) = s.tokens) :
    Envelope.split (ls.map Lexeme.token) = .ok (.query, ls.map Lexeme.token) := by
  refine Envelope.split_of_plain fun t ht => ?_
  rw [htokens] at ht
  cases ht
  exact ⟨by decide, by decide⟩

/-- The tokens are the same when they are written back, so the grammar finds the columns. -/
theorem onlyQuery_selection (hscan : Lexeme.scan sql = .ok ls)
    (htokens : (ls.map Lexeme.token).filter (!·.isGap) = s.tokens) (hs : s.Free)
    (hplain : ∀ l ∈ ls, l.token.Plain) (hchunks : chunks ls = [ls]) (levels : Nat) :
    ∃ r : Grammar.Factor, r.table = some [s.source] ∧
      onlyQuery (levels + 3) (Token.render (ls.map Lexeme.token)) = .ok (s.tree r) := by
  obtain ⟨r, htable, hparse⟩ := Grammar.parseAll_selection hs levels
  have hsettled : Settled (ls.map Lexeme.token) := settled_of_scan hscan (by simp [hchunks])
  have huncoded : ∀ t ∈ ls.map Lexeme.token, t.Uncoded := by
    intro t ht
    rcases mem_tokens_of_lexeme htokens ht with ⟨_, rfl⟩ | ⟨_, _, rfl⟩ | rfl | rfl <;> trivial
  have hclash : (ls.map Lexeme.token).IsChain fun t u => ¬t.Clash u := by
    refine (List.pairwise_of_forall_mem_list fun t ht u _ hclash => ?_).isChain
    rcases mem_tokens_of_lexeme htokens ht with ⟨_, rfl⟩ | ⟨_, _, rfl⟩ | rfl | rfl <;> exact hclash
  have hscans : Scans (Token.render (ls.map Lexeme.token)).toList (ls.map Lexeme.token) := by
    rw [Token.toList_render]
    exact scans_written hsettled huncoded (by simpa using hplain) hclash
  rw [← htokens] at hparse
  exact ⟨r, htable, onlyQuery_of_scans hscans hparse⟩

end

/-! ## Lookups -/

theorem locate_eq_of_getElem? {words : List Word} {seen : List String} {name : String} {w : Word}
    (h : (words.filter fun w => Text.sameName w.value name)[seen.count (Text.lower name)]? =
      some w) :
    locate name { Lookup.start words with seen } =
      .ok (some w.location, { Lookup.start words with seen := Text.lower name :: seen }) := by
  have hspelled : (Lookup.start words).words.filter (·.1 == Text.lower name) =
      (words.filter fun w => Text.sameName w.value name).map
        fun w => (Text.lower w.value, w.location) := by
    simp only [Lookup.start, List.filter_map]
    rfl
  have hnext : Lookup.next? { Lookup.start words with seen } (Text.lower name) =
      some w.location := by
    simp only [Lookup.next?, hspelled, List.getElem?_map, h]
    rfl
  refine stateBind_eq_ok.mpr ⟨_, _, rfl, ?_⟩
  simp only [hnext]
  rfl

/-- The column that a reference names. -/
def columnOf (r : Reference) : ColumnRef :=
  ⟨r.qualifier.map Ident.value, r.name.value⟩

theorem selectItem_reference {r : Reference} {loc : Option Location} {st st' : Lookup}
    (h : locate r.first.value st = .ok (loc, st')) (n : Nat) :
    selectItem (n + 1) r.item st = .ok (.expr (.column loc (columnOf r)) none, st') := by
  obtain ⟨qualifier, name⟩ := r
  cases qualifier with
  | none => exact stateBind_eq_ok.mpr ⟨_, _, stateBind_eq_ok.mpr ⟨_, _, h, rfl⟩, rfl⟩
  | some q => exact stateBind_eq_ok.mpr ⟨_, _, stateBind_eq_ok.mpr ⟨_, _, h, rfl⟩, rfl⟩

/-- How many of the references are looked up under the name. -/
def lookups (rs : List Reference) (name : String) : Nat :=
  rs.countP fun r => Text.sameName r.first.value name

theorem lookups_cons (r : Reference) (rs : List Reference) (name : String) :
    lookups (r :: rs) name = lookups rs name + if Text.sameName r.first.value name then 1 else 0 :=
  List.countP_cons

/-- Columns get their positions one after the other. -/
theorem selectItems_columns (n : Nat) (words : List Word) {rs : List Reference} {seen : List String}
    (h : ∀ i r, rs[i]? = some r → ∃ w, (words.filter fun w => Text.sameName w.value r.first.value)[
      lookups (rs.take i) r.first.value + seen.count (Text.lower r.first.value)]? = some w) :
    ∃ items st, selectItems (n + 1) (rs.map Reference.item) { Lookup.start words with seen } =
        .ok (items, st) ∧ items.length = rs.length ∧
      ∀ i r w, rs[i]? = some r → (words.filter fun w => Text.sameName w.value r.first.value)[
        lookups (rs.take i) r.first.value + seen.count (Text.lower r.first.value)]? = some w →
          items[i]? = some (.expr (.column (some w.location) (columnOf r)) none) := by
  induction rs generalizing seen with
  | nil => exact ⟨[], _, rfl, rfl, by simp⟩
  | cons r rs ih =>
      obtain ⟨w, hw⟩ := h 0 r rfl
      rw [List.take_zero, lookups, List.countP_nil, Nat.zero_add] at hw
      have hitem : selectItem (n + 1) r.item { Lookup.start words with seen } =
          .ok (.expr (.column (some w.location) (columnOf r)) none,
            { Lookup.start words with seen := Text.lower r.first.value :: seen }) :=
        selectItem_reference (locate_eq_of_getElem? hw) n
      -- The lookup of `r` is counted among the names seen instead of the references before.
      have hshift (i : Nat) (x : Reference) :
          lookups ((r :: rs).take (i + 1)) x.first.value + seen.count (Text.lower x.first.value) =
            lookups (rs.take i) x.first.value +
              (Text.lower r.first.value :: seen).count (Text.lower x.first.value) := by
        rw [List.take_succ_cons, lookups_cons, List.count_cons, ← Text.sameName]
        omega
      obtain ⟨items, st, hitems, hlength, hplaces⟩ := ih fun i x hx => by
        obtain ⟨v, hv⟩ := h (i + 1) x hx
        rw [hshift] at hv
        exact ⟨v, hv⟩
      refine ⟨_ :: items, st, stateBind_eq_ok.mpr ⟨_, _, hitem, stateBind_eq_ok.mpr
        ⟨items, st, hitems, rfl⟩⟩, by simp [hlength], fun i x v hx hv => ?_⟩
      cases i with
      | zero =>
          cases hx
          rw [List.take_zero, lookups, List.countP_nil, Nat.zero_add, hw] at hv
          cases hv
          rfl
      | succ i =>
          rw [hshift] at hv
          exact hplaces i x v hx hv

theorem queryOf_selection {s : Selection} {r : Grammar.Factor} (htable : r.table = some [s.source])
    {n : Nat} {words : List Word} {items : List SelectItem} {st : Lookup}
    (hitems : selectItems (n + 1) (s.references.map Reference.item) (.start words) =
      .ok (items, st)) :
    ∃ q st', queryOf (n + 1) (s.tree r) (.start words) = .ok (q, st') ∧ q.select = items := by
  obtain ⟨loc, st', hloc⟩ := locate_eq_ok (Grammar.pathValue [s.source]) st
  have hsource : ∃ t, tableRef r st = .ok (t, st') := by
    unfold tableRef
    rw [htable]
    exact ⟨_, stateBind_eq_ok.mpr ⟨loc, st', hloc, rfl⟩⟩
  obtain ⟨t, ht⟩ := hsource
  have hrelation : relation (n + 1) [⟨r, []⟩] st = .ok (.table t, st') :=
    stateBind_eq_ok.mpr ⟨_, st', ht, rfl⟩
  exact ⟨_, st', stateBind_eq_ok.mpr ⟨items, st, hitems,
    stateBind_eq_ok.mpr ⟨_, st', hrelation, rfl⟩⟩, rfl⟩

/-! ## Words and lookups -/

theorem getElem?_filter_countP {α : Type} {p : α → Bool} {l : List α} {i : Nat} {a : α}
    (h : l[i]? = some a) (ha : p a = true) : (l.filter p)[(l.take i).countP p]? = some a := by
  induction l generalizing i with
  | nil => cases h
  | cons b l ih =>
      cases i with
      | zero =>
          cases h
          simp [ha]
      | succ i =>
          have hrest := ih h
          cases hb : p b <;> simpa [hb] using hrest

/-- How many words are spelled like the name, up to the end of the references, and not looked up. -/
def passed (rs : List Reference) (name : String) : Nat :=
  (if Text.sameName "SELECT" name then 1 else 0) +
    rs.countP fun r => r.qualifier.isSome && Text.sameName r.name.value name

theorem passed_eq_zero {rs : List Reference} {name : String} : passed rs name = 0 ↔
    Text.lower name ≠ "select" ∧
      ∀ r ∈ rs, r.qualifier.isSome = true → Text.lower r.name.value ≠ Text.lower name := by
  have hselect : Text.sameName "SELECT" name = true ↔ Text.lower name = "select" := by
    have hlower : Text.lower "SELECT" = "select" := by decide +kernel
    rw [Text.sameName_iff, hlower, eq_comm]
  simp [passed, hselect, List.countP_eq_zero, Text.sameName_iff]

/-- The first word of a reference is looked up, and the name after a period is not. -/
theorem countP_reference (r : Reference) (name : String) : r.tokens.countP (·.spells name) =
    (if Text.sameName r.first.value name then 1 else 0) +
      if r.qualifier.isSome && Text.sameName r.name.value name then 1 else 0 := by
  obtain ⟨qualifier, column⟩ := r
  cases qualifier with
  | none => exact List.countP_singleton
  | some q =>
      have htokens : Reference.tokens ⟨some q, column⟩ =
          [q.token, .symbol .period, column.token] := rfl
      have hperiod : Token.spells (.symbol .period) name = false := rfl
      rw [htokens, List.countP_cons, List.countP_cons, List.countP_singleton, hperiod,
        if_neg Bool.false_ne_true, Option.isSome_some, Bool.true_and, Nat.add_zero, Nat.add_comm]
      rfl

/-- The words before a reference that are spelled like the name. -/
theorem countP_front (s : Selection) (i : Nat) (name : String) :
    (s.front i).countP (·.spells name) =
      lookups (s.references.take i) name + passed (s.references.take i) name := by
  have hreferences (rs : List Reference) :
      ((rs.flatMap fun r => r.tokens ++ [.symbol .comma]).countP (·.spells name)) =
        lookups rs name +
          rs.countP fun r => r.qualifier.isSome && Text.sameName r.name.value name := by
    induction rs with
    | nil => rfl
    | cons r rs ih =>
        have hcomma : [Token.symbol .comma].countP (·.spells name) = 0 := rfl
        rw [List.flatMap_cons, List.countP_append, List.countP_append, hcomma, ih, lookups_cons,
          List.countP_cons, countP_reference]
        omega
  have hselect : Token.spells (.word "SELECT" none) name = Text.sameName "SELECT" name := rfl
  rw [Selection.front, List.countP_cons, hreferences, hselect, passed]
  omega

/-- The words of a query that are spelled like a name have the positions of their tokens. -/
theorem getElem?_words {ls : List Lexeme} {name : String} {n : Nat} {place : Lexeme}
    (h : (ls.filter (·.token.spells name))[n]? = some place) :
    ∃ w, ((ls.filterMap wordOf?).filter fun w => Text.sameName w.value name)[n]? = some w ∧
      w.location = place.position.narrow := by
  induction ls generalizing n with
  | nil => cases h
  | cons l ls ih =>
      obtain ⟨t, p⟩ := l
      cases t with
      | word v q =>
          have hword : wordOf? ⟨.word v q, p⟩ = some ⟨v, p.narrow⟩ := rfl
          rw [List.filterMap_cons_some hword]
          cases hv : Text.sameName v name with
          | false =>
              rw [List.filter_cons, if_neg (by simp [Token.spells, hv])] at h
              rw [List.filter_cons, if_neg (by simp [hv])]
              exact ih h
          | true =>
              rw [List.filter_cons, if_pos (by exact hv)] at h
              rw [List.filter_cons, if_pos hv]
              cases n with
              | zero =>
                  cases h
                  exact ⟨_, rfl, rfl⟩
              | succ n => exact ih h
      | _ => exact ih h

/-! ## Positions of columns -/

section

variable {sql : String} {ls : List Lexeme} {s : Selection} {i : Nat} {r : Reference}

/-- The first word of a column, and which one it is of the words that are spelled so. -/
theorem exists_own (htokens : (ls.map Lexeme.token).filter (!·.isGap) = s.tokens)
    (hr : s.references[i]? = some r) :
    ∃ own, (ls.filter (!·.token.isGap))[(s.front i).length]? = some own ∧
      own.token = r.first.token ∧
      (ls.filter (·.token.spells r.first.value))[lookups (s.references.take i) r.first.value +
        passed (s.references.take i) r.first.value]? = some own := by
  obtain ⟨rest, hrest⟩ := Selection.tokens_split hr
  have hmap : (ls.filter (!·.token.isGap)).map Lexeme.token =
      s.front i ++ r.first.token :: rest := by
    rw [← hrest, ← htokens, List.filter_map]
    rfl
  have hget : ((ls.filter (!·.token.isGap)).map Lexeme.token)[(s.front i).length]? =
      some r.first.token := by
    rw [hmap]
    simp
  obtain ⟨own, hown, htoken⟩ := Option.map_eq_some_iff.mp (List.getElem?_map.symm.trans hget)
  have hspells : own.token.spells r.first.value = true := by
    rw [htoken]
    exact Text.sameName_refl _
  have hcount : (((ls.filter (!·.token.isGap)).take (s.front i).length).countP
      (·.token.spells r.first.value)) = (s.front i).countP (·.spells r.first.value) := by
    have hcount := List.countP_map (p := (Token.spells · r.first.value)) (f := Lexeme.token)
      (l := (ls.filter (!·.token.isGap)).take (s.front i).length)
    rw [List.map_take, hmap, List.take_left] at hcount
    exact hcount.symm
  have hnot (l : Lexeme) : (!l.token.isGap && l.token.spells r.first.value) =
      l.token.spells r.first.value := by
    obtain ⟨t, p⟩ := l
    cases t <;> rfl
  have hfound := getElem?_filter_countP (p := fun l => l.token.spells r.first.value) hown hspells
  simp only [hcount, countP_front, List.filter_filter, Bool.and_comm _ (!_), hnot] at hfound
  exact ⟨own, hown, htoken, hfound⟩

/-- There are at least as many words for a name as lookups. -/
theorem exists_place (htokens : (ls.map Lexeme.token).filter (!·.isGap) = s.tokens)
    (hr : s.references[i]? = some r) : ∃ place,
      (ls.filter (·.token.spells r.first.value))[
        lookups (s.references.take i) r.first.value]? = some place := by
  obtain ⟨own, _, _, hown⟩ := exists_own htokens hr
  have hlt := (List.getElem?_eq_some_iff.mp hown).1
  exact ⟨_, List.getElem?_eq_getElem (Nat.lt_of_le_of_lt (Nat.le_add_right _ _) hlt)⟩

/-- A script that selects columns from a relation is read whatever gaps stand between its tokens. -/
theorem prepare_selection (limit : Nat) (hscan : Lexeme.scan sql = .ok ls)
    (htokens : (ls.map Lexeme.token).filter (!·.isGap) = s.tokens) (hs : s.Free)
    (hplain : ∀ l ∈ ls, l.token.Plain) :
    ∃ text q, prepare (limit + 3) sql = .ok [⟨text, .query q⟩] ∧
      q.select.length = s.references.length ∧
      ∀ i r place, s.references[i]? = some r →
        (ls.filter (·.token.spells r.first.value))[
          lookups (s.references.take i) r.first.value]? = some place →
        q.select[i]? = some (.expr (.column (some place.position.narrow) (columnOf r)) none) := by
  have hwords (i : Nat) (r : Reference) (hr : s.references[i]? = some r) : ∃ w,
      ((ls.filterMap wordOf?).filter fun w => Text.sameName w.value r.first.value)[
        lookups (s.references.take i) r.first.value + 0]? = some w := by
    obtain ⟨place, hplace⟩ := exists_place htokens hr
    obtain ⟨w, hw, _⟩ := getElem?_words hplace
    exact ⟨w, hw⟩
  obtain ⟨items, st, hitems, hlength, hcolumns⟩ :=
    @selectItems_columns (limit + 2) (ls.filterMap wordOf?) s.references [] hwords
  have hsemi : ∀ l ∈ ls, l.token ≠ .symbol .semicolon := by
    intro l hl heq
    have hkind := mem_tokens_of_lexeme htokens (List.mem_map_of_mem hl)
    rw [heq] at hkind
    simp at hkind
  have hfilled : ls.all (·.token.isGap) = false := by
    rw [Bool.eq_false_iff]
    intro hgaps
    have hall : ∀ t ∈ ls.map Lexeme.token, t.isGap = true := by
      simpa using hgaps
    rw [Token.filter_gaps hall] at htokens
    cases htokens
  have hwindow : WindowClause.extract (ls.map Lexeme.token) = .ok (none, ls.map Lexeme.token) := by
    refine WindowClause.extract_eq_none.mpr ⟨rfl, WindowClause.not_holds_of_isChain ?_⟩
    rw [htokens]
    exact WindowClause.isChain_selection s
  obtain ⟨r, htable, honly⟩ :=
    onlyQuery_selection hscan htokens hs hplain (chunks_eq hsemi) limit
  obtain ⟨q, st', hq, rfl⟩ := queryOf_selection htable hitems
  refine ⟨_, _, (prepare_query hscan hsemi hfilled (split_selection htokens) hwindow _ _).mpr
    ⟨_, q, st', honly, hq, rfl⟩, hlength, fun i r place hr hplace => ?_⟩
  obtain ⟨w, hw, hlocation⟩ := getElem?_words hplace
  rw [← hlocation]
  exact hcolumns i r w hr hw

/-- Tokens of a text in different places are different, and so are their positions. -/
theorem position_inj (hscan : Lexeme.scan sql = .ok ls) {p : Lexeme → Bool} {m n : Nat}
    {a b : Lexeme} (ha : (ls.filter p)[m]? = some a) (hb : (ls.filter p)[n]? = some b) :
    (a.position = b.position ↔ m = n) ∧ (a = b ↔ m = n) := by
  have hahead := List.pairwise_iff_getElem.mp ((ahead_lexemes hscan).filter p)
  obtain ⟨hm, rfl⟩ := List.getElem?_eq_some_iff.mp ha
  obtain ⟨hn, rfl⟩ := List.getElem?_eq_some_iff.mp hb
  have hinj (heq : ((ls.filter p)[m]).position = ((ls.filter p)[n]).position) : m = n := by
    rcases Nat.lt_trichotomy m n with hlt | heq' | hlt
    · exact absurd heq (hahead m n hm hn hlt).ne
    · exact heq'
    · exact absurd heq.symm (hahead n m hn hm hlt).ne
  refine ⟨⟨hinj, ?_⟩, ⟨fun heq => hinj (congrArg Lexeme.position heq), ?_⟩⟩
  · rintro rfl
    rfl
  · rintro rfl
    rfl

end

/-- A column gets the position of the word that is, of those spelled like its first one, as many
    words on as there were such columns before it. This is its own first word, the token that follows
    those of the columns before it, exactly if neither SELECT nor the name of an earlier column with
    a qualifier is spelled so. Its own position is where the text before this token leads; in a
    script whose length 32 bits hold, the column has that line and column in the same case. -/
theorem prepare_columns (limit : Nat) {sql : String} {ls : List Lexeme} {s : Selection}
    (hscan : Lexeme.scan sql = .ok ls)
    (htokens : (ls.map Lexeme.token).filter (!·.isGap) = s.tokens) (hs : s.Free)
    (hplain : ∀ l ∈ ls, l.token.Plain) :
    ∃ text q, prepare (limit + 3) sql = .ok [⟨text, .query q⟩] ∧
      q.select.length = s.references.length ∧
      ∀ i r, s.references[i]? = some r → ∃ own place location,
        (ls.filter (!·.token.isGap))[(s.front i).length]? = some own ∧
        own.token = r.first.token ∧ Stands own (.start sql.toList) ∧
        q.select[i]? = some (.expr (.column (some location) (columnOf r)) none) ∧
        location = place.position.narrow ∧
        (ls.filter (·.token.spells r.first.value))[
          lookups (s.references.take i) r.first.value]? = some place ∧
        (place = own ↔ Text.lower r.first.value ≠ "select" ∧
          ∀ x ∈ s.references.take i, x.qualifier.isSome = true →
            Text.lower x.name.value ≠ Text.lower r.first.value) ∧
        (sql.length < UInt32.size →
          (location.line.toNat = own.position.line ∧ location.column.toNat = own.position.column ↔
            place = own)) := by
  obtain ⟨text, q, hprepare, hlength, hcolumns⟩ := prepare_selection limit hscan htokens hs hplain
  refine ⟨text, q, hprepare, hlength, fun i r hr => ?_⟩
  obtain ⟨own, hown, htoken, hspelled⟩ := exists_own htokens hr
  obtain ⟨place, hplace⟩ := exists_place htokens hr
  have hstands : Stands own (.start sql.toList) :=
    stands_of_lexemes hscan (List.mem_filter.mp (List.mem_of_getElem? hown)).1
  obtain ⟨hposition, hsame⟩ := position_inj hscan hplace hspelled
  refine ⟨own, place, _, hown, htoken, hstands, hcolumns i r place hr hplace, rfl, hplace, ?_,
    fun hsql => ?_⟩
  · rw [← passed_eq_zero, hsame]
    omega
  · have hle := position_le hscan (List.mem_filter.mp (List.mem_of_getElem? hplace)).1
    obtain ⟨hline, hcolumn⟩ := Position.narrow_of_lt (Nat.lt_of_le_of_lt hle.1 hsql)
      (Nat.lt_of_le_of_lt hle.2 hsql)
    rw [hsame, ← hposition, hline, hcolumn]
    exact ⟨fun ⟨hl, hc⟩ => congrArg₂ Position.mk hl hc, fun heq => heq ▸ ⟨rfl, rfl⟩⟩

/-- The tokens of a select list over two lines. -/
def overTwoLines : List Lexeme :=
  [⟨.word "SELECT" none, ⟨1, 1⟩⟩, ⟨.gap .space, ⟨1, 7⟩⟩, ⟨.word "b" none, ⟨1, 8⟩⟩,
    ⟨.symbol .comma, ⟨1, 9⟩⟩, ⟨.gap .newline, ⟨1, 10⟩⟩, ⟨.word "t" none, ⟨2, 1⟩⟩,
    ⟨.symbol .period, ⟨2, 2⟩⟩, ⟨.word "a" none, ⟨2, 3⟩⟩, ⟨.symbol .comma, ⟨2, 4⟩⟩,
    ⟨.word "B" (some '"'), ⟨2, 5⟩⟩, ⟨.gap .space, ⟨2, 8⟩⟩, ⟨.word "FROM" none, ⟨2, 9⟩⟩,
    ⟨.gap .space, ⟨2, 13⟩⟩, ⟨.word "t" none, ⟨2, 14⟩⟩]

theorem prepare_columns_overTwoLines :
    Lexeme.scan "SELECT b,\nt.a,\"B\" FROM t" = .ok overTwoLines ∧
      (∀ l ∈ overTwoLines, l.token.Plain) ∧
      ∃ text q, prepare 3 "SELECT b,\nt.a,\"B\" FROM t" = .ok [⟨text, .query q⟩] ∧
        q.select.length = 3 ∧
        q.select[2]? = some (.expr (.column (some ⟨2, 5⟩) ⟨none, "B"⟩) none) := by
  have hscan : Lexeme.scan "SELECT b,\nt.a,\"B\" FROM t" = .ok overTwoLines := by decide +kernel
  have hfree : Selection.Free ⟨⟨none, ⟨"b", none⟩⟩, [⟨some ⟨"t", none⟩, ⟨"a", none⟩⟩,
      ⟨none, ⟨"B", some '"'⟩⟩], ⟨"t", none⟩⟩ := by decide +kernel
  have hplain : ∀ l ∈ overTwoLines, l.token.Plain := by simp [overTwoLines, Token.Plain]
  obtain ⟨text, q, hprepare, hlength, hcolumns⟩ := prepare_columns 0 hscan rfl hfree hplain
  obtain ⟨own, place, _, hown, _, _, hselect, rfl, _, hiff, _⟩ := hcolumns 2 _ rfl
  have hown' : some ⟨.word "B" (some '"'), ⟨2, 5⟩⟩ = some own := hown
  cases hown'
  rw [hiff.mpr (by decide +kernel)] at hselect
  exact ⟨hscan, hplain, text, q, hprepare, hlength, hselect⟩

/-- The tokens of a select list with a name after a period and alone. -/
def nameTwice : List Lexeme :=
  [⟨.word "SELECT" none, ⟨1, 1⟩⟩, ⟨.gap .space, ⟨1, 7⟩⟩, ⟨.word "t" none, ⟨1, 8⟩⟩,
    ⟨.symbol .period, ⟨1, 9⟩⟩, ⟨.word "a" none, ⟨1, 10⟩⟩, ⟨.symbol .comma, ⟨1, 11⟩⟩,
    ⟨.gap .space, ⟨1, 12⟩⟩, ⟨.word "a" none, ⟨1, 13⟩⟩, ⟨.gap .space, ⟨1, 14⟩⟩,
    ⟨.word "FROM" none, ⟨1, 15⟩⟩, ⟨.gap .space, ⟨1, 19⟩⟩, ⟨.word "t" none, ⟨1, 20⟩⟩]

/-- The second column stands in column 13 of the line and gets the position of the name in the first
    one, in column 10. -/
theorem exists_column_elsewhere :
    Lexeme.scan "SELECT t.a, a FROM t" = .ok nameTwice ∧
      (nameTwice.filter (!·.token.isGap))[5]? = some ⟨.word "a" none, ⟨1, 13⟩⟩ ∧
      ∃ text q, prepare 3 "SELECT t.a, a FROM t" = .ok [⟨text, .query q⟩] ∧
        q.select[1]? = some (.expr (.column (some ⟨1, 10⟩) ⟨none, "a"⟩) none) := by
  have hscan : Lexeme.scan "SELECT t.a, a FROM t" = .ok nameTwice := by decide +kernel
  have hfree : Selection.Free ⟨⟨some ⟨"t", none⟩, ⟨"a", none⟩⟩, [⟨none, ⟨"a", none⟩⟩],
      ⟨"t", none⟩⟩ := by decide +kernel
  have hplain : ∀ l ∈ nameTwice, l.token.Plain := by simp [nameTwice, Token.Plain]
  obtain ⟨text, q, hprepare, _, hcolumns⟩ := prepare_selection 0 hscan rfl hfree hplain
  exact ⟨hscan, rfl, text, q, hprepare,
    hcolumns 1 _ ⟨.word "a" none, ⟨1, 10⟩⟩ rfl (by decide +kernel)⟩

end Script

end StreamSql
