/-
  Envelopes by their grammar. `Envelope.Written e ts` lists the ways to write the envelope `e`, as
  tokens without gaps, up to the body of the query. An envelope is split off exactly if such tokens
  stand first, and the body is everything after the last of them; otherwise the tokens stay whole or
  there is an error (`split_eq_ok`).

  Properties are read in a loop that counts down from the number of tokens. A property takes four of
  them, so the count never runs out first (`withProperties_eq_ok`).
-/
import StreamSql.Proofs.Outcome
import StreamSql.Proofs.Script.Reading
import StreamSql.Script.Envelope

namespace StreamSql

open Outcome

/-! ## Ways to write an envelope -/

/-- The word for a kind of relation. -/
def SinkKind.word : SinkKind → String
  | .stream => "STREAM"
  | .table => "TABLE"

/-- The text that a token gives to a property: a string in single quotes, a number or a word. -/
def Token.setting? : Token → Option String
  | .string s => some s
  | .number digits _ => some digits
  | .word v _ => some v
  | _ => none

namespace Envelope

/-- Properties with commas between them, up to the closing parenthesis. -/
inductive Listed : List (String × String) → List Token → Prop
  | last {key value : String} {quote : Option Char} {t : Token} (given : t.setting? = some value) :
      Listed [(key, value)] [.word key quote, .symbol .eq, t, .symbol .rParen]
  | more {key value : String} {quote : Option Char} {t : Token} {ps : List (String × String)}
      {ts : List Token} (given : t.setting? = some value) (rest : Listed ps ts) :
      Listed ((key, value) :: ps) (.word key quote :: .symbol .eq :: t :: .symbol .comma :: ts)

/-- The properties after the name of a relation. -/
inductive Attached : List (String × String) → List Token → Prop
  | none : Attached [] []
  | some {opening : Token} {ps : List (String × String)} {ts : List Token}
      (named : opening.isWord "WITH" = true) (listed : Listed ps ts) :
      Attached ps (opening :: .symbol .lParen :: ts)

/-- An envelope up to the body of its query. -/
inductive Written : Envelope → List Token → Prop
  | create {first second last : Token} {kind : SinkKind} {name : String} {quote : Option Char}
      {ps : List (String × String)} {ts : List Token} (creates : first.isWord "CREATE" = true)
      (named : second.isWord kind.word = true) (attached : Attached ps ts)
      (as : last.isWord "AS" = true) :
      Written (.create kind name ps) (first :: second :: .word name quote :: (ts ++ [last]))
  | insert {first second : Token} {target : String} {quote : Option Char}
      (inserts : first.isWord "INSERT" = true) (into : second.isWord "INTO" = true) :
      Written (.insert target) [first, second, .word target quote]

open Token

variable {ls r body : List Token} {ps : List (String × String)} {ts : List Token} {e : Envelope}

/-! ## Properties -/

theorem propertyValue_eq_ok {key value : String} : propertyValue key ls = .ok (value, r) ↔
    ∃ t, t.setting? = some value ∧ take? ls = some (t, r) := by
  unfold propertyValue
  cases htake : take? ls with
  | none => simp
  | some p =>
      obtain ⟨t, m⟩ := p
      cases t <;> simp [Token.setting?]

theorem property_eq_ok {key value : String} : property ls = .ok ((key, value), r) ↔
    ∃ quote t, t.setting? = some value ∧ Takes [.word key quote, .symbol .eq, t] ls r := by
  constructor
  · intro h
    unfold property at h
    split at h
    · cases h
    · rename_i k a hkey
      split at h
      · cases h
      · rename_i b hequals
        obtain ⟨⟨v, r'⟩, hvalue, h⟩ := bind_eq_ok.mp h
        cases h
        obtain ⟨quote, hkey⟩ := takeWord?_eq_some.mp hkey
        obtain ⟨t, ht, hvalue⟩ := propertyValue_eq_ok.mp hvalue
        exact ⟨quote, t, ht, a, hkey, b, takeSymbol?_eq_some.mp hequals, r, hvalue, rfl⟩
  · rintro ⟨quote, t, ht, a, hkey, b, hequals, _, hvalue, rfl⟩
    have hkey := takeWord?_eq_some.mpr ⟨quote, hkey⟩
    have hequals := takeSymbol?_eq_some.mpr hequals
    have hvalue : propertyValue key b = .ok (value, _) :=
      propertyValue_eq_ok.mpr ⟨t, ht, hvalue⟩
    simp [property, hkey, hequals, hvalue, bind, Except.bind, pure, Except.pure]

theorem Listed.length_le (h : Listed ps ts) : ps.length ≤ ts.length := by
  induction h with
  | last => simp
  | more _ _ ih =>
      simp only [List.length_cons]
      omega

/-- So many properties are read as the count allows. -/
theorem properties_eq_ok {n : Nat} : properties n ls = .ok (ps, r) ↔
    ps.length ≤ n ∧ ∃ ts, Listed ps ts ∧ Takes ts ls r := by
  constructor
  · intro h
    induction n generalizing ls ps with
    | zero => cases h
    | succ n ih =>
        obtain ⟨⟨⟨key, value⟩, a⟩, hp, h⟩ := bind_eq_ok.mp h
        obtain ⟨quote, t, ht, hp⟩ := property_eq_ok.mp hp
        simp only at h
        split at h
        · rename_i b hcomma
          obtain ⟨⟨ps', r'⟩, hps, h⟩ := bind_eq_ok.mp h
          cases h
          obtain ⟨hlength, ts, hlisted, htakes⟩ := ih hps
          have hall : Takes ([.word key quote, .symbol .eq, t] ++ .symbol .comma :: ts) ls r' :=
            takes_append.mpr ⟨a, hp, b, takeSymbol?_eq_some.mp hcomma, htakes⟩
          exact ⟨by simpa using hlength, _, .more ht hlisted, hall⟩
        · split at h
          · rename_i b hclose
            cases h
            have hall : Takes ([.word key quote, .symbol .eq, t] ++ [.symbol .rParen]) ls r :=
              takes_append.mpr ⟨a, hp, r, takeSymbol?_eq_some.mp hclose, rfl⟩
            exact ⟨by simp, _, .last ht, hall⟩
          · cases h
  · rintro ⟨hlength, ts, hlisted, htakes⟩
    induction hlisted generalizing n ls with
    | last ht =>
        obtain ⟨n, rfl⟩ := Nat.exists_eq_add_one_of_ne_zero (Nat.pos_iff_ne_zero.mp hlength)
        obtain ⟨a, hkey, b, hequals, d, hvalue, _, hclose, rfl⟩ := htakes
        have hp := property_eq_ok.mpr ⟨_, _, ht, a, hkey, b, hequals, d, hvalue, rfl⟩
        have hcomma : takeSymbol? .comma d = none := takeSymbol?_eq_none hclose (by decide)
        simp [properties, hp, hcomma, takeSymbol?_eq_some.mpr hclose, bind, Except.bind, pure,
          Except.pure]
    | more ht hlisted ih =>
        obtain ⟨n, rfl⟩ := Nat.exists_eq_add_one_of_ne_zero (n := n) (by
          rintro rfl
          simp at hlength)
        obtain ⟨a, hkey, b, hequals, d, hvalue, m, hcomma, htakes⟩ := htakes
        have hp := property_eq_ok.mpr ⟨_, _, ht, a, hkey, b, hequals, d, hvalue, rfl⟩
        have hps := ih (by simpa using hlength) htakes
        simp [properties, hp, takeSymbol?_eq_some.mpr hcomma, hps, bind, Except.bind, pure,
          Except.pure]

/-- There are properties after the word WITH, and none without it. -/
theorem withProperties_eq_ok : withProperties ls = .ok (ps, r) ↔
    ∃ ts, Attached ps ts ∧ Takes ts ls r ∧ (ts = [] → takeKeyword? "WITH" ls = none) := by
  constructor
  · intro h
    unfold withProperties at h
    split at h
    · rename_i hnone
      cases h
      exact ⟨[], .none, rfl, fun _ => hnone⟩
    · rename_i a hwith
      split at h
      · cases h
      · rename_i b hopen
        obtain ⟨opening, hnamed, hwith⟩ := takeKeyword?_eq_some.mp hwith
        obtain ⟨_, ts, hlisted, htakes⟩ := properties_eq_ok.mp h
        exact ⟨_, .some hnamed hlisted, ⟨a, hwith, b, takeSymbol?_eq_some.mp hopen, htakes⟩,
          by simp⟩
  · rintro ⟨ts, hattached, htakes, hnone⟩
    cases hattached with
    | none =>
        cases htakes
        simp [withProperties, hnone rfl]
    | some hnamed hlisted =>
        obtain ⟨a, hwith, b, hopen, htakes⟩ := htakes
        have hwith := takeKeyword?_eq_some.mpr ⟨_, hnamed, hwith⟩
        have hcount := hlisted.length_le
        have hlength := htakes.length_le
        have hps := properties_eq_ok.mpr ⟨(by omega : _ ≤ b.length + 1), _, hlisted, htakes⟩
        simp [withProperties, hwith, takeSymbol?_eq_some.mpr hopen, hps]

/-! ## Splitting -/

theorem takeKind?_eq_some {kind : SinkKind} : takeKind? ls = some (kind, r) ↔
    ∃ t, t.isWord kind.word = true ∧ take? ls = some (t, r) := by
  constructor
  · intro h
    unfold takeKind? at h
    split at h
    · rename_i a hstream
      cases h
      exact takeKeyword?_eq_some.mp hstream
    · obtain ⟨a, htable, heq⟩ := Option.map_eq_some_iff.mp h
      cases heq
      exact takeKeyword?_eq_some.mp htable
  · rintro ⟨t, ht, htake⟩
    have hkind := takeKeyword?_eq_some.mpr ⟨t, ht, htake⟩
    cases kind with
    | stream =>
        have hstream : takeKeyword? "STREAM" ls = some r := hkind
        simp [takeKind?, hstream]
    | table =>
        have hstream : takeKeyword? "STREAM" ls = none :=
          takeKeyword?_eq_none htake ht (by decide)
        have htable : takeKeyword? "TABLE" ls = some r := hkind
        simp [takeKind?, hstream, htable]

/-- What follows the word CREATE is the rest of an envelope, or the tokens stay whole. -/
theorem splitCreate_eq_ok {whole : List Token} (h : splitCreate whole ls = .ok (e, body)) :
    e = .query ∧ body = whole ∨ ∀ {first : Token}, first.isWord "CREATE" = true →
      ∃ ts, e.Written (first :: ts) ∧ Takes ts ls body := by
  unfold splitCreate at h
  split at h
  · cases h
    exact Or.inl ⟨rfl, rfl⟩
  · rename_i kind a hkind
    split at h
    · cases h
      exact Or.inl ⟨rfl, rfl⟩
    · rename_i name b hname
      obtain ⟨⟨ps, d⟩, hps, h⟩ := bind_eq_ok.mp h
      simp only at h
      split at h
      · rename_i m has
        cases h
        obtain ⟨second, hsecond, hkind⟩ := takeKind?_eq_some.mp hkind
        obtain ⟨quote, hname⟩ := takeWord?_eq_some.mp hname
        obtain ⟨ts, hattached, htakes, _⟩ := withProperties_eq_ok.mp hps
        obtain ⟨last, hlast, has⟩ := takeKeyword?_eq_some.mp has
        have hend : Takes (ts ++ [last]) b body := takes_append.mpr ⟨d, htakes, body, has, rfl⟩
        exact Or.inr fun hfirst =>
          ⟨_, .create hfirst hsecond hattached hlast, a, hkind, b, hname, hend⟩
      · split at h
        · cases h
          exact Or.inl ⟨rfl, rfl⟩
        · cases h

/-- An envelope that is split off is written first in the tokens, and without one they stay
    whole. -/
theorem split_eq_ok (h : split ls = .ok (e, body)) :
    e = .query ∧ body = ls ∨ ∃ ts, e.Written ts ∧ Takes ts ls body := by
  unfold split at h
  split at h
  · rename_i a hcreate
    obtain ⟨first, hfirst, hcreate⟩ := takeKeyword?_eq_some.mp hcreate
    rcases splitCreate_eq_ok h with hquery | hwritten
    · exact Or.inl hquery
    · obtain ⟨ts, hwritten, htakes⟩ := hwritten hfirst
      exact Or.inr ⟨_, hwritten, a, hcreate, htakes⟩
  · split at h
    · rename_i a hinsert
      obtain ⟨first, hfirst, hinsert⟩ := takeKeyword?_eq_some.mp hinsert
      unfold splitInsert at h
      split at h
      · cases h
      · rename_i b hinto
        split at h
        · cases h
        · rename_i target d htarget
          cases h
          obtain ⟨second, hsecond, hinto⟩ := takeKeyword?_eq_some.mp hinto
          obtain ⟨quote, htarget⟩ := takeWord?_eq_some.mp htarget
          exact Or.inr ⟨_, .insert hfirst hsecond, a, hinsert, b, hinto, body, htarget, rfl⟩
    · cases h
      exact Or.inl ⟨rfl, rfl⟩

/-- An envelope that is written first in the tokens is split off. -/
theorem split_of_written (hwritten : e.Written ts) (htakes : Takes ts ls body) :
    split ls = .ok (e, body) := by
  cases hwritten with
  | @create first second last kind name quote ps ts hfirst hsecond hattached hlast =>
      obtain ⟨a, hcreate, b, hkind, d, hname, htakes⟩ := htakes
      obtain ⟨m, hfront, _, has, rfl⟩ := takes_append.mp htakes
      have hcreate := takeKeyword?_eq_some.mpr ⟨first, hfirst, hcreate⟩
      have hkind := takeKind?_eq_some.mpr ⟨second, hsecond, hkind⟩
      have hname := takeWord?_eq_some.mpr ⟨quote, hname⟩
      -- Without properties the next word is AS, and that is not WITH.
      have hnone : ts = [] → takeKeyword? "WITH" d = none := by
        rintro rfl
        cases hfront
        exact takeKeyword?_eq_none has hlast (by decide)
      have hps := withProperties_eq_ok.mpr ⟨ts, hattached, hfront, hnone⟩
      have has := takeKeyword?_eq_some.mpr ⟨last, hlast, has⟩
      simp [split, splitCreate, hcreate, hkind, hname, hps, has, bind, Except.bind, pure,
        Except.pure]
  | @insert first second target quote hfirst hsecond =>
      obtain ⟨a, hinsert, b, hinto, _, htarget, rfl⟩ := htakes
      have hcreate : takeKeyword? "CREATE" ls = none :=
        takeKeyword?_eq_none hinsert hfirst (by decide)
      have hinsert := takeKeyword?_eq_some.mpr ⟨first, hfirst, hinsert⟩
      have hinto := takeKeyword?_eq_some.mpr ⟨second, hsecond, hinto⟩
      have htarget := takeWord?_eq_some.mpr ⟨quote, htarget⟩
      simp [split, splitInsert, hcreate, hinsert, hinto, htarget]

/-- The envelope stands first in the tokens, gaps left out, and the body is everything after its
    last token. -/
def Heads (e : Envelope) (ls body : List Token) : Prop :=
  ∃ front last, ls = front ++ last :: body ∧ last.isGap = false ∧
    e.Written ((front ++ [last]).filter (!·.isGap))

theorem heads_iff : e.Heads ls body ↔ ∃ ts, e.Written ts ∧ Takes ts ls body := by
  have hne {ts : List Token} (h : e.Written ts) : ts ≠ [] := by
    cases h <;> simp
  constructor
  · rintro ⟨front, last, hls, hlast, hwritten⟩
    exact ⟨_, hwritten, (takes_iff (hne hwritten)).mpr ⟨front, last, hls, hlast, rfl⟩⟩
  · rintro ⟨ts, hwritten, htakes⟩
    obtain ⟨front, last, hls, hlast, rfl⟩ := (takes_iff (hne hwritten)).mp htakes
    exact ⟨front, last, hls, hlast, hwritten⟩

theorem split_iff_heads (he : e ≠ .query) : split ls = .ok (e, body) ↔ e.Heads ls body := by
  rw [heads_iff]
  constructor
  · intro h
    rcases split_eq_ok h with ⟨hquery, _⟩ | hwritten
    · exact absurd hquery he
    · exact hwritten
  · rintro ⟨ts, hwritten, htakes⟩
    exact split_of_written hwritten htakes

/-- A statement that is a query as it stands is kept whole. -/
theorem body_of_query (h : split ls = .ok (.query, body)) : body = ls := by
  rcases split_eq_ok h with ⟨_, hbody⟩ | ⟨ts, hwritten, _⟩
  · exact hbody
  · cases hwritten

/-- The body is the end of the statement. -/
theorem suffix_of_split (h : split ls = .ok (e, body)) : body <:+ ls := by
  rcases split_eq_ok h with ⟨_, rfl⟩ | ⟨ts, _, htakes⟩
  · exact List.suffix_refl _
  · obtain ⟨taken, rfl, _⟩ := htakes.split
    exact List.suffix_append taken body

theorem split_of_plain (h : ∀ t ∈ (ls.filter (!·.isGap)).head?,
    t.isWord "CREATE" = false ∧ t.isWord "INSERT" = false) : split ls = .ok (.query, ls) := by
  have hnone {word : String} (hword : ∀ t ∈ (ls.filter (!·.isGap)).head?,
      t.isWord word = false) : takeKeyword? word ls = none := by
    rw [Option.eq_none_iff_forall_ne_some]
    intro r hr
    obtain ⟨t, ht, hr⟩ := takeKeyword?_eq_some.mp hr
    have hhead := hword t (by rw [filter_of_take hr]; rfl)
    rw [ht] at hhead
    cases hhead
  simp [split, hnone fun t ht => (h t ht).1, hnone fun t ht => (h t ht).2]

/-- **Envelopes are split off exactly as they are written.** A list of tokens is a relation that is
    created with a body, or a target with a body, exactly if the envelope stands first in it and the
    body is everything after it. No property is lost, and the order is kept. A list that is neither
    stays whole; in particular every list does that begins with another word than CREATE and
    INSERT. -/
theorem split_written (ls : List Token) :
    (∀ kind name ps body,
      split ls = .ok (.create kind name ps, body) ↔ (create kind name ps).Heads ls body) ∧
    (∀ target body, split ls = .ok (.insert target, body) ↔ (insert target).Heads ls body) ∧
    (∀ body, split ls = .ok (.query, body) → body = ls) ∧
    ((∀ t ∈ (ls.filter (!·.isGap)).head?,
      t.isWord "CREATE" = false ∧ t.isWord "INSERT" = false) → split ls = .ok (.query, ls)) := by
  exact ⟨fun kind name ps body => split_iff_heads (by simp),
    fun target body => split_iff_heads (by simp), fun body h => body_of_query h, split_of_plain⟩

/-- `create/**/Stream "my s" WITH ( topic = 'a', "n"=4L,topic = json )As SELECT` -/
def settings : List Token :=
  [.word "create" none, .gap (.blockComment ""), .word "Stream" none, .gap .space,
    .word "my s" (some '\x22'), .gap .space, .word "WITH" none, .gap .space, .symbol .lParen,
    .gap .space, .word "topic" none, .gap .space, .symbol .eq, .gap .space, .string "a",
    .symbol .comma, .gap .space, .word "n" (some '\x22'), .symbol .eq, .number "4" true,
    .symbol .comma, .word "topic" none, .gap .space, .symbol .eq, .gap .space, .word "json" none,
    .gap .space, .symbol .rParen, .word "As" none, .gap .space,
    .word "SELECT" none]

/-- `CREATE TABLE t WITH (a = 1) (b)` -/
def withoutQuery : List Token :=
  [.word "CREATE" none, .gap .space, .word "TABLE" none, .gap .space, .word "t" none, .gap .space,
    .word "WITH" none, .gap .space, .symbol .lParen, .word "a" none, .gap .space, .symbol .eq,
    .gap .space, .number "1" false, .symbol .rParen, .gap .space, .symbol .lParen, .word "b" none,
    .symbol .rParen]

theorem split_written_settings :
    (create .stream "my s" [("topic", "a"), ("n", "4"), ("topic", "json")]).Heads settings
        (settings.drop 29) ∧
      split (settings.drop 29) = .ok (.query, settings.drop 29) ∧
      ∃ body, split withoutQuery = .ok (.query, body) ∧ body = withoutQuery := by
  have hsplit : split settings =
      .ok (.create .stream "my s" [("topic", "a"), ("n", "4"), ("topic", "json")],
        settings.drop 29) :=
    rfl
  obtain ⟨hcreate, _⟩ := split_written settings
  obtain ⟨_, _, _, hplain⟩ := split_written (settings.drop 29)
  obtain ⟨_, _, hwhole, _⟩ := split_written withoutQuery
  exact ⟨(hcreate _ _ _ _).mp hsplit, hplain (by decide), _, rfl, hwhole _ rfl⟩

end Envelope

end StreamSql
