/-
  Reading symbols. The longest spelling wins, and every beginning of a spelling is a spelling; so the
  one character after a symbol decides whether it goes on (`goesOn`). A symbol is read off any text
  that begins with it and in which it does not go on (`symbol?_run`).
-/
import Mathlib.Data.List.Infix
import StreamSql.Token.Scan

namespace StreamSql

namespace Symbol

/-! ## Spellings -/

/-- What an entry of the table of spellings says. The last two fields are about what else could be
    meant: a spelling begins with no character that begins another token, a few ones apart, and some
    spellings go on only with the characters named here. -/
@[mk_iff]
structure Listed (v : String × Symbol) : Prop where
  text : v.1 = v.2.text ∨ v = ("!=", .neq)
  lookup : spellings.lookup v.1 = some v.2
  ne_nil : v.1.toList ≠ []
  shorter : v.1.toList.length = 1 ∨ ∃ w ∈ spellings, w.1.toList = v.1.toList.dropLast
  later : v.1.toList.tail.all
    (· ∈ ['~', '*', '=', '>', '/', '<', '|', ':', '&', '!', '@', '-', '?']) = true
  doubled : '<' ∈ v.1.toList.tail → v.1.toList = ['<', '<']
  noComment : ['-', '-'].isPrefixOf v.1.toList = false ∧ ['/', '*'].isPrefixOf v.1.toList = false
  head : (v.1.toList.head?.all fun a => (a = '\\' → v.2 = .backslash) ∧ a ≠ '\x27' ∧
    (a = '#' ∨ a = '@' ∨ v.2 = .period ∨
      a ∉ [' ', '\t', '\n', '\x0d', '\x27', '$', '?', '\x22', '\x60', '.', '#', '@'] ∧
        a.isDigit = false ∧ Scan.isWordStart a = false)) = true
  next : ([(['#'], ['>', '-']), (['@'], ['>', '?', '@']), (['<', '>'], []), (['.'], []),
      (['@', '@'], [])].all fun (w, cs) => w.isPrefixOf v.1.toList = true →
    (v.1.toList.drop w.length).head?.all (· ∈ cs) = true) = true

instance : DecidablePred Listed := fun v => decidable_of_iff' _ (listed_iff v)

/-- The table, looked at once. -/
theorem spellings_listed : (∀ v ∈ spellings, Listed v) ∧
    spellings.Pairwise fun v w => w.1.toList.length ≤ v.1.toList.length := by
  decide +kernel

theorem listed {v : String × Symbol} (h : v ∈ spellings) : Listed v :=
  spellings_listed.1 v h

theorem text_mem_spellings (s : Symbol) : (s.text, s) ∈ spellings := by
  -- the entry is found by its symbol, which is quicker to compare than its text
  refine List.mem_of_getElem? (i := (spellings.map (·.2)).idxOf s) ?_
  cases s <;> rfl

/-- Every beginning of a spelling is a spelling. -/
theorem exists_spelling {v : String × Symbol} (h : v ∈ spellings) {u : List Char}
    (hu : u <+: v.1.toList) (hne : u ≠ []) : ∃ w ∈ spellings, w.1.toList = u := by
  induction hn : v.1.toList.length generalizing v with
  | zero =>
      rw [List.eq_nil_of_length_eq_zero hn, List.prefix_nil] at hu
      exact absurd hu hne
  | succ n ih =>
      by_cases heq : u = v.1.toList
      · exact ⟨v, h, heq.symm⟩
      · have hlt : u.length < v.1.toList.length := by
          rcases Nat.lt_or_eq_of_le hu.length_le with hlt | hlen
          · exact hlt
          · exact absurd (hu.eq_of_length hlen) heq
        rcases (listed h).shorter with hone | ⟨w, hw, hdrop⟩
        · have := List.length_pos_iff.mpr hne
          omega
        · refine ih hw ?_ (by simp [hdrop, hn])
          rw [hdrop]
          exact List.prefix_of_prefix_length_le hu (List.dropLast_prefix _) (by simp; omega)

/-- Some spelling goes on with the character after this beginning. -/
def goesOn (w : List Char) (c : Char) : Bool :=
  spellings.any fun v => (w ++ [c]).isPrefixOf v.1.toList

theorem goesOn_iff {w : List Char} {c : Char} :
    goesOn w c = true ↔ ∃ v ∈ spellings, w ++ [c] <+: v.1.toList := by
  simp [goesOn, List.any_eq_true]

/-- The characters that spellings go on with. -/
theorem mem_of_goesOn {w : List Char} {c : Char} (hw : w ≠ []) (h : goesOn w c = true) :
    c ∈ ['~', '*', '=', '>', '/', '<', '|', ':', '&', '!', '@', '-', '?'] := by
  obtain ⟨v, hv, hbegins⟩ := goesOn_iff.mp h
  refine of_decide_eq_true (List.all_eq_true.mp (listed hv).later c ?_)
  obtain ⟨a, w, rfl⟩ := List.exists_cons_of_ne_nil hw
  obtain ⟨r, hr⟩ := hbegins
  rw [← hr]
  simp

/-- A spelling goes on where it is the beginning of a longer one. -/
theorem goesOn_text {s : Symbol} {w : List Char} {c : Char} (h : s.text.toList = w ++ [c]) :
    goesOn w c = true :=
  goesOn_iff.mpr ⟨_, text_mem_spellings s, by rw [h]⟩

theorem toList_text_ne_nil (s : Symbol) : s.text.toList ≠ [] :=
  (listed (text_mem_spellings s)).ne_nil

theorem eq_of_spelling {v : String × Symbol} (h : v ∈ spellings) {s : Symbol}
    (hs : v.1.toList = s.text.toList) : v.2 = s := by
  have hlookup := (listed h).lookup
  rw [String.toList_inj.mp hs, (listed (text_mem_spellings s)).lookup] at hlookup
  exact (Option.some.inj hlookup).symm

/-- Only one spelling goes on with `<`. -/
theorem eq_lt_of_goesOn {s : Symbol} (h : goesOn s.text.toList '<' = true) : s = .lt := by
  obtain ⟨v, hv, r, hr⟩ := goesOn_iff.mp h
  obtain ⟨a, w, hw⟩ := List.exists_cons_of_ne_nil (toList_text_ne_nil s)
  rw [hw] at hr
  rw [(listed hv).doubled (by rw [← hr]; simp)] at hr
  have hone : s.text.toList = ['<'] := by
    cases w with
    | nil =>
        rw [hw]
        simp only [List.cons_append, List.cons.injEq] at hr
        rw [hr.1]
    | cons b w => simp at hr
  have hlt : ("<", Symbol.lt) ∈ spellings := text_mem_spellings .lt
  exact (eq_of_spelling hlt hone.symm).symm

/-- What some beginnings go on with. -/
theorem mem_of_goesOn_next {w cs : List Char} (hw : (w, cs) ∈ [(['#'], ['>', '-']),
      (['@'], ['>', '?', '@']), (['<', '>'], []), (['.'], []), (['@', '@'], [])]) {c : Char}
    (h : goesOn w c = true) : c ∈ cs := by
  obtain ⟨v, hv, hbegins⟩ := goesOn_iff.mp h
  have hbegin := List.isPrefixOf_iff_prefix.mpr ((List.prefix_append w [c]).trans hbegins)
  have hnext := of_decide_eq_true (List.all_eq_true.mp (listed hv).next (w, cs) hw) hbegin
  refine of_decide_eq_true ((Option.all_eq_true _ _).mp hnext c ?_)
  obtain ⟨r, hr⟩ := hbegins
  rw [← hr, List.append_assoc, List.drop_left]
  rfl

/-- Some spellings do not go on. -/
theorem goesOn_eq_false {w : List Char} (hw : w ∈ [['<', '>'], ['.'], ['@', '@']]) (c : Char) :
    goesOn w c = false := by
  refine Bool.eq_false_iff.mpr fun hgoes => ?_
  have hmem : c ∈ ([] : List Char) := by
    refine mem_of_goesOn_next ?_ hgoes
    simp only [List.mem_cons, List.not_mem_nil, or_false] at hw
    rcases hw with rfl | rfl | rfl <;> simp
  exact List.not_mem_nil hmem

end Symbol

namespace Scan

open StreamSql.Symbol

/-! ## The longest symbol -/

theorem symbol?_spec {cs : List Char} {s : Symbol} {n : Nat} (h : symbol? cs = some (s, n)) :
    ∃ w rest, (w, s) ∈ spellings ∧ n = w.toList.length ∧ cs = w.toList ++ rest ∧
      ∀ c ∈ rest.head?, goesOn w.toList c = false := by
  unfold symbol? at h
  obtain ⟨before, ⟨w, s'⟩, after, hlist, hw, hbefore⟩ := List.findSome?_eq_some_iff.mp h
  simp only [Option.ite_none_right_eq_some, Option.some.injEq, Prod.mk.injEq] at hw
  obtain ⟨hbegins, rfl, hn⟩ := hw
  obtain ⟨rest, rfl⟩ := List.isPrefixOf_iff_prefix.mp hbegins
  refine ⟨w, rest, by rw [hlist]; simp, by rw [← hn, String.length_toList], rfl, fun c hc => ?_⟩
  -- a longer spelling would have come first
  rw [Bool.eq_false_iff]
  intro hgoes
  obtain ⟨v, hv, hv'⟩ := goesOn_iff.mp hgoes
  obtain ⟨x, hx, hxw⟩ := exists_spelling hv hv' (by simp)
  have hfits : x.1.toList <+: w.toList ++ rest := by
    rw [hxw]
    cases rest with
    | nil => cases hc
    | cons d rest =>
        cases hc
        exact ⟨rest, by simp⟩
  have hlonger : w.toList.length < x.1.toList.length := by simp [hxw]
  rw [hlist, List.mem_append, List.mem_cons] at hx
  rcases hx with hx | rfl | hx
  · have := hbefore x hx
    simp [List.isPrefixOf_iff_prefix.mpr hfits] at this
  · exact absurd hlonger (Nat.lt_irrefl _)
  · have hsorted := spellings_listed.2
    rw [hlist, List.pairwise_append, List.pairwise_cons] at hsorted
    have := hsorted.2.1.1 x hx
    simp only at this
    omega

/-- A spelling that is only the beginning of another one goes on. -/
theorem goesOn_of_append {v : String × Symbol} (hv : v ∈ spellings) {u rest rest' : List Char}
    (h : u ++ rest = v.1.toList ++ rest') (hlt : u.length < v.1.toList.length) :
    ∃ c ∈ rest.head?, goesOn u c = true := by
  obtain ⟨x, hx⟩ := List.prefix_of_prefix_length_le (List.prefix_append u rest)
    (h ▸ List.prefix_append _ _) (Nat.le_of_lt hlt)
  cases x with
  | nil =>
      rw [← hx] at hlt
      simp at hlt
  | cons c x =>
      refine ⟨c, ?_, goesOn_iff.mpr ⟨v, hv, x, by rw [← hx]; simp⟩⟩
      rw [← hx, List.append_assoc] at h
      rw [List.append_cancel_left h]
      rfl

/-- A symbol is read where it does not go on. -/
theorem symbol?_run {s : Symbol} {rest : List Char}
    (hr : ∀ c ∈ rest.head?, goesOn s.text.toList c = false) :
    symbol? (s.text.toList ++ rest) = some (s, s.text.toList.length) := by
  cases h : symbol? (s.text.toList ++ rest) with
  | none =>
      have := List.findSome?_eq_none_iff.mp h _ (text_mem_spellings s)
      simp [List.isPrefixOf_iff_prefix] at this
  | some found =>
      obtain ⟨s', n⟩ := found
      obtain ⟨w, rest', hw, rfl, heq, hclear⟩ := symbol?_spec h
      -- neither spelling is a beginning of the other
      rcases Nat.lt_trichotomy s.text.toList.length w.toList.length with hlt | hlen | hlt
      · obtain ⟨c, hc, hgoes⟩ := goesOn_of_append hw heq hlt
        rw [hr c hc] at hgoes
        cases hgoes
      · have htext := (List.append_inj heq hlen).1
        have hsame : s' = s := eq_of_spelling hw htext.symm
        rw [hsame, hlen]
      · obtain ⟨c, hc, hgoes⟩ := goesOn_of_append (text_mem_spellings s) heq.symm hlt
        rw [hclear c hc] at hgoes
        cases hgoes

theorem symbol?_ne_none {s : Symbol} {c : Char} (h : s.text.toList = [c]) : symbol? [c] ≠ none := by
  have hrun : symbol? (s.text.toList ++ []) = some (s, s.text.toList.length) :=
    symbol?_run (by simp)
  rw [List.append_nil, h] at hrun
  simp [hrun]

/-- Whether a symbol stands there is decided by the first character. -/
theorem symbol?_none {c : Char} {r : List Char} (h : symbol? (c :: r) = none) (r' : List Char) :
    symbol? (c :: r') = none := by
  cases h' : symbol? (c :: r') with
  | none => rfl
  | some found =>
      obtain ⟨s, n⟩ := found
      obtain ⟨w, rest, hw, _, heq, _⟩ := symbol?_spec h'
      have hfirst : [c] <+: w.toList := by
        obtain ⟨a, u, hu⟩ := List.exists_cons_of_ne_nil (listed hw).ne_nil
        rw [hu, List.cons_append, List.cons.injEq] at heq
        rw [hu, heq.1]
        exact ⟨u, rfl⟩
      obtain ⟨x, hx, hxc⟩ := exists_spelling hw hfirst (by simp)
      have := List.findSome?_eq_none_iff.mp h x hx
      simp [hxc] at this

end Scan

end StreamSql
