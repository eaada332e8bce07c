/-
  Reading a statement's tokens without its gaps. `Takes ts ls r` says that the next tokens of `ls`
  are `ts`, with gaps before each of them, and that `r` is what follows. Every reader of tokens takes
  one of them at a time, so what it read is said by such a list (`take?_eq_some` and its three
  special cases). Such tokens stand first in the list, and what follows begins right after the last
  of them (`takes_iff`).
-/
import Mathlib.Data.List.Basic
import Mathlib.Data.List.TakeWhile
import StreamSql.Script.Reading

namespace StreamSql

namespace Token

variable {ls m r : List Token} {t : Token} {ts us : List Token}

theorem isWord_inj {v w : String} (hv : t.isWord v = true) (hw : t.isWord w = true) :
    Text.lower v = Text.lower w := by
  unfold isWord at hv hw
  split at hv
  · rw [← Text.sameName_iff.mp hv, Text.sameName_iff.mp hw]
  · cases hv

theorem isGap_of_isWord {w : String} (h : t.isWord w = true) : t.isGap = false := by
  cases t with
  | gap g => cases h
  | _ => rfl

theorem take?_eq_some : take? ls = some (t, r) ↔
    ∃ gaps, ls = gaps ++ t :: r ∧ (∀ g ∈ gaps, g.isGap = true) ∧ t.isGap = false := by
  induction ls with
  | nil => simp [take?, significant]
  | cons a ls ih =>
      cases ha : a.isGap with
      | true =>
          have htake : take? (a :: ls) = take? ls := by simp [take?, significant, ha]
          rw [htake, ih]
          constructor
          · rintro ⟨gaps, rfl, hgaps, ht⟩
            exact ⟨a :: gaps, rfl, List.forall_mem_cons.mpr ⟨ha, hgaps⟩, ht⟩
          · rintro ⟨gaps, heq, hgaps, ht⟩
            cases gaps with
            | nil =>
                cases heq
                rw [ha] at ht
                cases ht
            | cons g gaps =>
                cases heq
                exact ⟨gaps, rfl, (List.forall_mem_cons.mp hgaps).2, ht⟩
      | false =>
          have htake : take? (a :: ls) = some (a, ls) := by simp [take?, significant, ha]
          rw [htake]
          constructor
          · intro heq
            cases heq
            exact ⟨[], rfl, by simp, ha⟩
          · rintro ⟨gaps, heq, hgaps, ht⟩
            cases gaps with
            | nil =>
                cases heq
                rfl
            | cons g gaps =>
                cases heq
                rw [(List.forall_mem_cons.mp hgaps).1] at ha
                cases ha

theorem takeKeyword?_eq_some {w : String} :
    takeKeyword? w ls = some r ↔ ∃ t, t.isWord w = true ∧ take? ls = some (t, r) := by
  unfold takeKeyword? take?
  cases significant ls with
  | nil => simp
  | cons l ls => by_cases hl : l.isWord w = true <;> simp [hl]

/-- A token that is one word is not another. -/
theorem takeKeyword?_eq_none {v w : String} (htake : take? ls = some (t, m))
    (ht : t.isWord v = true) (hne : Text.lower v ≠ Text.lower w) : takeKeyword? w ls = none := by
  rw [Option.eq_none_iff_forall_ne_some]
  intro r hr
  obtain ⟨u, hu, hr⟩ := takeKeyword?_eq_some.mp hr
  rw [htake] at hr
  cases hr
  exact hne (isWord_inj ht hu)

theorem takeSymbol?_eq_some {s : Symbol} :
    takeSymbol? s ls = some r ↔ take? ls = some (.symbol s, r) := by
  unfold takeSymbol? take?
  cases significant ls with
  | nil => simp
  | cons l ls => by_cases hl : l = .symbol s <;> simp [hl]

/-- A token that is one symbol is not another. -/
theorem takeSymbol?_eq_none {s s' : Symbol} (h : take? ls = some (.symbol s, r)) (hne : s ≠ s') :
    takeSymbol? s' ls = none := by
  rw [Option.eq_none_iff_forall_ne_some]
  intro m hm
  rw [takeSymbol?_eq_some, h] at hm
  cases hm
  exact hne rfl

theorem takeWord?_eq_some {v : String} :
    takeWord? ls = some (v, r) ↔ ∃ q, take? ls = some (.word v q, r) := by
  unfold takeWord? take?
  cases significant ls with
  | nil => simp
  | cons t ls => cases t <;> simp

theorem filter_gaps (h : ∀ g ∈ ls, g.isGap = true) : ls.filter (!·.isGap) = [] := by
  simpa [List.filter_eq_nil_iff] using h

/-- The token that is taken is the first one without the gaps. -/
theorem filter_of_take (h : take? ls = some (t, r)) :
    ls.filter (!·.isGap) = t :: r.filter (!·.isGap) := by
  obtain ⟨gaps, rfl, hgaps, ht⟩ := take?_eq_some.mp h
  simp [filter_gaps hgaps, ht]

/-- The next tokens of the list are these, with gaps before each of them; `r` is what follows. -/
def Takes : List Token → List Token → List Token → Prop
  | [], ls, r => ls = r
  | t :: ts, ls, r => ∃ m, take? ls = some (t, m) ∧ Takes ts m r

theorem takes_append : Takes (ts ++ us) ls r ↔ ∃ m, Takes ts ls m ∧ Takes us m r := by
  induction ts generalizing ls with
  | nil => simp [Takes]
  | cons t ts ih =>
      simp only [List.cons_append, Takes, ih]
      exact ⟨fun ⟨a, ha, b, hb, hr⟩ => ⟨b, ⟨a, ha, hb⟩, hr⟩,
        fun ⟨b, ⟨a, ha, hb⟩, hr⟩ => ⟨a, ha, b, hb, hr⟩⟩

/-- What was taken stands before the rest, and no gap after its last token. -/
theorem Takes.split (h : Takes ts ls r) : ∃ taken, ls = taken ++ r ∧
    taken.filter (!·.isGap) = ts ∧ taken.getLast? = ts.getLast? := by
  induction ts generalizing ls with
  | nil => exact ⟨[], h, rfl, rfl⟩
  | cons t ts ih =>
      obtain ⟨m, hm, hrest⟩ := h
      obtain ⟨gaps, rfl, hgaps, ht⟩ := take?_eq_some.mp hm
      obtain ⟨taken, rfl, hfilter, hlast⟩ := ih hrest
      refine ⟨gaps ++ t :: taken, by simp, by simp [filter_gaps hgaps, ht, hfilter], ?_⟩
      cases taken with
      | nil =>
          cases hfilter
          simp
      | cons a taken =>
          have hne : ts ≠ [] := by
            rintro rfl
            simp at hlast
          obtain ⟨u, us, rfl⟩ := List.exists_cons_of_ne_nil hne
          rw [List.getLast?_append_of_ne_nil _ (by simp), List.getLast?_cons_cons,
            List.getLast?_cons_cons, hlast]

theorem Takes.filter (h : Takes ts ls r) : ls.filter (!·.isGap) = ts ++ r.filter (!·.isGap) := by
  obtain ⟨taken, rfl, hfilter, _⟩ := h.split
  rw [List.filter_append, hfilter]

theorem Takes.rest_unique {r' : List Token} (h : Takes ts ls r) (h' : Takes ts ls r') : r = r' := by
  induction ts generalizing ls with
  | nil => exact h.symm.trans h'
  | cons t ts ih =>
      obtain ⟨m, hm, hrest⟩ := h
      obtain ⟨m', hm', hrest'⟩ := h'
      rw [hm] at hm'
      cases hm'
      exact ih hrest hrest'

/-- Gaps before other tokens make no difference. -/
theorem take?_append_of_gaps (h : ∀ g ∈ ls, g.isGap = true) : take? (ls ++ r) = take? r := by
  simp [take?, significant, List.dropWhile_append_of_pos h]

theorem take?_append (h : take? ls = some (t, m)) : take? (ls ++ r) = some (t, m ++ r) := by
  obtain ⟨gaps, rfl, hgaps, ht⟩ := take?_eq_some.mp h
  exact take?_eq_some.mpr ⟨gaps, by simp, hgaps, ht⟩

theorem take?_eq_none : take? ls = none ↔ ∀ g ∈ ls, g.isGap = true := by
  unfold take? significant
  rw [← List.dropWhile_eq_nil_iff]
  cases ls.dropWhile isGap <;> simp

theorem Takes.length_le (h : Takes ts ls r) : ts.length + r.length ≤ ls.length := by
  obtain ⟨taken, rfl, rfl, _⟩ := h.split
  have hle := List.length_filter_le (!·.isGap) taken
  rw [List.length_append]
  omega

/-- The tokens up to one that is no gap are taken, whatever follows. -/
theorem takes_front (xs : List Token) (ht : t.isGap = false) (r : List Token) :
    Takes ((xs ++ [t]).filter (!·.isGap)) (xs ++ t :: r) r := by
  induction xs with
  | nil =>
      have hfilter : ([] ++ [t]).filter (!·.isGap) = [t] := by simp [ht]
      rw [hfilter]
      exact ⟨r, take?_eq_some.mpr ⟨[], rfl, by simp, ht⟩, rfl⟩
  | cons x xs ih =>
      rw [List.cons_append]
      cases hx : x.isGap with
      | false =>
          rw [List.filter_cons_of_pos (by simp [hx])]
          exact ⟨xs ++ t :: r, take?_eq_some.mpr ⟨[], rfl, by simp, hx⟩, ih⟩
      | true =>
          rw [List.filter_cons_of_neg (by simp [hx])]
          obtain ⟨u, us, heq⟩ := List.exists_cons_of_ne_nil
            (l := (xs ++ [t]).filter (!·.isGap)) (by simp [ht])
          rw [heq] at ih ⊢
          obtain ⟨m, hm, htakes⟩ := ih
          obtain ⟨gaps, hxs, hgaps, hu⟩ := take?_eq_some.mp hm
          refine ⟨m, take?_eq_some.mpr ⟨x :: gaps, by simp [hxs], ?_, hu⟩, htakes⟩
          exact List.forall_mem_cons.mpr ⟨hx, hgaps⟩

/-- Tokens are taken exactly if they stand first, gaps left out, and the rest begins right after the
    last of them. -/
theorem takes_iff (hts : ts ≠ []) : Takes ts ls r ↔ ∃ front last, ls = front ++ last :: r ∧
    last.isGap = false ∧ (front ++ [last]).filter (!·.isGap) = ts := by
  constructor
  · intro h
    obtain ⟨taken, rfl, hfilter, hend⟩ := h.split
    rw [List.getLast?_eq_some_getLast hts] at hend
    obtain ⟨front, rfl⟩ := List.getLast?_eq_some_iff.mp hend
    refine ⟨front, ts.getLast hts, by simp, ?_, hfilter⟩
    have hmem : ts.getLast hts ∈ (front ++ [ts.getLast hts]).filter (!·.isGap) :=
      hfilter.symm ▸ List.getLast_mem hts
    simpa using (List.mem_filter.mp hmem).2
  · rintro ⟨front, last, rfl, hlast, rfl⟩
    exact takes_front front hlast r

end Token

end StreamSql
