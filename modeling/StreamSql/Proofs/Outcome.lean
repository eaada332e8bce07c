/-
  Successful runs taken apart. A computation that may fail and did not is a chain of steps that all
  succeeded; each statement here says which. They are stated as equivalences, so that they also put
  a run together from its steps.
-/
import Mathlib.Data.List.Forall2
import Mathlib.Data.Option.Basic

namespace StreamSql.Outcome

variable {ε α β : Type}

@[simp]
theorem pure_eq_ok {a b : α} : (pure a : Except ε α) = .ok b ↔ a = b := by
  simp [pure, Except.pure]

@[simp]
theorem throw_ne_ok {e : ε} {b : α} : ¬ (throw e : Except ε α) = .ok b := by
  intro h
  cases h

@[simp]
theorem bind_eq_ok {x : Except ε α} {f : α → Except ε β} {b : β} :
    (x >>= f) = .ok b ↔ ∃ a, x = .ok a ∧ f a = .ok b := by
  cases x with
  | error e => simp [bind, Except.bind]
  | ok a => simp [bind, Except.bind]

/-- What a check returns is known. -/
@[simp]
theorem exists_unit {q : Unit → Prop} : (∃ u, q u) ↔ q () :=
  Unique.exists_iff

@[simp]
theorem discard_eq_ok {x : Except ε α} {u : Unit} : discard x = .ok u ↔ ∃ a, x = .ok a := by
  cases x <;> simp [discard, Functor.discard, Functor.mapConst, Except.map]

@[simp]
theorem map_eq_ok {x : Except ε α} {f : α → β} {b : β} :
    (f <$> x) = .ok b ↔ ∃ a, x = .ok a ∧ f a = b := by
  cases x with
  | error e => simp [Functor.map, Except.map]
  | ok a => simp [Functor.map, Except.map]

/-- A list of steps succeeds when each step does, and gives their results in order. -/
theorem mapM_eq_ok {f : α → Except ε β} {as : List α} {bs : List β} :
    as.mapM f = .ok bs ↔ List.Forall₂ (fun a b => f a = .ok b) as bs := by
  induction as generalizing bs with
  | nil =>
      rw [List.mapM_nil, pure_eq_ok, List.forall₂_nil_left_iff]
      exact eq_comm
  | cons a as ih =>
      rw [List.mapM_cons, bind_eq_ok, List.forall₂_cons_left_iff]
      constructor
      · rintro ⟨b, hb, h⟩
        obtain ⟨bs', hbs, h⟩ := bind_eq_ok.mp h
        exact ⟨b, bs', hb, ih.mp hbs, (pure_eq_ok.mp h).symm⟩
      · rintro ⟨b, bs', hb, hbs, rfl⟩
        exact ⟨b, hb, bind_eq_ok.mpr ⟨bs', ih.mpr hbs, pure_eq_ok.mpr rfl⟩⟩

theorem exists_right {R : α → β → Prop} {as : List α} {bs : List β} (h : List.Forall₂ R as bs)
    {a : α} (ha : a ∈ as) : ∃ b ∈ bs, R a b := by
  induction h with
  | nil => cases ha
  | @cons x y _ _ hxy _ ih =>
      rcases List.mem_cons.mp ha with rfl | ha
      · exact ⟨y, List.mem_cons_self, hxy⟩
      · obtain ⟨b, hb, hab⟩ := ih ha
        exact ⟨b, List.mem_cons_of_mem y hb, hab⟩

theorem exists_left {R : α → β → Prop} {as : List α} {bs : List β} (h : List.Forall₂ R as bs)
    {b : β} (hb : b ∈ bs) : ∃ a ∈ as, R a b :=
  exists_right h.flip hb

/-- Two lists of steps, one after the other. -/
theorem forall₂_comp {γ : Type} {R : α → β → Prop} {S : β → γ → Prop} {T : α → γ → Prop}
    {as : List α} {bs : List β} {cs : List γ} (hR : List.Forall₂ R as bs) (hS : List.Forall₂ S bs cs)
    (h : ∀ a ∈ as, ∀ b c, R a b → S b c → T a c) : List.Forall₂ T as cs := by
  induction hR generalizing cs with
  | nil =>
      cases hS
      exact .nil
  | cons hab _ ih =>
      cases hS with
      | cons hbc hS =>
          rw [List.forall_mem_cons] at h
          exact .cons (h.1 _ _ hab hbc) (ih hS h.2)

theorem exists_forall₂ {R : α → β → Prop} {as : List α} (h : ∀ a ∈ as, ∃ b, R a b) :
    ∃ bs, List.Forall₂ R as bs := by
  induction as with
  | nil => exact ⟨[], .nil⟩
  | cons a as ih =>
      rw [List.forall_mem_cons] at h
      obtain ⟨b, hb⟩ := h.1
      obtain ⟨bs, hbs⟩ := ih h.2
      exact ⟨b :: bs, .cons hb hbs⟩

/-- Two lists over one list, put together element by element. -/
theorem forall₂_lift {γ δ : Type} {R : α → β → Prop} {S : α → γ → Prop} {T : β → δ → Prop}
    {U : δ → γ → Prop} {as : List α} {bs : List β} {cs : List γ} (hR : List.Forall₂ R as bs)
    (hS : List.Forall₂ S as cs)
    (h : ∀ a b c, a ∈ as → b ∈ bs → R a b → S a c → ∃ d, T b d ∧ U d c) :
    ∃ ds, List.Forall₂ T bs ds ∧ List.Forall₂ U ds cs := by
  induction hR generalizing cs with
  | nil =>
      cases hS
      exact ⟨[], .nil, .nil⟩
  | @cons a b _ _ hab _ ih =>
      cases hS with
      | @cons _ c _ _ hac hS =>
          obtain ⟨d, hd, hdc⟩ := h a b c List.mem_cons_self List.mem_cons_self hab hac
          obtain ⟨ds, hds, hdcs⟩ := ih hS fun a b c ha hb =>
            h a b c (List.mem_cons_of_mem _ ha) (List.mem_cons_of_mem _ hb)
          exact ⟨d :: ds, .cons hd hds, .cons hdc hdcs⟩

/-- Lists that are related element by element, in one way or in another that is the same there. -/
theorem forall₂_iff {R S : α → β → Prop} {as : List α} {bs : List β}
    (h : ∀ a ∈ as, ∀ b, R a b ↔ S a b) : List.Forall₂ R as bs ↔ List.Forall₂ S as bs := by
  induction as generalizing bs with
  | nil => simp
  | cons a as ih =>
      rw [List.forall_mem_cons] at h
      simp only [List.forall₂_cons_left_iff, h.1, ih h.2]

/-- Lists that become equal are equal place by place. -/
theorem map_eq_map_iff {γ : Type} {f : α → γ} {g : β → γ} {as : List α} {bs : List β} :
    as.map f = bs.map g ↔ List.Forall₂ (fun a b => f a = g b) as bs := by
  rw [← List.forall₂_eq_eq_eq, List.forall₂_map_left_iff, List.forall₂_map_right_iff]

theorem option_map_eq_map_iff {γ : Type} {f : α → γ} {g : β → γ} {o : Option α} {p : Option β} :
    o.map f = p.map g ↔ Option.Rel (fun a b => f a = g b) o p := by
  cases o <;> cases p <;> simp

theorem forall₂_toList {R : α → β → Prop} {o : Option α} {p : Option β} (h : Option.Rel R o p) :
    List.Forall₂ R o.toList p.toList := by
  cases h with
  | none => exact .nil
  | some h => exact .cons h .nil

/-- A test that stops the computation. -/
theorem guard_eq_ok {ε β γ : Type} {c : Prop} [Decidable c] {e : ε} {f : β → Except ε γ}
    {x : Except ε γ} {r : γ} :
    (if c then throw e >>= f else x) = .ok r ↔ ¬c ∧ x = .ok r := by
  by_cases hc : c
  · simp [hc]
  · simp [hc]

/-- A step on a part that may be missing. -/
theorem option_mapM_eq_ok {f : α → Except ε β} {o : Option α} {p : Option β} :
    o.mapM f = .ok p ↔ Option.Rel (fun a b => f a = .ok b) o p := by
  cases o with
  | none =>
      constructor
      · intro h
        cases h
        exact .none
      · intro h
        cases h
        rfl
  | some a =>
      have hmap : (some a).mapM f = some <$> f a := rfl
      rw [hmap, map_eq_ok]
      constructor
      · rintro ⟨b, hb, rfl⟩
        exact .some hb
      · intro h
        cases h with
        | some hb => exact ⟨_, hb, rfl⟩

theorem rel_iff {R S : α → β → Prop} {o : Option α} {p : Option β}
    (h : ∀ a ∈ o.toList, ∀ b, R a b ↔ S a b) : Option.Rel R o p ↔ Option.Rel S o p := by
  cases o with
  | none => cases p <;> simp
  | some a => cases p <;> simp [h a (by simp)]

/-- A step on a part that may be missing neither adds the part nor drops it. -/
theorem ne_none_of_rel {R : α → β → Prop} {o : Option α} {p : Option β} (h : Option.Rel R o p) :
    o ≠ none ↔ p ≠ none := by
  cases h with
  | none => simp
  | some => simp

/-- A list of checks passes when each check does. -/
theorem forM_eq_ok {f : α → Except ε Unit} {as : List α} {u : Unit} :
    as.forM f = .ok u ↔ ∀ a ∈ as, f a = .ok () := by
  cases u
  induction as with
  | nil => simp
  | cons a as ih =>
      rw [List.forM_eq_forM, List.forM_cons, bind_eq_ok, ← List.forM_eq_forM]
      simp only [List.mem_cons, forall_eq_or_imp, ← ih]
      exact ⟨fun ⟨(), h, h'⟩ => ⟨h, h'⟩, fun ⟨h, h'⟩ => ⟨(), h, h'⟩⟩

/-- Each step of a loop that ended succeeded in its turn. -/
theorem exists_ok_of_foldlM {f : β → α → Except ε β} {as : List α} {b b' : β}
    (h : as.foldlM f b = .ok b') {a : α} (ha : a ∈ as) : ∃ c c', f c a = .ok c' := by
  induction as generalizing b with
  | nil => cases ha
  | cons x as ih =>
      rw [List.foldlM_cons, bind_eq_ok] at h
      obtain ⟨c, hc, h⟩ := h
      rcases List.mem_cons.mp ha with rfl | ha
      · exact ⟨b, c, hc⟩
      · exact ih h ha

/-! ## Failed runs -/

/-- A run that failed did so at its first step, or after it. -/
theorem bind_eq_error {x : Except ε α} {f : α → Except ε β} {e : ε} :
    (x >>= f) = .error e ↔ x = .error e ∨ ∃ a, x = .ok a ∧ f a = .error e := by
  cases x with
  | error e' => simp [bind, Except.bind]
  | ok a => simp [bind, Except.bind]

theorem map_eq_error {x : Except ε α} {f : α → β} {e : ε} :
    (f <$> x) = .error e ↔ x = .error e := by
  cases x <;> simp [Functor.map, Except.map]

theorem mapError_eq_ok {δ : Type} {x : Except ε α} {f : ε → δ} {a : α} :
    x.mapError f = .ok a ↔ x = .ok a := by
  cases x <;> simp [Except.mapError]

theorem exists_error_of_foldlM {f : β → α → Except ε β} {as : List α} {b : β} {e : ε}
    (h : as.foldlM f b = .error e) : ∃ a ∈ as, ∃ b', f b' a = .error e := by
  induction as generalizing b with
  | nil => cases h
  | cons a as ih =>
      rw [List.foldlM_cons, bind_eq_error] at h
      rcases h with h | ⟨b', _, h⟩
      · exact ⟨a, List.mem_cons_self, b, h⟩
      · obtain ⟨a', ha', h⟩ := ih h
        exact ⟨a', List.mem_cons_of_mem a ha', h⟩

/-- The step fails at `a` with the error, and at nothing before it. -/
def FirstError (f : α → Except ε β) (as : List α) (a : α) (e : ε) : Prop :=
  ∃ before after, as = before ++ a :: after ∧ (∀ b ∈ before, ∃ r, f b = .ok r) ∧ f a = .error e

theorem FirstError.error {f : α → Except ε β} {a : α} {as : List α} {e : ε}
    (h : FirstError f as a e) : f a = .error e := by
  obtain ⟨_, _, _, _, he⟩ := h
  exact he

theorem firstError_cons {f : α → Except ε β} {a b : α} {as : List α} {e : ε} :
    FirstError f (a :: as) b e ↔
      a = b ∧ f a = .error e ∨ (∃ r, f a = .ok r) ∧ FirstError f as b e := by
  constructor
  · rintro ⟨before, after, has, hbefore, he⟩
    cases before with
    | nil =>
        cases has
        exact .inl ⟨rfl, he⟩
    | cons c before =>
        cases has
        rw [List.forall_mem_cons] at hbefore
        exact .inr ⟨hbefore.1, before, after, rfl, hbefore.2, he⟩
  · rintro (⟨rfl, he⟩ | ⟨hok, before, after, rfl, hbefore, he⟩)
    · exact ⟨[], as, rfl, by simp, he⟩
    · exact ⟨a :: before, after, rfl, List.forall_mem_cons.mpr ⟨hok, hbefore⟩, he⟩

/-- A list of steps fails as the first of them that does. -/
theorem mapM_eq_error {f : α → Except ε β} {as : List α} {e : ε} :
    as.mapM f = .error e ↔ ∃ a, FirstError f as a e := by
  induction as with
  | nil => simp [FirstError, pure, Except.pure]
  | cons a as ih =>
      simp only [firstError_cons, List.mapM_cons, bind_eq_error]
      constructor
      · rintro (h | ⟨r, hr, h | ⟨_, _, h⟩⟩)
        · exact ⟨a, .inl ⟨rfl, h⟩⟩
        · obtain ⟨b, hb⟩ := ih.mp h
          exact ⟨b, .inr ⟨⟨r, hr⟩, hb⟩⟩
        · cases h
      · rintro ⟨b, ⟨_, h⟩ | ⟨⟨r, hr⟩, hb⟩⟩
        · exact .inl h
        · exact .inr ⟨r, hr, .inl (ih.mpr ⟨b, hb⟩)⟩

theorem exists_error_of_mapM {f : α → Except ε β} {as : List α} {e : ε}
    (h : as.mapM f = .error e) : ∃ a ∈ as, f a = .error e := by
  obtain ⟨a, before, after, rfl, _, he⟩ := mapM_eq_error.mp h
  exact ⟨a, by simp, he⟩

/-- Two lists of steps that fail at the same places, with errors that belong together. -/
theorem mapM_eq_error_iff {γ δ ζ : Type} {R : α → γ → Prop} {f : α → Except ε β}
    {g : γ → Except δ ζ} {w : α → ε → δ} {as : List α} {cs : List γ} {d : δ}
    (h : List.Forall₂ R as cs)
    (hR : ∀ a c, R a c → ∀ d, g c = .error d ↔ ∃ e, f a = .error e ∧ d = w a e) :
    cs.mapM g = .error d ↔ ∃ a e, FirstError f as a e ∧ d = w a e := by
  rw [mapM_eq_error]
  induction h with
  | nil => simp [FirstError]
  | @cons a c as cs hac _ ih =>
      simp only [firstError_cons]
      cases hg : g c with
      | error d' =>
          obtain ⟨e, he, rfl⟩ := (hR a c hac d').mp hg
          simp [he, eq_comm]
      | ok z =>
          cases hf : f a with
          | error e =>
              have := (hR a c hac _).mpr ⟨e, hf, rfl⟩
              rw [hg] at this
              cases this
          | ok b => simpa using ih

section

variable {P : ε → Prop}

/-- Whatever error the run ends with has the property. -/
def Fails (P : ε → Prop) (x : Except ε α) : Prop :=
  ∀ e, x = .error e → P e

namespace Fails

theorem ok {a : α} : Fails P (.ok a : Except ε α) := by
  intro e h
  cases h

theorem error {e : ε} (h : P e) : Fails P (.error e : Except ε α) := by
  intro e' heq
  cases heq
  exact h

theorem seq {x : Except ε α} {f : α → Except ε β} (hx : Fails P x)
    (hf : ∀ a, x = .ok a → Fails P (f a)) : Fails P (x >>= f) := by
  intro e h
  rcases bind_eq_error.mp h with h | ⟨a, ha, h⟩
  · exact hx e h
  · exact hf a ha e h

theorem bind {x : Except ε α} {f : α → Except ε β} (hx : Fails P x) (hf : ∀ a, Fails P (f a)) :
    Fails P (x >>= f) :=
  hx.seq fun a _ => hf a

theorem ite {c : Prop} [Decidable c] {x y : Except ε α} (hx : Fails P x) (hy : Fails P y) :
    Fails P (if c then x else y) := by
  split
  · exact hx
  · exact hy

theorem discard {x : Except ε α} (h : Fails P x) : Fails P (discard x) := by
  cases x with
  | ok a => exact ok
  | error e => exact error (h e rfl)

theorem mapM {f : α → Except ε β} {as : List α} (h : ∀ a ∈ as, Fails P (f a)) :
    Fails P (as.mapM f) := by
  intro e he
  obtain ⟨a, ha, hfa⟩ := exists_error_of_mapM he
  exact h a ha e hfa

theorem foldlM {f : β → α → Except ε β} {as : List α} {b : β}
    (h : ∀ a ∈ as, ∀ b, Fails P (f b a)) : Fails P (as.foldlM f b) := by
  intro e he
  obtain ⟨a, ha, b', hfa⟩ := exists_error_of_foldlM he
  exact h a ha b' e hfa

theorem forM {f : α → Except ε Unit} {as : List α} (h : ∀ a ∈ as, Fails P (f a)) :
    Fails P (as.forM f) := by
  induction as with
  | nil => exact ok
  | cons a as ih =>
      rw [List.forall_mem_cons] at h
      rw [List.forM_eq_forM, List.forM_cons, ← List.forM_eq_forM]
      exact h.1.bind fun _ => ih h.2

theorem option_mapM {f : α → Except ε β} {o : Option α} (h : ∀ a ∈ o.toList, Fails P (f a)) :
    Fails P (o.mapM f) := by
  cases o with
  | none => exact ok
  | some a =>
      have hmap : (some a).mapM f = f a >>= fun b => .ok (some b) := by
        show some <$> f a = _
        cases f a <;> rfl
      rw [hmap]
      exact (h a (by simp)).bind fun _ => ok

end Fails

end

/-! ## Two runs -/

section

variable {α' β' : Type} {E : ε → ε → Prop} {R : α → α' → Prop} {S : β → β' → Prop}

/-- Two runs end alike: both with results that `R` relates, or both with errors that `E` relates. -/
inductive Alike (E : ε → ε → Prop) (R : α → α' → Prop) : Except ε α → Except ε α' → Prop
  | ok {a a'} (h : R a a') : Alike E R (.ok a) (.ok a')
  | error {e e'} (h : E e e') : Alike E R (.error e) (.error e')

namespace Alike

theorem self (hE : ∀ e, E e e) (x : Except ε α) : Alike E Eq x x := by
  cases x with
  | error e => exact .error (hE e)
  | ok a => exact .ok rfl

theorem imp {R' : α → α' → Prop} {x : Except ε α} {x' : Except ε α'} (h : Alike E R x x')
    (hR : ∀ a a', x = .ok a → x' = .ok a' → R a a' → R' a a') : Alike E R' x x' := by
  cases h with
  | ok h => exact .ok (hR _ _ rfl rfl h)
  | error h => exact .error h

theorem bind {x : Except ε α} {x' : Except ε α'} {f : α → Except ε β} {f' : α' → Except ε β'}
    (h : Alike E R x x') (hf : ∀ a a', R a a' → Alike E S (f a) (f' a')) :
    Alike E S (x >>= f) (x' >>= f') := by
  cases h with
  | ok h => exact hf _ _ h
  | error h => exact .error h

theorem map {x : Except ε α} {x' : Except ε α'} {f : α → β} {f' : α' → β'} (h : Alike E R x x')
    (hf : ∀ a a', R a a' → S (f a) (f' a')) : Alike E S (f <$> x) (f' <$> x') := by
  cases h with
  | ok h => exact .ok (hf _ _ h)
  | error h => exact .error h

theorem of_map_right {x : Except ε α} {x' : Except ε β} {f : β → α'} (h : Alike E R x (f <$> x')) :
    Alike E (fun a b => R a (f b)) x x' := by
  cases x' with
  | error e =>
      cases h with
      | error h => exact .error h
  | ok b =>
      cases h with
      | ok h => exact .ok h

theorem mapM {f : α → Except ε β} {f' : α' → Except ε β'} {as : List α} {as' : List α'}
    (h : List.Forall₂ R as as') (hf : ∀ a a', R a a' → Alike E S (f a) (f' a')) :
    Alike E (List.Forall₂ S) (as.mapM f) (as'.mapM f') := by
  induction h with
  | nil => exact .ok .nil
  | cons ha _ ih =>
      rw [List.mapM_cons, List.mapM_cons]
      exact (hf _ _ ha).bind fun _ _ hb => ih.bind fun _ _ hbs => .ok (.cons hb hbs)

theorem foldlM {f : β → α → Except ε β} {f' : β' → α' → Except ε β'} {as : List α} {as' : List α'}
    (h : List.Forall₂ R as as')
    (hf : ∀ b b' a a', S b b' → R a a' → Alike E S (f b a) (f' b' a')) {b : β} {b' : β'}
    (hb : S b b') : Alike E S (as.foldlM f b) (as'.foldlM f' b') := by
  induction h generalizing b b' with
  | nil => exact .ok hb
  | cons ha _ ih => exact (hf _ _ _ _ hb ha).bind fun _ _ => ih

theorem option_mapM {f : α → Except ε β} {f' : α' → Except ε β'} {o : Option α} {o' : Option α'}
    (h : Option.Rel R o o') (hf : ∀ a a', R a a' → Alike E S (f a) (f' a')) :
    Alike E (Option.Rel S) (o.mapM f) (o'.mapM f') := by
  cases h with
  | none => exact .ok .none
  | some ha => exact (hf _ _ ha).map fun _ _ => .some

/-- Where the first run has a result, the second has one. -/
theorem exists_ok {x : Except ε α} {x' : Except ε α'} (h : Alike E R x x') {a : α}
    (ha : x = .ok a) : ∃ a', x' = .ok a' ∧ R a a' := by
  subst ha
  cases h with
  | ok h => exact ⟨_, rfl, h⟩

end Alike

end

/-! ## Computations with a state -/

section

variable {σ : Type} {P : β → Prop}

theorem stateBind_eq_ok {p : StateT σ (Except ε) α} {f : α → StateT σ (Except ε) β} {s s' : σ}
    {b : β} : (p >>= f) s = .ok (b, s') ↔ ∃ a s₁, p s = .ok (a, s₁) ∧ f a s₁ = .ok (b, s') := by
  simp only [bind, StateT.bind]
  exact bind_eq_ok.trans ⟨fun ⟨⟨a, s₁⟩, h⟩ => ⟨a, s₁, h⟩, fun ⟨a, s₁, h⟩ => ⟨(a, s₁), h⟩⟩

/-- Whatever the computation gives has the property, from whichever state it starts. -/
def Yields (P : β → Prop) (p : StateT σ (Except ε) β) : Prop :=
  ∀ s b s', p s = .ok (b, s') → P b

namespace Yields

theorem pure {b : β} (h : P b) : Yields P (pure b : StateT σ (Except ε) β) := by
  rintro s b' s' heq
  cases heq
  exact h

theorem throw {e : ε} : Yields P (throw e : StateT σ (Except ε) β) := by
  intro s b s' heq
  cases heq

theorem lift {x : Except ε β} (h : ∀ b, x = .ok b → P b) :
    Yields P (liftM x : StateT σ (Except ε) β) := by
  intro s b s' heq
  cases x with
  | error e => cases heq
  | ok b =>
      cases heq
      exact h _ rfl

theorem seq {Q : α → Prop} {p : StateT σ (Except ε) α} {f : α → StateT σ (Except ε) β}
    (hp : Yields Q p) (hf : ∀ a, Q a → Yields P (f a)) : Yields P (p >>= f) := by
  intro s b s' heq
  obtain ⟨a, s₁, ha, hb⟩ := stateBind_eq_ok.mp heq
  exact hf a (hp s a s₁ ha) s₁ b s' hb

theorem fails {e : ε} {f : α → StateT σ (Except ε) β} :
    Yields P (MonadExcept.throw e >>= f : StateT σ (Except ε) β) :=
  .seq (Q := fun _ => False) .throw fun _ h => h.elim

theorem bind {p : StateT σ (Except ε) α} {f : α → StateT σ (Except ε) β}
    (h : ∀ a, Yields P (f a)) : Yields P (p >>= f) :=
  .seq (fun _ _ _ _ => trivial) fun a _ => h a

theorem map {f : α → β} {p : StateT σ (Except ε) α} (h : Yields (fun a => P (f a)) p) :
    Yields P (f <$> p) := by
  rw [map_eq_pure_bind]
  exact .seq h fun _ ha => .pure ha

theorem ite {c : Prop} [Decidable c] {p q : StateT σ (Except ε) β} (hp : Yields P p)
    (hq : Yields P q) : Yields P (if c then p else q) := by
  split
  · exact hp
  · exact hq

/-- A test that stops the computation. -/
theorem guard {c : Prop} [Decidable c] {e : ε} {f : α → StateT σ (Except ε) β}
    {p : StateT σ (Except ε) β} (h : ¬c → Yields P p) :
    Yields P (if c then MonadExcept.throw e >>= f else p) := by
  split
  · exact .fails
  · exact h ‹_›

end Yields

/-- The two computations have the same results, whatever they fail with. -/
def Agrees (p p' : StateT σ (Except ε) β) : Prop :=
  ∀ s r, p s = .ok r ↔ p' s = .ok r

theorem Agrees.refl (p : StateT σ (Except ε) β) : Agrees p p :=
  fun _ _ => Iff.rfl

theorem agrees_of_eq {p p' : StateT σ (Except ε) β} (h : p = p') : Agrees p p' := by
  rw [h]
  exact .refl _

theorem Agrees.bind {p p' : StateT σ (Except ε) α} {f f' : α → StateT σ (Except ε) β}
    (hp : Agrees p p') (hf : ∀ a, Agrees (f a) (f' a)) : Agrees (p >>= f) (p' >>= f') := by
  intro s r
  obtain ⟨b, s'⟩ := r
  simp only [stateBind_eq_ok]
  exact exists_congr fun a => exists_congr fun s₁ => and_congr (hp s (a, s₁)) (hf a s₁ (b, s'))

theorem Agrees.map {f : α → β} {p p' : StateT σ (Except ε) α} (h : Agrees p p') :
    Agrees (f <$> p) (f <$> p') := by
  rw [map_eq_pure_bind, map_eq_pure_bind]
  exact .bind h fun _ => .refl _

/-- A test that stops the computation. -/
theorem Agrees.guard {c : Prop} [Decidable c] {e : ε} {f f' : α → StateT σ (Except ε) β}
    {p p' : StateT σ (Except ε) β} (h : Agrees p p') :
    Agrees (if c then throw e >>= f else p) (if c then throw e >>= f' else p') := by
  split
  · intro s r
    constructor
    · intro heq
      cases heq
    · intro heq
      cases heq
  · exact h

/-- Outcomes that are the same but for their errors, as computations. -/
theorem agrees_lift {x x' : Except ε β} (h : ∀ b, x = .ok b ↔ x' = .ok b) :
    Agrees (liftM x : StateT σ (Except ε) β) (liftM x') := by
  intro s r
  cases x with
  | ok b => rw [(h b).mp rfl]
  | error e =>
      cases x' with
      | ok b => cases (h b).mpr rfl
      | error e' =>
          constructor
          · intro heq
            cases heq
          · intro heq
            cases heq

end

section

variable {σ : Type} {P : ε → Prop}

/-- Whatever error the computation ends with has the property, from whichever state it starts. -/
def FailsAt (P : ε → Prop) (p : StateT σ (Except ε) α) : Prop :=
  ∀ s, Fails P (p s)

namespace FailsAt

theorem pure {a : α} : FailsAt P (pure a : StateT σ (Except ε) α) :=
  fun _ => .ok

theorem throw {e : ε} (h : P e) : FailsAt P (throw e : StateT σ (Except ε) α) :=
  fun _ => .error h

theorem lift {x : Except ε α} (h : Fails P x) : FailsAt P (liftM x : StateT σ (Except ε) α) :=
  fun _ => h.bind fun _ => .ok

theorem bind {p : StateT σ (Except ε) α} {f : α → StateT σ (Except ε) β} (hp : FailsAt P p)
    (hf : ∀ a, FailsAt P (f a)) : FailsAt P (p >>= f) :=
  fun s => (hp s).bind fun r => hf r.1 r.2

theorem ite {c : Prop} [Decidable c] {p q : StateT σ (Except ε) α} (hp : FailsAt P p)
    (hq : FailsAt P q) : FailsAt P (if c then p else q) := by
  split
  · exact hp
  · exact hq

/-- A test that stops the computation. -/
theorem guard {c : Prop} [Decidable c] {e : ε} {f : α → StateT σ (Except ε) β}
    {p : StateT σ (Except ε) β} (h : P e) (hp : FailsAt P p) :
    FailsAt P (if c then MonadExcept.throw e >>= f else p) :=
  .ite (fun _ => .error h) hp

end FailsAt

end

end StreamSql.Outcome
