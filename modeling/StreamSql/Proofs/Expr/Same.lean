/-
  Equality without positions. `unplaced` takes the positions out of an expression; two expressions
  are the same exactly if they are equal without them (`same_iff`). So `same` is an equivalence, and
  what does not read positions, such as the canonical text, does not tell same expressions apart.
-/
import StreamSql.Expr.Text
import StreamSql.Proofs.Expr.Parts

namespace StreamSql.Expr

/-! ## Taking positions out -/

mutual

/-- The expression without positions. -/
def unplaced : Expr → Expr
  | literal _ v => literal none v
  | column _ c => column none c
  | wildcard _ => wildcard none
  | call _ n as d => call none n (unplacedList as) d
  | unary _ op e => unary none op (unplaced e)
  | arith _ a op b => arith none (unplaced a) op (unplaced b)
  | compare _ a op b => compare none (unplaced a) op (unplaced b)
  | logic _ a op b => logic none (unplaced a) op (unplaced b)
  | nullIf _ a b => nullIf none (unplaced a) (unplaced b)
  | case _ o bs e => case none (unplacedOption o) (unplacedBranches bs) (unplacedOption e)
  | cast _ e t => cast none (unplaced e) t
  | isNull _ e n => isNull none (unplaced e) n
  | between _ e lo hi n => between none (unplaced e) (unplaced lo) (unplaced hi) n
  | like _ e p n => like none (unplaced e) (unplaced p) n
  | inList _ e es n => inList none (unplaced e) (unplacedList es) n

def unplacedList : List Expr → List Expr
  | [] => []
  | e :: es => unplaced e :: unplacedList es

def unplacedBranches : List (Expr × Expr) → List (Expr × Expr)
  | [] => []
  | (w, t) :: bs => (unplaced w, unplaced t) :: unplacedBranches bs

def unplacedOption : Option Expr → Option Expr
  | none => none
  | some e => some (unplaced e)

end

theorem unplacedList_eq_map (es : List Expr) : unplacedList es = es.map unplaced := by
  induction es with
  | nil => rfl
  | cons e es ih => exact congrArg (e.unplaced :: ·) ih

theorem unplacedBranches_eq_map (bs : List (Expr × Expr)) :
    unplacedBranches bs = bs.map fun b => (b.1.unplaced, b.2.unplaced) := by
  induction bs with
  | nil => rfl
  | cons b bs ih => exact congrArg ((b.1.unplaced, b.2.unplaced) :: ·) ih

theorem unplacedOption_eq_map (o : Option Expr) : unplacedOption o = o.map unplaced := by
  cases o <;> rfl

/-- Positions are taken out of a node by taking them out of its parts and dropping its own. -/
theorem unplaced_eq (e : Expr) : e.unplaced = (e.onParts unplaced).withLoc none := by
  cases e with
  | case l o bs e =>
      rw [onParts_case, ← unplacedOption_eq_map, ← unplacedBranches_eq_map, ← unplacedOption_eq_map]
      rfl
  | call l n as d =>
      rw [onParts_call, ← unplacedList_eq_map]
      rfl
  | inList l e es n =>
      rw [onParts_inList, ← unplacedList_eq_map]
      rfl
  | _ => rfl

theorem isWildcard_unplaced (e : Expr) : e.unplaced.isWildcard = e.isWildcard := by
  cases e <;> rfl

/-! ## Same expressions -/

/-- What is to be shown of an expression, for the lists of parts. -/
abbrev Decides (a : Expr) : Prop :=
  ∀ b, a.same b = true ↔ a.unplaced = b.unplaced

theorem sameList_iff {as : List Expr} (h : ∀ a ∈ as, Decides a) (bs : List Expr) :
    sameList as bs = true ↔ unplacedList as = unplacedList bs := by
  induction as generalizing bs with
  | nil => cases bs <;> simp [sameList, unplacedList]
  | cons a as ih =>
      rw [List.forall_mem_cons] at h
      cases bs with
      | nil => simp [sameList, unplacedList]
      | cons b bs => simp [sameList, unplacedList, h.1 b, ih h.2 bs]

theorem sameBranches_iff {bs : List (Expr × Expr)}
    (h : ∀ c ∈ bs.flatMap fun b => [b.1, b.2], Decides c) (ds : List (Expr × Expr)) :
    sameBranches bs ds = true ↔ unplacedBranches bs = unplacedBranches ds := by
  induction bs generalizing ds with
  | nil => cases ds <;> simp [sameBranches, unplacedBranches]
  | cons b bs ih =>
      obtain ⟨w, t⟩ := b
      simp only [List.flatMap_cons, List.cons_append, List.nil_append, List.forall_mem_cons] at h
      cases ds with
      | nil => simp [sameBranches, unplacedBranches]
      | cons d ds =>
          obtain ⟨w', t'⟩ := d
          simp [sameBranches, unplacedBranches, h.1 w', h.2.1 t', ih h.2.2 ds]

theorem sameOption_iff {o : Option Expr} (h : ∀ c ∈ o.toList, Decides c) (p : Option Expr) :
    sameOption o p = true ↔ unplacedOption o = unplacedOption p := by
  cases o with
  | none => cases p <;> simp [sameOption, unplacedOption]
  | some e =>
      have he := h e (by simp)
      cases p with
      | none => simp [sameOption, unplacedOption]
      | some e' => simp [sameOption, unplacedOption, he e']

theorem ctorIdx_of_same {a b : Expr} (h : a.same b = true) : a.ctorIdx = b.ctorIdx := by
  rw [same.eq_def] at h
  split at h
  case h_16 => cases h
  all_goals rfl

theorem ctorIdx_unplaced (e : Expr) : e.unplaced.ctorIdx = e.ctorIdx := by
  cases e <;> rfl

/-- Two expressions are the same if they are equal without positions. -/
theorem same_iff (a b : Expr) : a.same b = true ↔ a.unplaced = b.unplaced := by
  induction a using inductParts generalizing b with
  | step a ih =>
      -- only nodes of one kind have to be compared
      by_cases hk : a.ctorIdx = b.ctorIdx
      case neg =>
        refine iff_of_false (fun h => hk (ctorIdx_of_same h)) fun h => hk ?_
        rw [← ctorIdx_unplaced a, h, ctorIdx_unplaced b]
      cases a with
      | literal l v =>
          cases b <;> cases hk
          simp [same, unplaced]
      | column l c =>
          cases b <;> cases hk
          simp [same, unplaced]
      | wildcard l =>
          cases b <;> cases hk
          simp [same, unplaced]
      | call l n as d =>
          have has : ∀ bs, sameList as bs = true ↔ unplacedList as = unplacedList bs :=
            sameList_iff ih
          cases b <;> cases hk
          simp [same, unplaced, has, and_assoc]
      | unary l op e =>
          have he : Decides e := ih e (by simp [children])
          cases b <;> cases hk
          simp [same, unplaced, he _]
      | arith l x op y =>
          have hx : Decides x := ih x (by simp [children])
          have hy : Decides y := ih y (by simp [children])
          cases b <;> cases hk
          simp [same, unplaced, hx _, hy _, and_assoc, and_left_comm]
      | compare l x op y =>
          have hx : Decides x := ih x (by simp [children])
          have hy : Decides y := ih y (by simp [children])
          cases b <;> cases hk
          simp [same, unplaced, hx _, hy _, and_assoc, and_left_comm]
      | logic l x op y =>
          have hx : Decides x := ih x (by simp [children])
          have hy : Decides y := ih y (by simp [children])
          cases b <;> cases hk
          simp [same, unplaced, hx _, hy _, and_assoc, and_left_comm]
      | nullIf l x y =>
          have hx : Decides x := ih x (by simp [children])
          have hy : Decides y := ih y (by simp [children])
          cases b <;> cases hk
          simp [same, unplaced, hx _, hy _]
      | case l o bs e =>
          have ho : ∀ p, sameOption o p = true ↔ unplacedOption o = unplacedOption p :=
            sameOption_iff fun c hc => ih c (by simp_all [children])
          have hbs : ∀ ds, sameBranches bs ds = true ↔ unplacedBranches bs = unplacedBranches ds :=
            sameBranches_iff fun c hc => ih c (by simp_all [children])
          have he : ∀ p, sameOption e p = true ↔ unplacedOption e = unplacedOption p :=
            sameOption_iff fun c hc => ih c (by simp_all [children])
          cases b <;> cases hk
          simp [same, unplaced, ho, hbs, he, and_assoc]
      | cast l e t =>
          have he : Decides e := ih e (by simp [children])
          cases b <;> cases hk
          simp [same, unplaced, he _]
      | isNull l e n =>
          have he : Decides e := ih e (by simp [children])
          cases b <;> cases hk
          simp [same, unplaced, he _]
      | between l e lo hi n =>
          have he : Decides e := ih e (by simp [children])
          have hlo : Decides lo := ih lo (by simp [children])
          have hhi : Decides hi := ih hi (by simp [children])
          cases b <;> cases hk
          simp [same, unplaced, he _, hlo _, hhi _, and_assoc]
      | like l e p n =>
          have he : Decides e := ih e (by simp [children])
          have hp : Decides p := ih p (by simp [children])
          cases b <;> cases hk
          simp [same, unplaced, he _, hp _, and_assoc]
      | inList l e es n =>
          have he : Decides e := ih e (by simp [children])
          have hes : ∀ bs, sameList es bs = true ↔ unplacedList es = unplacedList bs :=
            sameList_iff fun c hc => ih c (by simp [children, hc])
          cases b <;> cases hk
          simp [same, unplaced, he _, hes, and_assoc]

theorem same_symm {a b : Expr} (h : a.same b = true) : b.same a = true := by
  rw [same_iff] at h ⊢
  exact h.symm

theorem same_trans {a b c : Expr} (hab : a.same b = true) (hbc : b.same c = true) :
    a.same c = true := by
  rw [same_iff] at hab hbc ⊢
  exact hab.trans hbc

/-! ## Texts -/

theorem texts_unplacedList {es : List Expr} (h : ∀ e ∈ es, e.unplaced.text = e.text) :
    texts (unplacedList es) = texts es := by
  induction es with
  | nil => rfl
  | cons e es ih =>
      rw [List.forall_mem_cons] at h
      exact congrArg₂ List.cons h.1 (ih h.2)

theorem branchesText_unplacedBranches {bs : List (Expr × Expr)}
    (h : ∀ c ∈ bs.flatMap fun b => [b.1, b.2], c.unplaced.text = c.text) :
    branchesText (unplacedBranches bs) = branchesText bs := by
  induction bs with
  | nil => rfl
  | cons b bs ih =>
      obtain ⟨w, t⟩ := b
      simp only [List.flatMap_cons, List.cons_append, List.nil_append, List.forall_mem_cons] at h
      rw [unplacedBranches, branchesText, branchesText, h.1, h.2.1, ih h.2.2]

theorem optionText_unplacedOption {lead : String} {o : Option Expr}
    (h : ∀ c ∈ o.toList, c.unplaced.text = c.text) :
    optionText lead (unplacedOption o) = optionText lead o := by
  cases o with
  | none => rfl
  | some e => exact congrArg (lead ++ ·) (h e (by simp))

/-- The text of an expression does not show positions. -/
theorem text_unplaced (e : Expr) : e.unplaced.text = e.text := by
  induction e using inductParts with
  | step e ih =>
      cases e with
      | literal | column | wildcard => rfl
      | call l n as d =>
          rw [unplaced, text, text, texts_unplacedList]
          exact ih
      | case l o bs e =>
          rw [unplaced, text, text, optionText_unplacedOption, branchesText_unplacedBranches,
            optionText_unplacedOption]
          all_goals
            intro c hc
            exact ih c (by simp_all [children])
      | inList l e es n =>
          rw [unplaced, text, text, ih e (by simp [children]), texts_unplacedList]
          intro c hc
          exact ih c (by simp [children, hc])
      | unary l op e | cast l e t | isNull l e n =>
          rw [unplaced, text, text, ih e (by simp [children])]
      | arith l a op b | compare l a op b | logic l a op b | nullIf l a b | like l a b n =>
          rw [unplaced, text, text, ih a (by simp [children]), ih b (by simp [children])]
      | between l e lo hi n =>
          rw [unplaced, text, text, ih e (by simp [children]), ih lo (by simp [children]),
            ih hi (by simp [children])]

theorem text_eq_of_same {a b : Expr} (h : a.same b = true) : a.text = b.text := by
  rw [← text_unplaced a, (same_iff a b).mp h, text_unplaced]

end StreamSql.Expr
