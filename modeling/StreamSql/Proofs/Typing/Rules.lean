/-
  Types without levels. `Typed t s e type` says that the expression has the type over the schema
  once the walk is given as many levels as it takes; within any limit the expression stays below,
  it is what inference finds (`infer_eq_ok`). The rules of typing are then equivalences, one for
  each kind of node, and nothing has to keep count of levels.
-/
import StreamSql.Proofs.Typing

namespace StreamSql.Typing

open Outcome

variable {t : Typing} {s : Schema} {n : Nat} {e : Expr} {type type' : DataType}

/-- The expression has this type over the schema. -/
def Typed (t : Typing) (s : Schema) (e : Expr) (type : DataType) : Prop :=
  ∃ n, t.inferWithin s n e = .ok type

/-- As many levels as the expression is high are enough. -/
theorem inferWithin_eq_ok (h : e.height ≤ n) :
    t.inferWithin s n e = .ok type ↔ Typed t s e type :=
  ⟨fun h' => ⟨n, h'⟩, fun ⟨_, h'⟩ => inferWithin_of_height h' h⟩

theorem infer_eq_ok (h : e.height ≤ t.limit) : t.infer s e = .ok type ↔ Typed t s e type :=
  inferWithin_eq_ok h

theorem typed_of_infer (h : t.infer s e = .ok type) : Typed t s e type :=
  ⟨_, h⟩

theorem Typed.unique (h : Typed t s e type) (h' : Typed t s e type') : type = type' := by
  rw [← inferWithin_eq_ok (Nat.le_refl _)] at h h'
  exact Except.ok.inj (h.symm.trans h')

theorem typed_withLoc {l : Option Location} :
    Typed t s (e.withLoc l) type ↔ Typed t s e type := by
  unfold Typed
  simp only [inferWithin_withLoc]

/-- A node has a type if the walk finds one a level above its parts. -/
theorem typed_iff (h : ∀ c ∈ e.children, c.height ≤ n) :
    Typed t s e type ↔ t.inferWithin s (n + 1) e = .ok type :=
  (inferWithin_eq_ok (Expr.height_le_succ.mpr h)).symm

theorem exists_level (e : Expr) : ∃ n, ∀ c ∈ e.children, c.height ≤ n := by
  obtain ⟨n, hn⟩ := Nat.exists_eq_succ_of_ne_zero (Nat.ne_of_gt e.height_pos)
  exact ⟨n, Expr.height_le_succ.mp (Nat.le_of_eq hn)⟩

/-- Parts of an expression with a type have types, a `*` among arguments apart. -/
theorem Typed.child {c : Expr} (h : Typed t s e type) (hc : c ∈ e.children) :
    c.isWildcard = true ∨ ∃ type', Typed t s c type' := by
  obtain ⟨n, hn⟩ := h
  cases n with
  | zero => cases hn
  | succ n =>
      rcases inferWithin_children hn hc with hw | ⟨type', h'⟩
      · exact Or.inl hw
      · exact Or.inr ⟨type', n, h'⟩

/-! ## Checks -/

theorem checkBoolean_eq_ok {place : String} {u : Unit} :
    type.checkBoolean place = .ok u ↔ type = .boolean ∨ type = .null := by
  unfold DataType.checkBoolean
  split <;> simp_all

theorem checkComparable_eq_ok {u : Unit} :
    type.checkComparable type' = .ok u ↔ type.comparable type' = true := by
  unfold DataType.checkComparable
  split <;> simp_all

theorem checkLike_eq_ok {side : String} {u : Unit} :
    type.checkLike side = .ok u ↔ type.isString = true ∨ type = .null := by
  unfold DataType.checkLike
  split <;> simp_all

theorem signature_eq_ok {functions : Registry} {name : String} {l : Option Location}
    {f : Signature} : signature functions name l = .ok f ↔ functions.lookup name = some f := by
  unfold signature
  cases functions.lookup name <;> simp

/-! ## The rules -/

theorem typed_literal {l : Option Location} {v : Literal} :
    Typed t s (.literal l v) type ↔ type = v.dataType := by
  rw [typed_iff (n := 0) (by simp [Expr.children])]
  simp [inferWithin, eq_comm]

theorem not_typed_wildcard {l : Option Location} : ¬Typed t s (.wildcard l) type := by
  rw [typed_iff (n := 0) (by simp [Expr.children])]
  simp [inferWithin]

/-- What an operator on one operand makes of its type. -/
def unaryType (op : UnaryOp) (operand type : DataType) : Prop :=
  match op with
  | .not => (operand = .boolean ∨ operand = .null) ∧ type = .boolean
  | _ => (operand = .null ∨ operand.isNumeric = true) ∧ type = operand

theorem typed_unary {l : Option Location} {op : UnaryOp} {a : Expr} :
    Typed t s (.unary l op a) type ↔ ∃ ta, Typed t s a ta ∧ unaryType op ta type := by
  obtain ⟨n, hn⟩ := exists_level (.unary l op a)
  rw [typed_iff hn]
  simp only [inferWithin, bind_eq_ok, inferWithin_eq_ok (hn a (by simp [Expr.children]))]
  refine exists_congr fun ta => and_congr_right fun _ => ?_
  cases op with
  | not =>
      simp only [unaryType, bind_eq_ok, pure_eq_ok, exists_unit, checkBoolean_eq_ok,
        @eq_comm _ _ type]
  | minus | plus =>
      simp only [unaryType, @eq_comm _ type]
      split <;> simp_all

theorem typed_arith {l : Option Location} {op : ArithOp} {a b : Expr} :
    Typed t s (.arith l a op b) type ↔
      ∃ ta tb, Typed t s a ta ∧ Typed t s b tb ∧ DataType.arith? ta tb = some type := by
  obtain ⟨n, hn⟩ := exists_level (.arith l a op b)
  rw [typed_iff hn]
  simp only [inferWithin, bind_eq_ok, inferWithin_eq_ok (hn a (by simp [Expr.children])),
    inferWithin_eq_ok (hn b (by simp [Expr.children]))]
  refine exists_congr fun ta => ?_
  rw [← exists_and_left]
  refine exists_congr fun tb => and_congr_right fun _ => and_congr_right fun _ => ?_
  cases DataType.arith? ta tb <;> simp

theorem typed_compare {l : Option Location} {op : CompareOp} {a b : Expr} :
    Typed t s (.compare l a op b) type ↔
      ∃ ta tb, Typed t s a ta ∧ Typed t s b tb ∧ ta.comparable tb = true ∧ type = .boolean := by
  obtain ⟨n, hn⟩ := exists_level (.compare l a op b)
  rw [typed_iff hn]
  simp only [inferWithin, bind_eq_ok, pure_eq_ok, exists_unit, checkComparable_eq_ok,
    inferWithin_eq_ok (hn a (by simp [Expr.children])),
    inferWithin_eq_ok (hn b (by simp [Expr.children])), @eq_comm _ _ type, exists_and_left]

theorem typed_logic {l : Option Location} {op : LogicOp} {a b : Expr} :
    Typed t s (.logic l a op b) type ↔
      ∃ ta tb, Typed t s a ta ∧ Typed t s b tb ∧ (ta = .boolean ∨ ta = .null) ∧
        (tb = .boolean ∨ tb = .null) ∧ type = .boolean := by
  obtain ⟨n, hn⟩ := exists_level (.logic l a op b)
  rw [typed_iff hn]
  simp only [inferWithin, bind_eq_ok, pure_eq_ok, exists_unit, checkBoolean_eq_ok,
    inferWithin_eq_ok (hn a (by simp [Expr.children])),
    inferWithin_eq_ok (hn b (by simp [Expr.children]))]
  constructor
  · rintro ⟨ta, ha, hta, tb, hb, htb, rfl⟩
    exact ⟨ta, tb, ha, hb, hta, htb, rfl⟩
  · rintro ⟨ta, tb, ha, hb, hta, htb, rfl⟩
    exact ⟨ta, ha, hta, tb, hb, htb, rfl⟩

theorem typed_nullIf {l : Option Location} {a b : Expr} :
    Typed t s (.nullIf l a b) type ↔
      ∃ tb, Typed t s a type ∧ Typed t s b tb ∧ type.comparable tb = true := by
  obtain ⟨n, hn⟩ := exists_level (.nullIf l a b)
  rw [typed_iff hn]
  simp only [inferWithin, bind_eq_ok, pure_eq_ok, exists_unit, checkComparable_eq_ok,
    inferWithin_eq_ok (hn a (by simp [Expr.children])),
    inferWithin_eq_ok (hn b (by simp [Expr.children]))]
  constructor
  · rintro ⟨ta, ha, tb, hb, hc, rfl⟩
    exact ⟨tb, ha, hb, hc⟩
  · rintro ⟨tb, ha, hb, hc⟩
    exact ⟨type, ha, tb, hb, hc, rfl⟩

theorem typed_cast {l : Option Location} {a : Expr} {ty : DataType} :
    Typed t s (.cast l a ty) type ↔ (∃ ta, Typed t s a ta) ∧ type = ty := by
  obtain ⟨n, hn⟩ := exists_level (.cast l a ty)
  rw [typed_iff hn]
  simp only [inferWithin, bind_eq_ok, pure_eq_ok, exists_and_right, @eq_comm _ _ type,
    inferWithin_eq_ok (hn a (by simp [Expr.children]))]

theorem typed_isNull {l : Option Location} {a : Expr} {neg : Bool} :
    Typed t s (.isNull l a neg) type ↔ (∃ ta, Typed t s a ta) ∧ type = .boolean := by
  obtain ⟨n, hn⟩ := exists_level (.isNull l a neg)
  rw [typed_iff hn]
  simp only [inferWithin, bind_eq_ok, pure_eq_ok, exists_and_right, @eq_comm _ _ type,
    inferWithin_eq_ok (hn a (by simp [Expr.children]))]

theorem typed_between {l : Option Location} {a lo hi : Expr} {neg : Bool} :
    Typed t s (.between l a lo hi neg) type ↔
      ∃ ta tl th, Typed t s a ta ∧ Typed t s lo tl ∧ Typed t s hi th ∧
        ta.comparable tl = true ∧ ta.comparable th = true ∧ type = .boolean := by
  obtain ⟨n, hn⟩ := exists_level (.between l a lo hi neg)
  rw [typed_iff hn]
  simp only [inferWithin, bind_eq_ok, pure_eq_ok, exists_unit, checkComparable_eq_ok,
    inferWithin_eq_ok (hn a (by simp [Expr.children])),
    inferWithin_eq_ok (hn lo (by simp [Expr.children])),
    inferWithin_eq_ok (hn hi (by simp [Expr.children]))]
  constructor
  · rintro ⟨ta, ha, tl, hl, hcl, th, hh, hch, rfl⟩
    exact ⟨ta, tl, th, ha, hl, hh, hcl, hch, rfl⟩
  · rintro ⟨ta, tl, th, ha, hl, hh, hcl, hch, rfl⟩
    exact ⟨ta, ha, tl, hl, hcl, th, hh, hch, rfl⟩

theorem typed_like {l : Option Location} {a b : Expr} {neg : Bool} :
    Typed t s (.like l a b neg) type ↔
      ∃ ta tb, Typed t s a ta ∧ Typed t s b tb ∧ (ta.isString = true ∨ ta = .null) ∧
        (tb.isString = true ∨ tb = .null) ∧ type = .boolean := by
  obtain ⟨n, hn⟩ := exists_level (.like l a b neg)
  rw [typed_iff hn]
  simp only [inferWithin, bind_eq_ok, pure_eq_ok, exists_unit, checkLike_eq_ok,
    inferWithin_eq_ok (hn a (by simp [Expr.children])),
    inferWithin_eq_ok (hn b (by simp [Expr.children])), @eq_comm _ _ type]
  simp only [exists_and_left]

theorem typed_inList {l : Option Location} {a : Expr} {items : List Expr} {neg : Bool} :
    Typed t s (.inList l a items neg) type ↔
      ∃ ta, Typed t s a ta ∧ type = .boolean ∧
        ∀ i ∈ items, ∃ ti, Typed t s i ti ∧ ta.comparable ti = true := by
  obtain ⟨n, hn⟩ := exists_level (.inList l a items neg)
  rw [typed_iff hn]
  have hitem : ∀ i ∈ items, ∀ ti, t.inferWithin s n i = .ok ti ↔ Typed t s i ti := fun i hi ti =>
    inferWithin_eq_ok (hn i (by simp [Expr.children, hi]))
  simp only [inferWithin, bind_eq_ok, pure_eq_ok, exists_unit, checkComparable_eq_ok, forM_eq_ok,
    inferWithin_eq_ok (hn a (by simp [Expr.children])), @eq_comm _ _ type]
  refine exists_congr fun ta => and_congr_right fun _ => ?_
  rw [and_comm]
  refine and_congr_right fun _ => forall₂_congr fun i hi => exists_congr fun ti => ?_
  rw [hitem i hi]

/-- What the condition of a branch has to be: comparable with the operand, or a truth value. -/
def branchType (subject : Option DataType) (condition : DataType) : Prop :=
  match subject with
  | some operand => operand.comparable condition = true
  | none => condition = .boolean ∨ condition = .null

/-- Both sides of a branch have types. -/
def TypedBranch (t : Typing) (s : Schema) (subject : Option DataType) (b : Expr × Expr)
    (type : DataType) : Prop :=
  (∃ tw, Typed t s b.1 tw ∧ branchType subject tw) ∧ Typed t s b.2 type

theorem typed_case {l : Option Location} {o : Option Expr} {bs : List (Expr × Expr)}
    {e : Option Expr} :
    Typed t s (.case l o bs e) type ↔
      ∃ subject results last, Option.Rel (Typed t s) o subject ∧
        List.Forall₂ (TypedBranch t s subject) bs results ∧ Option.Rel (Typed t s) e last ∧
        DataType.caseType (results ++ last.toList) = .ok type := by
  obtain ⟨n, hn⟩ := exists_level (.case l o bs e)
  rw [typed_iff hn]
  simp only [Expr.children, List.forall_mem_append] at hn
  obtain ⟨⟨ho, hbs⟩, he⟩ := hn
  have hbranch : ∀ subject, ∀ b ∈ bs, ∀ type, (∃ tw, t.inferWithin s n b.1 = .ok tw ∧
      (match subject with
        | some st => do
          st.checkComparable tw
          t.inferWithin s n b.2
        | none => do
          tw.checkBoolean "CASE WHEN"
          t.inferWithin s n b.2) = .ok type) ↔ TypedBranch t s subject b type := by
    rintro subject ⟨w, r⟩ hb type
    have hw : w.height ≤ n := hbs w (List.mem_flatMap.mpr ⟨_, hb, by simp⟩)
    have hr : r.height ≤ n := hbs r (List.mem_flatMap.mpr ⟨_, hb, by simp⟩)
    cases subject with
    | none =>
        simp only [TypedBranch, branchType, bind_eq_ok, exists_unit, checkBoolean_eq_ok,
          inferWithin_eq_ok hw, inferWithin_eq_ok hr, ← exists_and_right, and_assoc]
    | some st =>
        simp only [TypedBranch, branchType, bind_eq_ok, exists_unit, checkComparable_eq_ok,
          inferWithin_eq_ok hw, inferWithin_eq_ok hr, ← exists_and_right, and_assoc]
  simp only [inferWithin, bind_eq_ok, mapM_eq_ok, option_mapM_eq_ok,
    rel_iff fun a ha _ => inferWithin_eq_ok (ho a ha),
    rel_iff fun a ha _ => inferWithin_eq_ok (he a ha)]
  constructor
  · rintro ⟨subject, hsubject, results, hresults, last, hlast, h⟩
    exact ⟨subject, results, last, hsubject, (forall₂_iff (hbranch subject)).mp hresults, hlast, h⟩
  · rintro ⟨subject, results, last, hsubject, hresults, hlast, h⟩
    exact ⟨subject, hsubject, results, (forall₂_iff (hbranch subject)).mpr hresults, last, hlast, h⟩

/-- The type of an argument; a `*` counts as NULL where it may stand. -/
def TypedArg (t : Typing) (s : Schema) (alone : Bool) (a : Expr) (type : DataType) : Prop :=
  if a.isWildcard then alone = true ∧ type = .null else Typed t s a type

theorem typed_call {l : Option Location} {name : String} {args : List Expr} {d : Bool} :
    Typed t s (.call l name args d) type ↔
      ∃ f types, t.functions.lookup name = some f ∧
        List.Forall₂ (TypedArg t s (f.wildcard && args.length == 1)) args types ∧
        f.checkString types = .ok () ∧ f.resultType types = .ok type := by
  obtain ⟨n, hn⟩ := exists_level (.call l name args d)
  rw [typed_iff hn]
  have harg : ∀ (f : Signature), ∀ a ∈ args, ∀ type, ((if a.isWildcard then
      if f.wildcard && args.length = 1 then (.ok .null : Except Error DataType)
      else .error (.planning (.wildcardArgument name))
      else t.inferWithin s n a) = .ok type ↔
        TypedArg t s (f.wildcard && args.length == 1) a type) := by
    intro f a ha type
    unfold TypedArg
    by_cases hw : a.isWildcard = true
    · rw [if_pos hw, if_pos hw]
      simp only [@eq_comm _ type]
      split <;> simp_all
    · rw [if_neg hw, if_neg hw, inferWithin_eq_ok (hn a ha)]
  simp only [inferWithin, bind_eq_ok, mapM_eq_ok, exists_unit, signature_eq_ok, exists_and_left]
  refine exists_congr fun f => and_congr_right fun _ => exists_congr fun types => ?_
  rw [forall₂_iff (harg f)]

end StreamSql.Typing
