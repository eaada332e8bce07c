/-
  Expressions read back from their documents. `ReadsBack good x a` says what a read gives: `a` if
  `good` holds, and nothing otherwise. Reads are put together as the readers are, field after field,
  and the conditions add up (`ReadsBack.bind`); so each reader is compared with its writer once, in
  the order in which it takes the fields.

  An infinite double or NaN has no number in a document. An expression comes back, positions included,
  exactly if none occurs in it (`Expr.reads_toJson`), provided that types come back
  (`TypeForm.Lawful`). Every level of an expression takes three arrays or objects of its document
  (`Expr.height_le_nesting`), so a reader that counts them refuses high ones.
-/
import StreamSql.Json.Expr
import StreamSql.Proofs.Expr.Replace

namespace StreamSql

/-! ## Reading -/

/-- The read gives the value if the condition holds, and nothing if it does not. -/
def ReadsBack {α : Type} (good : Prop) (x : Option α) (a : α) : Prop :=
  (good → x = some a) ∧ (¬ good → x = none)

namespace ReadsBack

variable {α β : Type} {good good' : Prop} {x : Option α} {a : α} {b : β} {f : α → Option β}

theorem done (h : x = some a) : ReadsBack True x a :=
  ⟨fun _ => h, fun hn => absurd trivial hn⟩

theorem congr (h : ReadsBack good x a) (hgood : good ↔ good') : ReadsBack good' x a :=
  ⟨fun hg => h.1 (hgood.mpr hg), fun hg => h.2 (mt hgood.mp hg)⟩

theorem bind (hx : ReadsBack good x a) (hf : ReadsBack good' (f a) b) :
    ReadsBack (good ∧ good') (x >>= f) b := by
  by_cases h : good
  · rw [hx.1 h]
    exact ⟨fun hg => hf.1 hg.2, fun hg => hf.2 fun hg' => hg ⟨h, hg'⟩⟩
  · rw [hx.2 h]
    exact ⟨fun hg => absurd hg.1 h, fun _ => rfl⟩

/-- A step that cannot fail. -/
theorem step (hx : x = some a) (hf : ReadsBack good (f a) b) : ReadsBack good (x >>= f) b := by
  rw [hx]
  exact hf

/-- A step after which none can fail. -/
theorem rest (hx : ReadsBack good x a) (hf : f a = some b) : ReadsBack good (x >>= f) b :=
  (hx.bind (.done hf)).congr (and_iff_left trivial)

theorem map {g : α → β} (hx : ReadsBack good x a) : ReadsBack good (x.map g) (g a) := by
  constructor
  · intro hg
    rw [hx.1 hg]
    rfl
  · intro hg
    rw [hx.2 hg]
    rfl

theorem mapM {γ : Type} {write : α → γ} {read : γ → Option α} {good : α → Prop} {as : List α}
    (h : ∀ a ∈ as, ReadsBack (good a) (read (write a)) a) :
    ReadsBack (∀ a ∈ as, good a) ((as.map write).mapM read) as := by
  induction as with
  | nil => exact (done rfl).congr (by simp)
  | cons a as ih =>
      rw [List.forall_mem_cons] at h
      rw [List.map_cons, List.mapM_cons]
      have htail : ReadsBack (∀ a ∈ as, good a)
          ((as.map write).mapM read >>= fun bs => pure (a :: bs)) (a :: as) :=
        .rest (ih h.2) rfl
      exact (h.1.bind htail).congr List.forall_mem_cons.symm

theorem optional {write : α → Json} {read : Json → Option α} {good : α → Prop} {o : Option α}
    (hnull : ∀ a, write a ≠ .null) (h : ∀ a ∈ o, ReadsBack (good a) (read (write a)) a) :
    ReadsBack (∀ a ∈ o, good a) (Json.optional? read (.ofOption write o)) o := by
  cases o with
  | none => exact (done rfl).congr (by simp)
  | some a =>
      have hread : Json.optional? read (write a) = (read (write a)).map some := by
        unfold Json.optional?
        split
        · exact absurd ‹write a = .null› (hnull a)
        · rfl
      rw [Json.ofOption, hread]
      exact (h a rfl).map.congr (by simp)

end ReadsBack

theorem Json.optional?_string (o : Option String) :
    Json.optional? Json.string? (.ofOption .string o) = some o := by
  cases o <;> rfl

theorem Json.reads_nat (bits n : Nat) : ReadsBack (n < 1 <<< bits) (Json.nat? bits (.ofNat n)) n := by
  simp only [Json.nat?, Json.ofNat, Int.natCast_nonneg, true_and, Int.toNat_natCast]
  exact ⟨fun h => if_pos h, fun h => if_neg h⟩

/-- A number that a fixed width can hold is read as it was. -/
theorem Json.nat?_ofNat {bits n : Nat} (h : n < 1 <<< bits) : Json.nat? bits (.ofNat n) = some n :=
  (Json.reads_nat bits n).1 h

/-! ## Nesting -/

namespace Json

theorem nesting_le_nestingList {j : Json} {js : List Json} (h : j ∈ js) :
    j.nesting ≤ nestingList js := by
  induction js with
  | nil => cases h
  | cons i is ih =>
      rw [nestingList]
      rcases List.mem_cons.mp h with rfl | h
      · exact Nat.le_max_left _ _
      · exact Nat.le_trans (ih h) (Nat.le_max_right _ _)

theorem nesting_tagged (tag : String) (v : Json) : (tagged tag v).nesting = v.nesting + 1 := by
  simp [tagged, nesting, nestingMembers]

end Json

/-! ## Positions and types -/

theorem Location.read_toJson (l : Location) : ofJson? l.toJson = some l := by
  have hwritten : ofJson? l.toJson = (do
      return ⟨.ofNat (← Json.nat? 32 (.ofNat l.line.toNat)),
        .ofNat (← Json.nat? 32 (.ofNat l.column.toNat))⟩) := rfl
  rw [hwritten, Json.nat?_ofNat l.line.toNat_lt, Json.nat?_ofNat l.column.toNat_lt]
  simp [UInt32.ofNat_toNat]

/-- Every type is read as it was written. -/
def TypeForm.Lawful (form : TypeForm) : Prop :=
  ∀ t, form.read? (form.write t) = some t

/-- The double that a constant is. -/
def Literal.double? : Literal → Option Double
  | .double d => some d
  | _ => none

theorem Literal.reads_toJson (v : Literal) :
    ReadsBack (∀ d ∈ v.double?, d.isFinite = true) (ofJson? v.toJson) v := by
  have hplain : ∀ {w : Literal}, w.double? = none → ofJson? w.toJson = some w →
      ReadsBack (∀ d ∈ w.double?, d.isFinite = true) (ofJson? w.toJson) w := by
    intro w hw hread
    exact (ReadsBack.done hread).congr (by simp [hw])
  cases v with
  | null | boolean | string => exact hplain rfl rfl
  | integer i =>
      have hnarrow : narrowOfJson? (.int i.toInt) = some i := by
        refine (if_pos ⟨i.minValue_le_toInt, i.toInt_le⟩).trans ?_
        rw [Int32.ofInt_toInt]
      exact hplain rfl (congrArg (Option.map Literal.integer) hnarrow)
  | bigint i =>
      have hwide : wideOfJson? (.int i.toInt) = some i := by
        refine (if_pos ⟨i.minValue_le_toInt, i.toInt_le⟩).trans ?_
        rw [Int64.ofInt_toInt]
      exact hplain rfl (congrArg (Option.map Literal.bigint) hwide)
  | double d =>
      have hwritten : (double d).toJson =
        .tagged "Double" (if d.isFinite then .double d else .null) := rfl
      have hgood : (∀ d' ∈ (double d).double?, d'.isFinite = true) ↔ d.isFinite = true := by
        simp [double?]
      rw [hwritten, hgood]
      cases d.isFinite with
      | true => exact ⟨fun _ => rfl, fun h => absurd rfl h⟩
      | false => exact ⟨fun h => Bool.noConfusion h, fun _ => rfl⟩

theorem ColumnRef.reads_toJson (c : ColumnRef) : ReadsBack True (ofJson? c.toJson) c :=
  .step rfl (.step (Json.optional?_string c.qualifier) (.step rfl (.done rfl)))

/-! ## Expressions -/

namespace Expr

variable {form : TypeForm}

theorem listJson_eq_map (es : List Expr) : listJson form es = es.map (toJson form) := by
  induction es with
  | nil => rfl
  | cons e es ih => rw [listJson, ih, List.map_cons]

theorem branchesJson_eq_map (bs : List (Expr × Expr)) :
    branchesJson form bs = bs.map fun b => .array [toJson form b.1, toJson form b.2] := by
  induction bs with
  | nil => rfl
  | cons b bs ih => rw [branchesJson, ih, List.map_cons]

theorem optionJson_eq (o : Option Expr) : optionJson form o = .ofOption (toJson form) o := by
  cases o <;> rfl

theorem toJson_ne_null (e : Expr) : e.toJson form ≠ .null := by
  cases e <;> simp [toJson, nodeJson]

/-! ### Nesting -/

theorem nesting_kind_lt (l : Option Location) (kind : Json) :
    kind.nesting < (nodeJson l kind).nesting := by
  simp only [nodeJson, Json.nesting, Json.nestingMembers]
  omega

theorem nesting_toJson_pos (form : TypeForm) (e : Expr) : 0 < (e.toJson form).nesting := by
  cases e <;> simp [toJson, nodeJson, Json.nesting]

theorem nesting_le_listJson (form : TypeForm) {c : Expr} {es : List Expr} (h : c ∈ es) :
    (c.toJson form).nesting ≤ Json.nestingList (listJson form es) := by
  rw [listJson_eq_map]
  exact Json.nesting_le_nestingList (List.mem_map_of_mem h)

theorem nesting_le_optionJson (form : TypeForm) {c : Expr} {o : Option Expr} (h : c ∈ o.toList) :
    (c.toJson form).nesting ≤ (optionJson form o).nesting := by
  cases o with
  | none => cases h
  | some e =>
      rw [List.mem_singleton.mp h]
      exact Nat.le_refl _

theorem nesting_le_branchesJson (form : TypeForm) {c : Expr} {bs : List (Expr × Expr)}
    (h : c ∈ bs.flatMap fun b => [b.1, b.2]) :
    (c.toJson form).nesting ≤ Json.nestingList (branchesJson form bs) := by
  obtain ⟨b, hb, hc⟩ := List.mem_flatMap.mp h
  rw [branchesJson_eq_map]
  have hpair := Json.nesting_le_nestingList (List.mem_map_of_mem (f := fun b : Expr × Expr =>
    Json.array [toJson form b.1, toJson form b.2]) hb)
  simp only [Json.nesting, Json.nestingList] at hpair
  simp only [List.mem_cons, List.not_mem_nil, or_false] at hc
  rcases hc with rfl | rfl <;> omega

/-- The document of a part is inside three objects of that of the whole: the parts, the kind and the
    node. -/
theorem nesting_child (form : TypeForm) {c e : Expr} (h : c ∈ e.children) :
    (c.toJson form).nesting + 3 ≤ (e.toJson form).nesting := by
  have hnode : ∀ {l tag v}, (c.toJson form).nesting < Json.nesting v →
      (c.toJson form).nesting + 3 ≤ (nodeJson l (.tagged tag v)).nesting := by
    intro l tag v hv
    have := nesting_kind_lt l (.tagged tag v)
    rw [Json.nesting_tagged] at this
    omega
  cases e with
  | literal | column | wildcard => cases h
  | call l n as d =>
      rw [children] at h
      have := nesting_le_listJson form h
      refine hnode ?_
      simp only [Json.nesting, Json.nestingMembers]
      omega
  | case l o bs e =>
      simp only [children, List.mem_append] at h
      refine hnode ?_
      simp only [Json.nesting, Json.nestingMembers]
      rcases h with (h | h) | h
      · have := nesting_le_optionJson form h
        omega
      · have := nesting_le_branchesJson form h
        omega
      · have := nesting_le_optionJson form h
        omega
  | inList l e es n =>
      rw [children, List.mem_cons] at h
      refine hnode ?_
      simp only [Json.nesting, Json.nestingMembers]
      rcases h with rfl | h
      · omega
      · have := nesting_le_listJson form h
        omega
  | unary | arith | compare | logic | nullIf | cast | isNull | between | like =>
      simp only [children, List.mem_cons, List.not_mem_nil, or_false] at h
      refine hnode ?_
      simp only [Json.nesting, Json.nestingMembers]
      rcases h with rfl | rfl | rfl <;> omega

/-- The double is a constant of the expression. -/
def HasDouble (e : Expr) (d : Double) : Prop :=
  ∃ l, Within (literal l (.double d)) e

/-- The expression is not changed by being written and read. -/
def Kept (e : Expr) : Prop :=
  ∀ d, e.HasDouble d → d.isFinite = true

theorem within_iff {c e : Expr} : Within c e ↔ c = e ∨ ∃ d ∈ e.children, Within c d := by
  constructor
  · intro h
    cases h with
    | self => exact .inl rfl
    | part member inner => exact .inr ⟨_, member, inner⟩
  · rintro (rfl | ⟨d, hd, h⟩)
    · exact .self
    · exact .part hd h

theorem hasDouble_iff {e : Expr} {d : Double} :
    e.HasDouble d ↔ (∃ l, e = literal l (.double d)) ∨ ∃ c ∈ e.children, c.HasDouble d := by
  unfold HasDouble
  constructor
  · rintro ⟨l, h⟩
    rcases within_iff.mp h with rfl | ⟨c, hc, h⟩
    · exact .inl ⟨l, rfl⟩
    · exact .inr ⟨c, hc, l, h⟩
  · rintro (⟨l, rfl⟩ | ⟨c, hc, l, h⟩)
    · exact ⟨l, .self⟩
    · exact ⟨l, .part hc h⟩

/-- A node that is no constant is kept with its parts. -/
theorem kept_iff {e : Expr} (h : e.literal? = none) : e.Kept ↔ ∀ c ∈ e.children, c.Kept := by
  have hdouble : ∀ d, e.HasDouble d ↔ ∃ c ∈ e.children, c.HasDouble d := by
    intro d
    rw [hasDouble_iff, or_iff_right]
    rintro ⟨l, rfl⟩
    cases h
  unfold Kept
  simp only [hdouble]
  grind

theorem kept_literal {l : Option Location} {v : Literal} :
    (literal l v).Kept ↔ ∀ d ∈ v.double?, d.isFinite = true := by
  have hdouble : ∀ d, (literal l v).HasDouble d ↔ d ∈ v.double? := by
    intro d
    rw [hasDouble_iff]
    cases v <;> simp [children, Literal.double?, eq_comm]
  simp only [Kept, hdouble]

/-- The location is written only if there is one. -/
theorem read_location (l : Option Location) (kind : Json) :
    locationOfJson? (nodeJson l kind) = some l := by
  cases l with
  | none => rfl
  | some p => exact congrArg (Option.map some) p.read_toJson

/-- A node comes back if its kind does. -/
theorem reads_node {good : Prop} {n : Nat} {tag : String} {v : Json} {e : Expr}
    (he : e.literal? = none) (hgood : good ↔ ∀ c ∈ e.children, c.Kept)
    (h : ReadsBack good (ofKind? form (ofJsonWithin? form n) e.loc? tag v) e) :
    ReadsBack e.Kept (ofJsonWithin? form (n + 1) (nodeJson e.loc? (.tagged tag v))) e := by
  have hread : ReadsBack good
      (ofJsonWithin? form (n + 1) (nodeJson e.loc? (.tagged tag v))) e :=
    .step (read_location e.loc? _) (.step rfl h)
  rw [kept_iff he, ← hgood]
  exact hread

theorem reads_list {sub : Json → Option Expr} {es : List Expr}
    (h : ∀ c ∈ es, ReadsBack c.Kept (sub (c.toJson form)) c) :
    ReadsBack (∀ c ∈ es, c.Kept) (Json.list? sub (.array (listJson form es))) es := by
  rw [listJson_eq_map]
  exact .step rfl (.mapM h)

theorem reads_option {sub : Json → Option Expr} {o : Option Expr}
    (h : ∀ c ∈ o, ReadsBack c.Kept (sub (c.toJson form)) c) :
    ReadsBack (∀ c ∈ o, c.Kept) (Json.optional? sub (optionJson form o)) o := by
  rw [optionJson_eq]
  exact .optional toJson_ne_null h

theorem reads_branches {sub : Json → Option Expr} {bs : List (Expr × Expr)}
    (h : ∀ c ∈ bs.flatMap (fun b => [b.1, b.2]), ReadsBack c.Kept (sub (c.toJson form)) c) :
    ReadsBack (∀ b ∈ bs, b.1.Kept ∧ b.2.Kept)
      (Json.list? (Json.pair? sub sub) (.array (branchesJson form bs))) bs := by
  rw [branchesJson_eq_map]
  refine .step rfl (.mapM fun b hb => ?_)
  have hb : ∀ c ∈ [b.1, b.2], ReadsBack c.Kept (sub (c.toJson form)) c := fun c hc =>
    h c (List.mem_flatMap.mpr ⟨b, hb, hc⟩)
  exact .bind (hb b.1 (by simp)) (.rest (hb b.2 (by simp)) rfl)

/-- An expression comes back from its document exactly if its doubles are finite; if not, nothing
    does. -/
theorem reads_within (hform : form.Lawful) {n : Nat} {e : Expr} (hn : (e.toJson form).nesting ≤ n) :
    ReadsBack e.Kept (ofJsonWithin? form n (e.toJson form)) e := by
  induction n generalizing e with
  | zero =>
      have := nesting_toJson_pos form e
      omega
  | succ n ih =>
      have hparts : ∀ c ∈ e.children,
          ReadsBack c.Kept (ofJsonWithin? form n (c.toJson form)) c := by
        intro c hc
        have := nesting_child form hc
        exact ih (by omega)
      clear ih hn
      cases e with
      | literal l v =>
          have hread : ReadsBack (∀ d ∈ v.double?, d.isFinite = true)
              (ofJsonWithin? form (n + 1) ((literal l v).toJson form)) (literal l v) :=
            .step (read_location l _) (.step rfl v.reads_toJson.map)
          exact hread.congr kept_literal.symm
      | column l c =>
          exact reads_node (e := column l c) rfl (by simp [children]) c.reads_toJson.map
      | wildcard l =>
          have hread : ReadsBack True
              (ofJsonWithin? form (n + 1) ((wildcard l).toJson form)) (wildcard l) :=
            .step (read_location l _) (.done rfl)
          rw [kept_iff rfl]
          exact hread.congr (by simp [children])
      | call l name as d =>
          exact reads_node (e := call l name as d) rfl (by simp [children])
            (.step rfl (.step rfl (.step rfl (.rest (reads_list hparts) rfl))))
      | unary l op e =>
          have hop : Json.named? UnaryOp.name UnaryOp.all (.string op.name) = some op := by
            cases op <;> rfl
          exact reads_node (e := unary l op e) rfl (by simp [children])
            (.step rfl (.step hop (.rest (.step rfl (hparts e (by simp [children]))) rfl)))
      | arith l a op b =>
          have hop : Json.named? ArithOp.name ArithOp.all (.string op.name) = some op := by
            cases op <;> rfl
          exact reads_node (e := arith l a op b) rfl (by simp [children])
            (.bind (.step rfl (hparts a (by simp [children]))) (.step rfl (.step hop
              (.rest (.step rfl (hparts b (by simp [children]))) rfl))))
      | compare l a op b =>
          have hop : Json.named? CompareOp.name CompareOp.all (.string op.name) = some op := by
            cases op <;> rfl
          exact reads_node (e := compare l a op b) rfl (by simp [children])
            (.bind (.step rfl (hparts a (by simp [children]))) (.step rfl (.step hop
              (.rest (.step rfl (hparts b (by simp [children]))) rfl))))
      | logic l a op b =>
          have hop : Json.named? LogicOp.name LogicOp.all (.string op.name) = some op := by
            cases op <;> rfl
          exact reads_node (e := logic l a op b) rfl (by simp [children])
            (.bind (.step rfl (hparts a (by simp [children]))) (.step rfl (.step hop
              (.rest (.step rfl (hparts b (by simp [children]))) rfl))))
      | nullIf l a b =>
          exact reads_node (e := nullIf l a b) rfl (by simp [children])
            (.bind (.step rfl (hparts a (by simp [children])))
              (.rest (.step rfl (hparts b (by simp [children]))) rfl))
      | case l o bs e =>
          simp only [children, List.forall_mem_append, Option.mem_toList] at hparts
          obtain ⟨⟨ho, hbs⟩, he⟩ := hparts
          refine reads_node (e := case l o bs e) rfl ?_
            (.step rfl (.bind (reads_option ho) (.step rfl (.bind (reads_branches hbs)
              (.step rfl (.rest (reads_option he) rfl))))))
          have hbranches : (∀ c ∈ bs.flatMap fun b => [b.1, b.2], c.Kept) ↔
              ∀ b ∈ bs, b.1.Kept ∧ b.2.Kept := by
            rw [List.forall_mem_flatMap]
            exact forall₂_congr fun b _ => by simp
          simp only [children, List.forall_mem_append, hbranches, Option.mem_toList, Option.mem_def,
            and_assoc]
      | cast l e t =>
          exact reads_node (e := cast l e t) rfl (by simp [children])
            (.bind (.step rfl (hparts e (by simp [children])))
              (.step rfl (.step (hform t) (.done rfl))))
      | isNull l e neg =>
          exact reads_node (e := isNull l e neg) rfl (by simp [children])
            (.rest (.step rfl (hparts e (by simp [children]))) rfl)
      | between l e lo hi neg =>
          exact reads_node (e := between l e lo hi neg) rfl (by simp [children])
            (.bind (.step rfl (hparts e (by simp [children])))
              (.bind (.step rfl (hparts lo (by simp [children])))
                (.rest (.step rfl (hparts hi (by simp [children]))) rfl)))
      | like l e pattern neg =>
          exact reads_node (e := like l e pattern neg) rfl (by simp [children])
            (.bind (.step rfl (hparts e (by simp [children])))
              (.rest (.step rfl (hparts pattern (by simp [children]))) rfl))
      | inList l e es neg =>
          rw [children, List.forall_mem_cons] at hparts
          exact reads_node (e := inList l e es neg) rfl (by simp [children])
            (.bind (.step rfl hparts.1)
              (.step rfl (.rest (reads_list hparts.2) rfl)))

theorem reads_toJson (hform : form.Lawful) (e : Expr) :
    ReadsBack e.Kept (ofJson? form (e.toJson form)) e :=
  reads_within hform (Nat.le_refl _)

end Expr

end StreamSql
