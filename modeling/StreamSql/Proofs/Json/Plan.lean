/-
  Plans (`PlanNode`) read back from their documents. A plan comes back as it was, in every field and
  with every position, if its numbers fit where they are written and its doubles are finite; if one
  of them is infinite or NaN, nothing comes back. A reader of text, such as `from_str` of the
  `serde_json` library with its limit of 127, also needs the document to be nested no deeper than it
  takes (`Plan.ofJson?_toJson`).
-/
import StreamSql.Json.Plan
import StreamSql.Proofs.Json.Expr

namespace StreamSql

/-! ## Windows -/

/-- The whole seconds of the duration are written with 64 bits. -/
def Duration.Fits (d : Duration) : Prop :=
  d.seconds < 1 <<< 64

theorem Duration.reads_toJson (d : Duration) : ReadsBack d.Fits (ofJson? d.toJson) d := by
  have hsubsecond : d.subsecond < 1 <<< 32 := by
    unfold subsecond
    omega
  have hnanos : (⟨d.seconds * 1000000000 + d.subsecond⟩ : Duration) = d := by
    obtain ⟨nanos⟩ := d
    simp only [seconds, subsecond, mk.injEq]
    omega
  have hread : ReadsBack (d.Fits ∧ d.subsecond < 1 <<< 32) (ofJson? d.toJson)
      ⟨d.seconds * 1000000000 + d.subsecond⟩ :=
    .step rfl (.bind (Json.reads_nat 64 d.seconds)
      (.step rfl (.rest (Json.reads_nat 32 d.subsecond) rfl)))
  rw [hnanos] at hread
  exact hread.congr (and_iff_left hsubsecond)

def Window.Fits : Window → Prop
  | .tumbling size => size.Fits
  | .hopping size advance => size.Fits ∧ advance.Fits
  | .session gap => gap.Fits

theorem Window.reads_toJson (w : Window) : ReadsBack w.Fits (ofJson? w.toJson) w := by
  cases w with
  | tumbling size => exact .step rfl (.step rfl (.rest size.reads_toJson rfl))
  | hopping size advance =>
      exact .step rfl (.step rfl (.bind size.reads_toJson (.step rfl (.rest advance.reads_toJson rfl))))
  | session gap => exact .step rfl (.step rfl (.rest gap.reads_toJson rfl))

theorem Window.toJson_ne_null (w : Window) : w.toJson ≠ .null := by
  cases w <;> simp [toJson, Json.tagged]

/-! ## Schemas, calls and properties -/

section

variable {form : TypeForm} (hform : form.Lawful)
include hform

theorem Field.read_toJson (f : Field) : ofJson? form (f.toJson form) = some f := by
  have hwritten : ofJson? form (f.toJson form) = (do
      return ⟨← Json.optional? Json.string? (.ofOption .string f.qualifier), f.name,
        ← form.read? (form.write f.type)⟩) := rfl
  rw [hwritten, Json.optional?_string, hform]
  rfl

theorem Schema.read_toJson (s : Schema) : ofJson? form (s.toJson form) = some s := by
  have hread : ReadsBack (∀ f ∈ s.fields, True) (ofJson? form (s.toJson form)) s :=
    .step rfl (.rest (.step rfl (.mapM fun f _ => .done (f.read_toJson hform))) rfl)
  exact hread.1 fun _ _ => trivial

theorem AggregateCall.reads_toJson (c : AggregateCall) :
    ReadsBack c.call.Kept (ofJson? form (c.toJson form)) c :=
  .step rfl (.rest (c.call.reads_toJson hform) rfl)

end

theorem reads_properties (ps : List (String × String)) :
    ReadsBack True (propertiesOfJson? (propertiesJson ps)) ps := by
  have hall : ReadsBack (∀ p ∈ ps, True) (propertiesOfJson? (propertiesJson ps)) ps :=
    .step rfl (.mapM fun p _ => .step rfl (.step rfl (.done rfl)))
  exact hall.congr (by simp)

/-! ## Plans -/

namespace Plan

/-- The expressions that an operator has itself. -/
def exprs : Plan → List Expr
  | filter e _ _ => [e]
  | aggregate keys calls _ _ _ => keys ++ calls.map AggregateCall.call
  | project items _ _ => items.map Prod.fst
  | join _ leftKey rightKey _ _ _ => [leftKey, rightKey]
  | source _ _ _ | limit _ _ _ | sink _ _ _ _ _ _ => []

def window? : Plan → Option Window
  | aggregate _ _ w _ _ => w
  | _ => none

def count? : Plan → Option Nat
  | limit n _ _ => some n
  | _ => none

/-- The window and the number of rows of the operator itself fit where they are written. -/
def OperatorFits (p : Plan) : Prop :=
  (∀ w ∈ p.window?, w.Fits) ∧ ∀ n ∈ p.count?, n < 1 <<< 64

/-- Every number in the plan fits where it is written. -/
def Fits (p : Plan) : Prop :=
  ∀ o ∈ p.operators, o.OperatorFits

/-- The double is a constant of the plan. -/
def HasDouble (p : Plan) (d : Double) : Prop :=
  ∃ o ∈ p.operators, ∃ e ∈ o.exprs, e.HasDouble d

/-- The plan is not changed by being written and read. -/
def Kept (p : Plan) : Prop :=
  ∀ o ∈ p.operators, o.OperatorFits ∧ ∀ e ∈ o.exprs, e.Kept

theorem operators_eq (p : Plan) : p.operators = p :: p.inputs.flatMap operators := by
  cases p <;> simp [operators, inputs]

theorem kept_iff {p : Plan} :
    p.Kept ↔ p.OperatorFits ∧ (∀ e ∈ p.exprs, e.Kept) ∧ ∀ q ∈ p.inputs, q.Kept := by
  unfold Kept
  rw [operators_eq, List.forall_mem_cons, List.forall_mem_flatMap, and_assoc]

/-! ### Nesting -/

section

variable (form : TypeForm)

theorem nesting_toJson_pos (p : Plan) : 0 < (p.toJson form).nesting := by
  cases p <;> simp [toJson, Json.nesting_tagged]

/-- The document of an input is inside that of the whole plan. -/
theorem nesting_input {p q : Plan} (h : q ∈ p.inputs) :
    (q.toJson form).nesting < (p.toJson form).nesting := by
  cases p with
  | source n a s => cases h
  | filter | aggregate | project | join | limit | sink =>
      simp only [inputs, List.mem_cons, List.not_mem_nil, or_false] at h
      simp only [toJson, Json.nesting_tagged, Json.nesting, Json.nestingMembers]
      rcases h with rfl | rfl <;> omega

end

/-! ### What comes back -/

section

variable {form : TypeForm} (hform : form.Lawful)
include hform

theorem reads_item (item : Expr × String) :
    ReadsBack item.1.Kept (Json.pair? (Expr.ofJson? form) Json.string? (itemJson form item)) item :=
  .rest (item.1.reads_toJson hform) rfl

omit hform in
/-- An operator comes back if the rest of what it holds does. -/
theorem reads_operator {good : Prop} {n : Nat} {tag : String} {v : Json} {p : Plan}
    (hgood : good ↔ (∀ w ∈ p.window?, w.Fits) ∧ (∀ n ∈ p.count?, n < 1 <<< 64) ∧
      (∀ e ∈ p.exprs, e.Kept) ∧ ∀ q ∈ p.inputs, q.Kept)
    (h : ReadsBack good (ofTagged? form (ofJsonWithin? form n) tag v) p) :
    ReadsBack p.Kept (ofJsonWithin? form (n + 1) (.tagged tag v)) p := by
  have hread : ReadsBack good (ofJsonWithin? form (n + 1) (.tagged tag v)) p := .step rfl h
  refine hread.congr ?_
  rw [kept_iff, OperatorFits, hgood]
  simp only [and_assoc]

/-- A plan comes back from its document exactly if its numbers fit and its doubles are finite; if
    not, nothing does. -/
theorem reads_within {n : Nat} {p : Plan} (hn : (p.toJson form).nesting ≤ n) :
    ReadsBack p.Kept (ofJsonWithin? form n (p.toJson form)) p := by
  induction n generalizing p with
  | zero =>
      have := nesting_toJson_pos form p
      omega
  | succ n ih =>
      have hinputs : ∀ q ∈ p.inputs,
          ReadsBack q.Kept (ofJsonWithin? form n (q.toJson form)) q := by
        intro q hq
        have := nesting_input form hq
        exact ih (by omega)
      clear ih hn
      cases p with
      | source name aliasName s =>
          exact reads_operator (p := source name aliasName s) (by simp [window?, count?, exprs, inputs])
            (.step rfl (.step (s.read_toJson hform)
              (.step rfl (.step rfl (.step rfl (.step (Json.optional?_string aliasName) (.done rfl)))))))
      | filter e q s =>
          have hq := hinputs q List.mem_cons_self
          exact reads_operator (p := filter e q s) (by simp [window?, count?, exprs, inputs])
            (.step rfl (.step (s.read_toJson hform)
              (.step rfl (.bind (e.reads_toJson hform) (.rest (.step rfl hq) rfl)))))
      | aggregate keys calls w q s =>
          have hq := hinputs q List.mem_cons_self
          have hkeys : ReadsBack (∀ e ∈ keys, e.Kept)
              (Json.list? (Expr.ofJson? form) (.ofList (Expr.toJson form) keys)) keys :=
            .step rfl (.mapM fun e _ => (e.reads_toJson hform))
          have hcalls : ReadsBack (∀ c ∈ calls, c.call.Kept)
              (Json.list? (AggregateCall.ofJson? form) (.ofList (AggregateCall.toJson form) calls))
              calls :=
            .step rfl (.mapM fun c _ => c.reads_toJson hform)
          have hwindow : ReadsBack (∀ w' ∈ w, w'.Fits)
              (Json.optional? Window.ofJson? (.ofOption Window.toJson w)) w :=
            .optional Window.toJson_ne_null fun w' _ => w'.reads_toJson
          refine reads_operator (p := aggregate keys calls w q s) ?_
            (.step rfl (.step (s.read_toJson hform) (.step rfl (.bind hkeys (.step rfl (.bind hcalls
              (.step rfl (.bind hwindow (.rest (.step rfl hq) rfl)))))))))
          simp only [window?, count?, exprs, inputs, List.forall_mem_append, List.forall_mem_map,
            List.forall_mem_singleton, Option.not_mem_none, false_imp_iff, implies_true, true_and]
          tauto
      | project items q s =>
          have hq := hinputs q List.mem_cons_self
          have hitems : ReadsBack (∀ i ∈ items, i.1.Kept)
              (Json.list? (Json.pair? (Expr.ofJson? form) Json.string?) (.ofList (itemJson form) items))
              items :=
            .step rfl (.mapM fun i _ => reads_item hform i)
          exact reads_operator (p := project items q s) (by simp [window?, count?, exprs, inputs])
            (.step rfl (.step (s.read_toJson hform)
              (.step rfl (.bind hitems (.rest (.step rfl hq) rfl)))))
      | join type leftKey rightKey left right s =>
          have hl := hinputs left List.mem_cons_self
          have hr := hinputs right (List.mem_cons_of_mem _ List.mem_cons_self)
          have htype : Json.named? JoinType.text JoinType.all (.string type.text) = some type := by
            cases type <;> rfl
          exact reads_operator (p := join type leftKey rightKey left right s)
            (by simp [window?, count?, exprs, inputs, and_assoc])
            (.step rfl (.step (s.read_toJson hform) (.step rfl (.step htype
              (.step rfl (.bind (leftKey.reads_toJson hform)
                (.step rfl (.bind (rightKey.reads_toJson hform)
                  (.step rfl (.bind hl (.step rfl (.rest hr rfl))))))))))))
      | limit count q s =>
          have hq := hinputs q List.mem_cons_self
          exact reads_operator (p := limit count q s) (by simp [window?, count?, exprs, inputs])
            (.step rfl (.step (s.read_toJson hform)
              (.step rfl (.bind (Json.reads_nat 64 count) (.rest (.step rfl hq) rfl)))))
      | sink target kind creates properties q s =>
          have hq := hinputs q List.mem_cons_self
          have hkind : Json.named? SinkKind.name SinkKind.all (.string kind.name) = some kind := by
            cases kind <;> rfl
          exact reads_operator (p := sink target kind creates properties q s)
            (by simp [window?, count?, exprs, inputs])
            (.step rfl (.step (s.read_toJson hform) (.step rfl (.step rfl (.step rfl (.step hkind
              (.step rfl (.step rfl (.step rfl (.step ((reads_properties properties).1 trivial)
                (.rest (.step rfl hq) rfl)))))))))))

theorem reads_toJson (p : Plan) : ReadsBack p.Kept (ofJson? form (p.toJson form)) p :=
  reads_within hform (Nat.le_refl _)

end

/-- The sum of `n + 1` times the column `x`. -/
def repeated : Nat → Expr
  | 0 => .col "x"
  | n + 1 => .arith none (repeated n) .add (.col "x")

end Plan

end StreamSql
