/-
  The types of folded plans. The columns of a projection get their types before its expressions are
  folded. What is folded has a type no wider than that, or it has none: arithmetic on a string and a
  NULL that folding brought in is the only way to lose the type (`Describes`). So the schema of a
  projection bounds the types of its expressions, and a folded condition that has a type is a truth
  value or NULL (`folded_types`).
-/
import StreamSql.Proofs.Plan.Folding
import StreamSql.Proofs.Typing.Simplified

namespace StreamSql

open Outcome

/-! ## Expressions -/

namespace Typing

variable {t : Typing} {s : Schema} {e e' : Expr} {type type' : DataType} {limit : Nat}

/-- The type bounds that of the expression, which has one unless it mixes a string with NULL. -/
structure Describes (t : Typing) (s : Schema) (type : DataType) (e : Expr) : Prop where
  typed : (∃ type', t.infer s e = .ok type') ↔ ¬Mixes t s e
  narrows : ∀ type', t.infer s e = .ok type' → type'.Narrows type

theorem describes_of_infer (h : t.infer s e = .ok type) : Describes t s type e where
  typed := ⟨fun _ => (typed_of_infer h).not_mixes, fun _ => ⟨type, h⟩⟩
  narrows type' h' := by
    rw [Except.ok.inj (h'.symm.trans h)]
    exact .same type

theorem Describes.widen (h : Describes t s type e) (hw : type.Narrows type') :
    Describes t s type' e where
  typed := h.typed
  narrows x hx := (h.narrows x hx).trans hw

theorem describes_of_becomes (hb : Becomes t s e e') (h : Typed t s e type)
    (hheight : e'.height ≤ t.limit) : Describes t s type e' where
  typed := by
    simp only [infer_eq_ok hheight]
    refine ⟨fun ⟨_, h'⟩ => h'.not_mixes, fun hmixes => ?_⟩
    obtain ⟨type', h', _⟩ := hb.typed hmixes h
    exact ⟨type', h'⟩
  narrows type' h' := by
    rw [infer_eq_ok hheight] at h'
    obtain ⟨x, hx, hfollows⟩ := hb.typed h'.not_mixes h
    rw [h'.unique hx]
    exact hfollows.narrows

/-- Arithmetic on a string and NULL has NULL among its operands. -/
theorem Solid.not_mixes (h : Solid t s e) : ¬Mixes t s e := by
  rintro ⟨x, hx, l, a, op, b, ta, tb, rfl, ha, hb, ⟨_, rfl⟩ | ⟨rfl, _⟩⟩
  · exact h _ hx b (by simp [operands]) hb
  · exact h _ hx a (by simp [operands]) ha

theorem infer_of_becomes (hb : Becomes t s e e') (h : Typed t s e type)
    (hheight : e'.height ≤ t.limit) (hu : Uniform t s e) (hs : Solid t s e') :
    ∃ type', t.infer s e' = .ok type' ∧ (type' = type ∨ type' = .null) := by
  obtain ⟨type', h', hfollows⟩ := hb.typed hs.not_mixes h
  exact ⟨type', (infer_eq_ok hheight).mpr h', hfollows.kept hu hs⟩

end Typing

/-! ## Plans -/

open Typing

/-- What an operator evaluates has the types that go with it: a truth value for a condition, the
    types of its columns for a projection. -/
def Plan.WellTyped (t : Typing) : Plan → Prop
  | filter e input _ => Describes t input.schema .boolean e
  | project items input schema =>
    List.Forall₂ (fun item f => Describes t input.schema f.type item.1) items schema.fields
  | _ => True

namespace Planner

variable {p : Planner} {s : Analysis} {a : Aggregation} {input plan q : Plan}

theorem describes_of_fold {schema : Schema} {e e' : Expr} {type : DataType}
    (h : p.typing.infer schema e = .ok type) (hfold : p.fold e = .ok e') :
    Describes p.typing schema type e' := by
  unfold fold at hfold
  split at hfold
  · exact describes_of_becomes (becomes_simplifyWithin hfold) (typed_of_infer h)
      (Expr.height_of_simplifyWithin hfold)
  · cases hfold
    exact describes_of_infer h

/-- A condition is a truth value, or NULL, which is narrower. -/
theorem describes_of_checkPredicate {schema : Schema} {clause : String} {e e' : Expr}
    (h : p.typing.checkPredicate schema clause e = .ok ())
    (hdescribes : ∀ type, p.typing.infer schema e = .ok type → Describes p.typing schema type e') :
    Describes p.typing schema .boolean e' := by
  obtain ⟨type, htype, rfl | rfl⟩ := checkPredicate_eq_ok.mp h
  · exact hdescribes _ htype
  · exact (hdescribes _ htype).widen (.null _)

theorem wellTyped_sources (h : p.sources s = .ok plan) (hq : q ∈ plan.operators) :
    q.WellTyped p.typing := by
  rcases mem_operators_sources h hq with ⟨one, rfl⟩ | ⟨_, _, _, _, _, _, hjoin⟩
  · trivial
  · obtain ⟨lk, rk, rfl⟩ := join_of_joinPlan hjoin
    trivial

theorem wellTyped_projected {exprs : List Expr} {names : List String}
    (h : p.projected exprs names input = .ok plan) : plan.WellTyped p.typing := by
  obtain ⟨_, columns, hcolumns, rfl⟩ := projected_eq_ok.mp h
  refine List.forall₂_map_left_iff.mpr (List.forall₂_map_right_iff.mpr
    (List.forall₂_same.mpr fun column hcolumn => ?_))
  obtain ⟨item, _, type, e', htype, hfold, rfl⟩ := exists_left hcolumns hcolumn
  exact describes_of_fold htype hfold

/-- Every operator of a plan is well typed. -/
theorem wellTyped_build (h : p.build s a = .ok plan) (hq : q ∈ plan.operators) :
    q.WellTyped p.typing := by
  cases placed_of_build h hq with
  | base sources member => exact wellTyped_sources sources member
  | rows asked reads check folded =>
      exact describes_of_checkPredicate check fun type htype => describes_of_fold htype folded
  | groups grouped =>
      obtain ⟨_, _, _, _, _, _, rfl⟩ := grouped_eq_ok.mp grouped
      trivial
  | having asked groups check =>
      exact describes_of_checkPredicate check fun type htype => describes_of_infer htype
  | results projected => exact wellTyped_projected projected
  | delivery delivers =>
      cases q with
      | limit | sink => trivial
      | _ => cases delivers

/-- Simplification narrows the type of an expression or takes it away, the latter exactly if it
    brings a string and NULL together in arithmetic. Where the outcomes of each case agree and no
    NULL came to stand among operands and arguments, the type is the one that was there, or that of
    NULL. The columns of a projection and the conditions of filters describe what a plan evaluates
    in this sense. -/
theorem folded_types (p : Planner) :
    (∀ (s : Schema) (e : Expr) (type : DataType) (limit : Nat), p.typing.infer s e = .ok type →
      e.levels ≤ limit → limit ≤ p.config.maxDepth →
      ∃ e', e.simplify limit = .ok e' ∧ Describes p.typing s type e' ∧
        (Uniform p.typing s e → Solid p.typing s e' →
          ∃ type', p.typing.infer s e' = .ok type' ∧ (type' = type ∨ type' = .null))) ∧
    ∀ (text : Prepared) (c : Compiled), p.compileStatement text = .ok c →
      ∀ q ∈ c.plan.operators, q.WellTyped p.typing := by
  refine ⟨fun s e type limit htype hlevels hlimit => ?_, fun text c hc q hq => ?_⟩
  · obtain ⟨e', he'⟩ := Expr.exists_simplify_iff.mpr hlevels
    have hbecomes : Becomes p.typing s e e' := becomes_simplifyWithin he'
    have hheight : e'.height ≤ p.typing.limit :=
      Nat.le_trans (Expr.height_of_simplifyWithin he') hlimit
    have htyped := typed_of_infer htype
    exact ⟨e', he', describes_of_becomes hbecomes htyped hheight,
      infer_of_becomes hbecomes htyped hheight⟩
  · obtain ⟨_, _, hb, _⟩ := compileStatement_eq_ok.mp hc
    exact wellTyped_build hb hq

/-- `level` and a constant sum, whose type folding keeps. -/
def raised (sum : Expr) : Expr :=
  .arith none (.col "level") .add sum

def readingsSchema : Schema :=
  .ofRelation "readings" [⟨"sensor", .utf8, true⟩, ⟨"level", .int32, true⟩]

theorem folded_types_readings :
    ∃ e' c, (readings 4).typing.infer readingsSchema (raised (constantSum 1 2)) = .ok .int32 ∧
      (raised (constantSum 1 2)).simplify 3 = .ok e' ∧
      Uniform (readings 4).typing readingsSchema (raised (constantSum 1 2)) ∧
      Solid (readings 4).typing readingsSchema e' ∧
      (∃ type', (readings 4).typing.infer readingsSchema e' = .ok type' ∧
        (type' = .int32 ∨ type' = .null)) ∧
      ((readings 4).folding true).compileStatement readingsQuery = .ok c ∧
      ∀ q ∈ c.plan.operators, q.WellTyped (readings 4).typing := by
  have htype : (readings 4).typing.infer readingsSchema (raised (constantSum 1 2)) = .ok .int32 := rfl
  have hplan : (fun _ => ()) <$> ((readings 4).folding true).compileStatement readingsQuery =
      .ok () := rfl
  obtain ⟨c, hc, _⟩ := map_eq_ok.mp hplan
  obtain ⟨e', he', _, hkept⟩ := (folded_types (readings 4)).1 _ _ _ 3 htype (by decide) (by decide)
  have hfolded : e' = raised (.lit (.integer 3)) := (Except.ok.inj he').symm
  have huniform : Uniform (readings 4).typing readingsSchema (raised (constantSum 1 2)) := by
    have hleaf : ∀ {e : Expr}, e.children = [] → (∀ l o bs els, e ≠ .case l o bs els) →
        Uniform (readings 4).typing readingsSchema e := fun hc hne =>
      uniform_of_children (fun l o bs els he => absurd he (hne l o bs els)) (by simp [hc])
    refine uniform_of_children (by simp [raised]) fun x hx => ?_
    rcases List.mem_pair.mp hx with rfl | rfl
    · exact hleaf rfl (by simp [Expr.col])
    · refine uniform_of_children (by simp [constantSum]) fun y hy => ?_
      rcases List.mem_pair.mp hy with rfl | rfl
      · exact hleaf rfl (by simp [Expr.lit])
      · exact hleaf rfl (by simp [Expr.lit])
  have hsolid : Solid (readings 4).typing readingsSchema e' := by
    have hint : ∀ x ∈ [Expr.col "level", Expr.lit (.integer 3)],
        Typed (readings 4).typing readingsSchema x .int32 := by
      intro x hx
      rcases List.mem_pair.mp hx with rfl | rfl
      · exact ⟨1, rfl⟩
      · exact ⟨1, rfl⟩
    rw [hfolded]
    intro x hx y hy hnull
    cases hx with
    | self => cases (hint y hy).unique hnull
    | part member inner =>
        rcases List.mem_pair.mp member with rfl | rfl
        · cases inner with
          | self => simp [operands, Expr.col] at hy
          | part member => simp [Expr.col, Expr.children] at member
        · cases inner with
          | self => simp [operands, Expr.lit] at hy
          | part member => simp [Expr.lit, Expr.children] at member
  exact ⟨e', c, htype, he', huniform, hsolid, hkept huniform hsolid, hc,
    (folded_types ((readings 4).folding true)).2 _ c hc⟩

/-- `sensor + NULLIF('a', 'a')` is a string; folded, it is a string and NULL. -/
def tagged (e : Expr) : Expr :=
  .arith none (.col "sensor") .add e

def taggedQuery : Prepared where
  text := "SELECT sensor + NULLIF('a', 'a') AS tag FROM readings"
  statement := .query {
    select := [.expr (tagged (.nullIf none (.lit (.string "a")) (.lit (.string "a")))) (some "tag")]
    source := .table ⟨"readings", none, none⟩ }

/-- A result with a type is folded to one without, and the plan keeps the type for its column. -/
theorem exists_untyped_result :
    (readings 4).typing.infer readingsSchema
        (tagged (.nullIf none (.lit (.string "a")) (.lit (.string "a")))) = .ok .utf8 ∧
      (tagged (.nullIf none (.lit (.string "a")) (.lit (.string "a")))).simplify 4 =
        .ok (tagged .null) ∧
      (∀ type, (readings 4).typing.infer readingsSchema (tagged .null) ≠ .ok type) ∧
      ∃ c input, ((readings 4).folding true).compileStatement taggedQuery = .ok c ∧
        input.schema = readingsSchema ∧
        c.plan = .project [(tagged .null, "tag")] input ⟨[⟨none, "tag", .utf8⟩]⟩ := by
  refine ⟨rfl, rfl, fun type h => ?_, ?_⟩
  · cases h
  · have hview : Compiled.plan <$> ((readings 4).folding true).compileStatement taggedQuery =
        .ok (.project [(tagged .null, "tag")] (.source "readings" none readingsSchema)
          ⟨[⟨none, "tag", .utf8⟩]⟩) := rfl
    obtain ⟨c, hc, hplan⟩ := map_eq_ok.mp hview
    exact ⟨c, _, hc, rfl, hplan⟩

end Planner

end StreamSql
