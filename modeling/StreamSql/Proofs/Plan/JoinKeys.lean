/-
  The keys of a join. The criteria of a join equate two columns of the rows that both sides make up
  together, in either order. The plan has the column of the left side first, and each of the two
  keys means the same field on its own side as in the rows of both (`Oriented`). So it does not
  matter which column the criteria name first: with the two sides of the equality exchanged, a
  statement is planned exactly if it was before, and its plan is the same
  (`compileStatement_exchange`).
-/
import StreamSql.Proofs.Analysis.Resolution
import StreamSql.Proofs.Plan.Folding
import StreamSql.Proofs.Plan.Layers

namespace StreamSql

open Outcome

/-! ## Exchanged criteria -/

/-- The expression with the sides exchanged if it is an equality. -/
def Expr.exchange : Expr → Expr
  | .compare l x .eq y => .compare l y .eq x
  | e => e

def JoinInfo.exchange (j : JoinInfo) : JoinInfo :=
  { j with criteria := j.criteria.exchange }

def Analysis.exchange (s : Analysis) : Analysis :=
  { s with join := s.join.map (·.exchange) }

def Relation.exchange : Relation → Relation
  | .join type left right criteria => .join type left right criteria.exchange
  | r => r

def Query.exchange (q : Query) : Query :=
  { q with source := q.source.exchange }

/-- The statement with the sides of an equality on which it joins exchanged. -/
def Statement.exchange : Statement → Statement
  | .query q => .query q.exchange
  | .create kind name ps q => .create kind name ps q.exchange
  | .insert target q => .insert target q.exchange

theorem Expr.exchange_exchange (e : Expr) : e.exchange.exchange = e := by
  cases e with
  | compare l x op y => cases op <;> rfl
  | _ => rfl

theorem Expr.exchange_eq_iff {e : Expr} {l : Option Location} {x y : Expr} :
    e.exchange = .compare l x .eq y ↔ e = .compare l y .eq x := by
  constructor
  · intro h
    rw [← e.exchange_exchange, h]
    rfl
  · rintro rfl
    rfl

theorem Analysis.exchange_exchange (s : Analysis) : s.exchange.exchange = s := by
  have hjoin : (s.join.map (·.exchange)).map (·.exchange) = s.join := by
    rw [Option.map_map]
    have hid : ((·.exchange) ∘ (·.exchange) : JoinInfo → JoinInfo) = id := by
      funext j
      simp [JoinInfo.exchange, Expr.exchange_exchange]
    rw [hid, Option.map_id_fun, id]
  unfold exchange
  rw [hjoin]

theorem Relation.exchange_exchange (r : Relation) : r.exchange.exchange = r := by
  cases r with
  | table t => rfl
  | join type left right criteria => simp [exchange, Expr.exchange_exchange]

theorem Statement.exchange_exchange (s : Statement) : s.exchange.exchange = s := by
  cases s <;> simp [exchange, Query.exchange, Relation.exchange_exchange]

theorem Statement.body_exchange (s : Statement) : s.exchange.body = s.body.exchange := by
  cases s <;> rfl

namespace Analysis

variable {catalog : Catalog} {config : Config}

theorem target_exchange (st : Statement) : target catalog st.exchange = target catalog st := by
  cases st <;> rfl

/-- Resolving takes the sides of an equality one by one. -/
theorem resolve_exchange {limit : Nat} {schema : Schema} {e e' : Expr}
    (h : resolve limit schema e = .ok e') : resolve limit schema e.exchange = .ok e'.exchange := by
  cases limit with
  | zero => cases h
  | succ n =>
      unfold resolve Expr.replace at h ⊢
      rcases resolved_iff.mp h with ⟨l, c, f, i, rfl, hf, rfl⟩ | ⟨hne, hparts⟩
      · exact h
      · cases hparts with
        | compare l op hx hy =>
            cases op with
            | eq =>
                refine resolved_iff.mpr (Or.inr ⟨fun l c hc => ?_, .compare l .eq hy hx⟩)
                cases hc
            | _ => exact h
        | _ => exact h

theorem relation_exchange {r : Relation} {sources : List Source} {input : Schema}
    {join : Option JoinInfo} (h : relation catalog config r = .ok (sources, input, join)) :
    relation catalog config r.exchange = .ok (sources, input, join.map (·.exchange)) := by
  cases r with
  | table t =>
      rcases relation_inv h with ⟨_, _, _, _, _, _, rfl⟩ | ⟨_, _, _, _, _, _, _, hr, _⟩
      · exact h
      · cases hr
  | join type tl tr on =>
      obtain ⟨left, right, criteria, hl, hr, hq, hon, rfl, rfl, rfl⟩ := relation_join_eq_ok.mp h
      exact relation_join_eq_ok.mpr ⟨left, right, criteria.exchange, hl, hr, hq,
        resolve_exchange hon, rfl, rfl, rfl⟩

theorem ofStatement_exchange {st : Statement} {s : Analysis}
    (h : ofStatement catalog config st = .ok s) :
    ofStatement catalog config st.exchange = .ok s.exchange := by
  obtain ⟨hrelation, hselect, hfilter, hgroupBy, hhaving, htarget, hwindow, hlimit⟩ :=
    ofStatement_eq_ok.mp h
  rw [ofStatement_eq_ok, Statement.body_exchange, target_exchange]
  refine ⟨relation_exchange hrelation, ?_, hfilter, hgroupBy, hhaving, htarget, hwindow, hlimit⟩
  show selectList config s.input (s.join.map (·.exchange)).isSome st.body.select =
    .ok (s.exprs, s.names)
  rw [Option.isSome_map, hselect]

end Analysis

namespace Planner

variable {p : Planner} {s : Analysis} {a : Aggregation} {plan : Plan}

theorem joinPlan_exchange {j : JoinInfo} {left right : Source}
    (h : p.joinPlan j left right = .ok plan) : p.joinPlan j.exchange left right = .ok plan := by
  obtain ⟨hpos, l, leftKey, rightKey, f, g, i, k, hcriteria, hrest⟩ := joinPlan_eq_ok.mp h
  refine joinPlan_eq_ok.mpr ⟨hpos, l, leftKey, rightKey, f, g, i, k, ?_, hrest⟩
  show j.criteria.exchange = _ ∨ j.criteria.exchange = _
  rw [Expr.exchange_eq_iff, Expr.exchange_eq_iff]
  exact hcriteria.symm

/-- The plan of a statement does not show in which order its criteria name the keys. -/
theorem build_exchange (h : p.build s a = .ok plan) : p.build s.exchange a = .ok plan := by
  obtain ⟨base, rows, kept, result, hbase, hrest⟩ := build_eq_ok.mp h
  refine build_eq_ok.mpr ⟨base, rows, kept, result, ?_, hrest⟩
  rw [sources_eq_ok] at hbase ⊢
  rcases hbase with ⟨one, hs, hj, hbase⟩ | ⟨left, right, j, hs, hj, hbase⟩
  · refine Or.inl ⟨one, hs, ?_, hbase⟩
    simp [Analysis.exchange, hj]
  · refine Or.inr ⟨left, right, j.exchange, hs, ?_, joinPlan_exchange hbase⟩
    simp [Analysis.exchange, hj]

theorem compileStatement_exchange {text : String} {st : Statement} {c : Compiled}
    (h : p.compileStatement ⟨text, st⟩ = .ok c) (text' : String) :
    p.compileStatement ⟨text', st.exchange⟩ =
      .ok { c with text := text', analysis := c.analysis.exchange } := by
  obtain ⟨hs, ha, hb, _⟩ := compileStatement_eq_ok.mp h
  exact compileStatement_eq_ok.mpr ⟨Analysis.ofStatement_exchange hs, ha, build_exchange hb, rfl⟩

/-! ## Keys on their own sides -/

/-- The keys of a join, with the fields that they mean and where these stand. The criteria equate
    them in one order or the other, each is found on its own side, and in the rows of both sides the
    right one is found as far on as the left side is wide. -/
structure Oriented (criteria leftKey rightKey : Expr) (left right : Schema) (f g : Field)
    (i k : Nat) : Prop where
  equated : ∃ l, criteria = .compare l leftKey .eq rightKey ∨
    criteria = .compare l rightKey .eq leftKey
  onLeft : left.Finds leftKey f i
  onRight : right.Finds rightKey g k
  leftOfBoth : (left.join right).Finds leftKey f i
  rightOfBoth : (left.join right).Finds rightKey g (left.width + k)
  matching : f.type.matchesForEquality g.type = true

theorem oriented_of_joinPlan {j : JoinInfo} {left right : Source}
    (h : p.joinPlan j left right = .ok plan) :
    ∃ leftKey rightKey f g i k,
      Oriented j.criteria leftKey rightKey left.schema right.schema f g i k ∧
      plan = .join j.type leftKey rightKey (sourcePlan left) (sourcePlan right)
        (left.schema.join right.schema) := by
  obtain ⟨_, l, leftKey, rightKey, f, g, i, k, hcriteria, hf, hi, hg, hk, hmatch, hplan⟩ :=
    joinPlan_eq_ok.mp h
  have hplace : left.schema.width + (k - left.schema.width) = k := Nat.add_sub_cancel' hk
  refine ⟨leftKey, rightKey, f, g, i, k - left.schema.width, ?_, hplan⟩
  exact {
    equated := ⟨l, hcriteria⟩
    onLeft := hf.join_left hi
    onRight := hg.join_right hk
    leftOfBoth := hf
    rightOfBoth := by rwa [hplace]
    matching := hmatch }

/-- The only join of a plan is that of the sources. -/
theorem join_of_placed {type : JoinType} {lk rk : Expr} {l r : Plan} {schema : Schema}
    (h : Placed p s a (.join type lk rk l r schema)) :
    p.sources s = .ok (.join type lk rk l r schema) := by
  cases h with
  | base sources member =>
      rcases mem_operators_sources sources member with ⟨one, hone⟩ | ⟨hjoin, _⟩
      · cases hone
      · exact hjoin
  | groups grouped =>
      obtain ⟨_, _, _, _, _, _, hplan⟩ := grouped_eq_ok.mp grouped
      cases hplan
  | results projected =>
      obtain ⟨_, _, _, hplan⟩ := projected_eq_ok.mp projected
      cases hplan
  | delivery delivers => cases delivers

/-- **The keys of a join.** A plan of a statement that joins two relations has one join. Its keys
    are the two columns of the criteria, each on its own side: there it means the field that it
    means in the rows of both sides. The types of the two can be tested for equality. Criteria that
    name the keys in the other order are planned exactly if these are, to the same plan. -/
theorem build_oriented {catalog : Catalog} {config : Config} {st : Statement} {j : JoinInfo}
    (hs : Analysis.ofStatement catalog config st = .ok s) (hj : s.join = some j) :
    (∀ a plan, p.build s a = .ok plan →
      ∃ leftKey rightKey left right f g i k,
        (∀ type lk rk l r schema, .join type lk rk l r schema ∈ plan.operators ↔
          Plan.join type lk rk l r schema = .join j.type leftKey rightKey left right s.input) ∧
        s.input = left.schema.join right.schema ∧
        Oriented j.criteria leftKey rightKey left.schema right.schema f g i k ∧
        p.typing.infer left.schema leftKey = .ok f.type ∧
        p.typing.infer right.schema rightKey = .ok g.type) ∧
    (∀ a plan, p.build s.exchange a = .ok plan ↔ p.build s a = .ok plan) ∧
    ∀ text text' plan, (∃ c, p.compileStatement ⟨text, st.exchange⟩ = .ok c ∧ c.plan = plan) ↔
      ∃ c, p.compileStatement ⟨text', st⟩ = .ok c ∧ c.plan = plan := by
  refine ⟨fun a plan hb => ?_, fun a plan => ⟨fun hb => ?_, build_exchange⟩,
    fun text text' plan => ⟨?_, ?_⟩⟩
  · obtain ⟨base, hbase, hmem⟩ := sources_of_build hb
    rcases sources_eq_ok.mp hbase with ⟨_, _, hnone, _⟩ | ⟨left, right, j', hsources, hj', hjoin⟩
    · rw [hj] at hnone
      cases hnone
    · rw [hj] at hj'
      cases hj'
      obtain ⟨leftKey, rightKey, f, g, i, k, horiented, rfl⟩ := oriented_of_joinPlan hjoin
      have hpos := (joinPlan_eq_ok.mp hjoin).1
      have hinput : s.input = left.schema.join right.schema := (base_of_sources hs hbase).2.symm
      refine ⟨leftKey, rightKey, sourcePlan left, sourcePlan right, f, g, i, k,
        fun type lk rk l r schema => ⟨fun hq => ?_, fun heq => ?_⟩, hinput, horiented,
        infer_of_finds horiented.onLeft hpos, infer_of_finds horiented.onRight hpos⟩
      · rw [hinput]
        exact Except.ok.inj ((join_of_placed (placed_of_build hb hq)).symm.trans hbase)
      · rw [heq, hinput]
        exact hmem
  · have hback := build_exchange hb
    rwa [Analysis.exchange_exchange] at hback
  · rintro ⟨c, hc, rfl⟩
    have hback := compileStatement_exchange hc text'
    rw [Statement.exchange_exchange] at hback
    exact ⟨_, hback, rfl⟩
  · rintro ⟨c, hc, rfl⟩
    exact ⟨_, compileStatement_exchange hc text, rfl⟩

def shopOrders : Schema :=
  ⟨[⟨some "o", "buyer", .int32⟩, ⟨some "o", "amount", .int32⟩]⟩

def shopUsers : Schema :=
  ⟨[⟨some "u", "id", .int32⟩, ⟨some "u", "name", .utf8⟩]⟩

/-- `u.id = o.buyer`, with the column of the right side first -/
def buyerIsUser : Expr :=
  .compare none (.qualifiedCol "u" "id") .eq (.qualifiedCol "o" "buyer")

def ordersWithUsers : Plan :=
  .join .inner (.qualifiedCol "o" "buyer") (.qualifiedCol "u" "id")
    (.source "orders" (some "o") shopOrders) (.source "users" (some "u") shopUsers)
    (shopOrders.join shopUsers)

/-- The key of the left side comes first in the plan even so, and the plan is the one that
    `o.buyer = u.id` gives. -/
theorem build_oriented_shop :
    ∃ c c', shop.compileStatement ⟨"", shopQuery.statement.exchange⟩ = .ok c ∧
      c.analysis.join = some ⟨.inner, buyerIsUser⟩ ∧ ordersWithUsers ∈ c.plan.operators ∧
      (∃ f g i k, Oriented buyerIsUser (.qualifiedCol "o" "buyer") (.qualifiedCol "u" "id") shopOrders
        shopUsers f g i k) ∧
      shop.compileStatement shopQuery = .ok c' ∧ c'.plan = c.plan := by
  have hview : (fun c => (c.analysis.join, c.plan.operators[6]?)) <$>
      shop.compileStatement ⟨"", shopQuery.statement.exchange⟩ =
      .ok (some ⟨.inner, buyerIsUser⟩, some ordersWithUsers) := by with_unfolding_all rfl
  obtain ⟨c, hc, hview⟩ := map_eq_ok.mp hview
  simp only [Prod.mk.injEq] at hview
  obtain ⟨hjoin, hoperator⟩ := hview
  have hmem := List.mem_of_getElem? hoperator
  obtain ⟨hs, _, hb, _⟩ := compileStatement_eq_ok.mp hc
  obtain ⟨hkeys, _, hsame⟩ := build_oriented (p := shop) hs hjoin
  obtain ⟨_, _, _, _, f, g, i, k, hone, _, horiented, _⟩ := hkeys _ _ hb
  obtain ⟨_, rfl, rfl, rfl, rfl, _⟩ := Plan.join.inj ((hone _ _ _ _ _ _).mp hmem)
  obtain ⟨c', hc', hplan⟩ := (hsame shopQuery.text "" c.plan).mpr ⟨c, hc, rfl⟩
  rw [Statement.exchange_exchange] at hc'
  exact ⟨c, c', hc, hjoin, hmem, ⟨f, g, i, k, horiented⟩, hc', hplan⟩

end Planner

end StreamSql
