/-
  Logical plans, the planner's `PlanNode`: trees of operators on rows, each with the schema of the
  rows it gives (`output_schema`).
-/
import StreamSql.Aggregation

namespace StreamSql

/-- A logical plan. An aggregate gives the columns of its input and one more for each call; a join
    takes the rows whose keys are equal; a sink writes its input into a relation. -/
inductive Plan where
  | source (name : String) (aliasName : Option String) (schema : Schema)
  | filter (predicate : Expr) (input : Plan) (schema : Schema)
  | aggregate (keys : List Expr) (calls : List AggregateCall) (window : Option Window) (input : Plan)
      (schema : Schema)
  | project (items : List (Expr × String)) (input : Plan) (schema : Schema)
  | join (type : JoinType) (leftKey rightKey : Expr) (left right : Plan) (schema : Schema)
  | limit (count : Nat) (input : Plan) (schema : Schema)
  | sink (target : String) (kind : SinkKind) (creates : Bool) (properties : List (String × String))
      (input : Plan) (schema : Schema)
  deriving Inhabited

namespace Plan

/-- The schema of the rows that a plan gives. -/
def schema : Plan → Schema
  | source _ _ s | filter _ _ s | aggregate _ _ _ _ s | project _ _ s | join _ _ _ _ _ s | limit _ _ s
  | sink _ _ _ _ _ s => s

/-- The plans that a plan reads from. -/
def inputs : Plan → List Plan
  | source _ _ _ => []
  | filter _ p _ | aggregate _ _ _ p _ | project _ p _ | limit _ p _ | sink _ _ _ _ p _ => [p]
  | join _ _ _ l r _ => [l, r]

def name : Plan → String
  | source _ _ _ => "Source"
  | filter _ _ _ => "Filter"
  | aggregate _ _ _ _ _ => "Aggregate"
  | project _ _ _ => "Project"
  | join _ _ _ _ _ _ => "Join"
  | limit _ _ _ => "Limit"
  | sink _ _ _ _ _ _ => "Sink"

/-- The operators of a plan, each before those it reads from. -/
def operators : Plan → List Plan
  | source n a s => [source n a s]
  | filter e p s => filter e p s :: operators p
  | aggregate ks cs w p s => aggregate ks cs w p s :: operators p
  | project es p s => project es p s :: operators p
  | join t lk rk l r s => join t lk rk l r s :: (operators l ++ operators r)
  | limit n p s => limit n p s :: operators p
  | sink t k c ps p s => sink t k c ps p s :: operators p

/-! ## Equality without positions -/

/-- The same aggregate calls in the same order. -/
def sameCalls : List AggregateCall → List AggregateCall → Bool
  | [], [] => true
  | c :: cs, d :: ds => c.call.same d.call && c.column == d.column && sameCalls cs ds
  | _, _ => false

/-- The same columns of a projection in the same order. -/
def sameItems : List (Expr × String) → List (Expr × String) → Bool
  | [], [] => true
  | (e, n) :: es, (f, m) :: fs => e.same f && n == m && sameItems es fs
  | _, _ => false

/-- The same plan, positions left out. -/
def same : Plan → Plan → Bool
  | source n a s, source n' a' s' => n == n' && a == a' && s == s'
  | filter e p s, filter e' p' s' => e.same e' && same p p' && s == s'
  | aggregate ks cs w p s, aggregate ks' cs' w' p' s' =>
    Expr.sameList ks ks' && sameCalls cs cs' && w == w' && same p p' && s == s'
  | project es p s, project es' p' s' => sameItems es es' && same p p' && s == s'
  | join t lk rk l r s, join t' lk' rk' l' r' s' =>
    t == t' && lk.same lk' && rk.same rk' && same l l' && same r r' && s == s'
  | limit n p s, limit n' p' s' => n == n' && same p p' && s == s'
  | sink t k c ps p s, sink t' k' c' ps' p' s' =>
    t == t' && k == k' && c == c' && ps == ps' && same p p' && s == s'
  | _, _ => false

end Plan

end StreamSql
