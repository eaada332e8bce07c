/-
  Schemas and plans as documents: the planner's `PlanSchema` and `PlanNode` with the encoding that is
  derived for them. A reader of text may refuse what is nested too deep (`Plan.read?`).
-/
import StreamSql.Json.Statement
import StreamSql.Plan.Basic

namespace StreamSql

def Field.toJson (form : TypeForm) (f : Field) : Json :=
  .object [("qualifier", .ofOption .string f.qualifier), ("name", .string f.name),
    ("data_type", form.write f.type)]

def Field.ofJson? (form : TypeForm) (j : Json) : Option Field := do
  return ⟨← (← j.get? "qualifier").optional? Json.string?, ← (← j.get? "name").string?,
    ← form.read? (← j.get? "data_type")⟩

def Schema.toJson (form : TypeForm) (s : Schema) : Json :=
  .object [("fields", .ofList (Field.toJson form) s.fields)]

def Schema.ofJson? (form : TypeForm) (j : Json) : Option Schema := do
  return ⟨← (← j.get? "fields").list? (Field.ofJson? form)⟩

def AggregateCall.toJson (form : TypeForm) (c : AggregateCall) : Json :=
  .object [("call", c.call.toJson form), ("column", .string c.column)]

def AggregateCall.ofJson? (form : TypeForm) (j : Json) : Option AggregateCall := do
  return ⟨← Expr.ofJson? form (← j.get? "call"), ← (← j.get? "column").string?⟩

namespace Plan

def itemJson (form : TypeForm) (item : Expr × String) : Json :=
  .array [item.1.toJson form, .string item.2]

def toJson (form : TypeForm) : Plan → Json
  | source n a s =>
    .tagged "Source" (.object
      [("name", .string n), ("alias", .ofOption .string a), ("schema", s.toJson form)])
  | filter e p s =>
    .tagged "Filter" (.object
      [("predicate", e.toJson form), ("input", p.toJson form), ("schema", s.toJson form)])
  | aggregate keys calls w p s =>
    .tagged "Aggregate" (.object
      [("group_keys", .ofList (Expr.toJson form) keys),
        ("aggregates", .ofList (AggregateCall.toJson form) calls),
        ("window", .ofOption Window.toJson w), ("input", p.toJson form), ("schema", s.toJson form)])
  | project items p s =>
    .tagged "Project" (.object
      [("exprs", .ofList (itemJson form) items), ("input", p.toJson form), ("schema", s.toJson form)])
  | join t lk rk l r s =>
    .tagged "Join" (.object
      [("join_type", .string t.text), ("left_key", lk.toJson form), ("right_key", rk.toJson form),
        ("left", l.toJson form), ("right", r.toJson form), ("schema", s.toJson form)])
  | limit n p s =>
    .tagged "Limit" (.object [("n", .ofNat n), ("input", p.toJson form), ("schema", s.toJson form)])
  | sink t k c ps p s =>
    .tagged "Sink" (.object
      [("target", .string t), ("kind", .string k.name), ("creates_target", .bool c),
        ("properties", propertiesJson ps), ("input", p.toJson form), ("schema", s.toJson form)])

/-- The plan with the given tag and parts; `sub` reads a plan that it reads from. -/
def ofTagged? (form : TypeForm) (sub : Json → Option Plan) (tag : String) (v : Json) :
    Option Plan := do
  let s ← Schema.ofJson? form (← v.get? "schema")
  let input := fun (_ : Unit) => do sub (← v.get? "input")
  match tag with
  | "Source" =>
    return source (← (← v.get? "name").string?) (← (← v.get? "alias").optional? Json.string?) s
  | "Filter" => return filter (← Expr.ofJson? form (← v.get? "predicate")) (← input ()) s
  | "Aggregate" =>
    return aggregate (← (← v.get? "group_keys").list? (Expr.ofJson? form))
      (← (← v.get? "aggregates").list? (AggregateCall.ofJson? form))
      (← (← v.get? "window").optional? Window.ofJson?) (← input ()) s
  | "Project" =>
    return project (← (← v.get? "exprs").list? (Json.pair? (Expr.ofJson? form) Json.string?))
      (← input ()) s
  | "Join" =>
    return join (← (← v.get? "join_type").named? JoinType.text JoinType.all)
      (← Expr.ofJson? form (← v.get? "left_key")) (← Expr.ofJson? form (← v.get? "right_key"))
      (← sub (← v.get? "left")) (← sub (← v.get? "right")) s
  | "Limit" => return limit (← (← v.get? "n").nat? 64) (← input ()) s
  | "Sink" =>
    return sink (← (← v.get? "target").string?) (← (← v.get? "kind").named? SinkKind.name SinkKind.all)
      (← (← v.get? "creates_target").bool?) (← propertiesOfJson? (← v.get? "properties")) (← input ()) s
  | _ => none

/-- The plan of a document with at most so many arrays and objects inside each other. -/
def ofJsonWithin? (form : TypeForm) : Nat → Json → Option Plan
  | 0, _ => none
  | n + 1, j => do
    let (tag, v) ← j.tagged?
    ofTagged? form (ofJsonWithin? form n) tag v

/-- The plan that a document holds. -/
def ofJson? (form : TypeForm) (j : Json) : Option Plan :=
  ofJsonWithin? form j.nesting j

/-- The plan that a document holds, for a reader that takes so many arrays and objects inside each
    other. -/
def read? (form : TypeForm) (limit : Nat) (j : Json) : Option Plan :=
  if j.nesting ≤ limit then ofJson? form j else none

/-- Writing the plan as a document and reading it back gives the same plan. -/
def survives (p : Plan) : Bool :=
  match ofJson? .standard (p.toJson .standard) with
  | some q => p.same q
  | none => false

end Plan

end StreamSql
