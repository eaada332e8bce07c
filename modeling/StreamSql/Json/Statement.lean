/-
  Statements and windows as documents: the planner's `Statement`, `Query`, `Relation` and
  `WindowExpression` with the encoding that is derived for them.
-/
import StreamSql.Json.Expr
import StreamSql.Statement

namespace StreamSql

def Duration.toJson (d : Duration) : Json :=
  .object [("secs", .ofNat d.seconds), ("nanos", .ofNat d.subsecond)]

def Duration.ofJson? (j : Json) : Option Duration := do
  let s ← (← j.get? "secs").nat? 64
  let n ← (← j.get? "nanos").nat? 32
  return ⟨s * 1000000000 + n⟩

def Window.toJson : Window → Json
  | .tumbling size => .tagged "Tumbling" (.object [("size", size.toJson)])
  | .hopping size advance =>
    .tagged "Hopping" (.object [("size", size.toJson), ("advance", advance.toJson)])
  | .session gap => .tagged "Session" (.object [("gap", gap.toJson)])

def Window.ofJson? (j : Json) : Option Window := do
  let (tag, v) ← j.tagged?
  match tag with
  | "Tumbling" => return .tumbling (← Duration.ofJson? (← v.get? "size"))
  | "Hopping" =>
    return .hopping (← Duration.ofJson? (← v.get? "size")) (← Duration.ofJson? (← v.get? "advance"))
  | "Session" => return .session (← Duration.ofJson? (← v.get? "gap"))
  | _ => none

def SelectItem.toJson (form : TypeForm) : SelectItem → Json
  | .expr e a => .tagged "Expression" (.object [("expr", e.toJson form), ("alias", .ofOption .string a)])
  | .all q l =>
    .tagged "Wildcard" (.object
      [("qualifier", .ofOption .string q), ("location", .ofOption Location.toJson l)])

def SelectItem.ofJson? (form : TypeForm) (j : Json) : Option SelectItem := do
  let (tag, v) ← j.tagged?
  match tag with
  | "Expression" =>
    return .expr (← Expr.ofJson? form (← v.get? "expr")) (← (← v.get? "alias").optional? Json.string?)
  | "Wildcard" =>
    return .all (← (← v.get? "qualifier").optional? Json.string?)
      (← (← v.get? "location").optional? Location.ofJson?)
  | _ => none

def TableRef.toJson (t : TableRef) : Json :=
  .object [("name", .string t.name), ("alias", .ofOption .string t.aliasName),
    ("location", .ofOption Location.toJson t.location)]

def TableRef.ofJson? (j : Json) : Option TableRef := do
  return ⟨← (← j.get? "name").string?, ← (← j.get? "alias").optional? Json.string?,
    ← (← j.get? "location").optional? Location.ofJson?⟩

def JoinType.all : List JoinType := [.inner, .left, .outer]

def Relation.toJson (form : TypeForm) : Relation → Json
  | .table t => .tagged "Table" t.toJson
  | .join type left right criteria =>
    .tagged "Join" (.object
      [("join_type", .string type.text), ("left", left.toJson), ("right", right.toJson),
        ("criteria", criteria.toJson form)])

def Relation.ofJson? (form : TypeForm) (j : Json) : Option Relation := do
  let (tag, v) ← j.tagged?
  match tag with
  | "Table" => return .table (← TableRef.ofJson? v)
  | "Join" =>
    return .join (← (← v.get? "join_type").named? JoinType.text JoinType.all)
      (← TableRef.ofJson? (← v.get? "left")) (← TableRef.ofJson? (← v.get? "right"))
      (← Expr.ofJson? form (← v.get? "criteria"))
  | _ => none

def Query.toJson (form : TypeForm) (q : Query) : Json :=
  .object [("select", .ofList (SelectItem.toJson form) q.select), ("from", q.source.toJson form),
    ("window", .ofOption Window.toJson q.window), ("filter", .ofOption (Expr.toJson form) q.filter),
    ("group_by", .ofList (Expr.toJson form) q.groupBy), ("having", .ofOption (Expr.toJson form) q.having),
    ("limit", .ofOption .ofNat q.limit)]

def Query.ofJson? (form : TypeForm) (j : Json) : Option Query := do
  return {
    select := ← (← j.get? "select").list? (SelectItem.ofJson? form)
    source := ← Relation.ofJson? form (← j.get? "from")
    window := ← (← j.get? "window").optional? Window.ofJson?
    filter := ← (← j.get? "filter").optional? (Expr.ofJson? form)
    groupBy := ← (← j.get? "group_by").list? (Expr.ofJson? form)
    having := ← (← j.get? "having").optional? (Expr.ofJson? form)
    limit := ← (← j.get? "limit").optional? (Json.nat? 64) }

/-- The name of a kind of sink in documents. -/
def SinkKind.name : SinkKind → String
  | .stream => "Stream"
  | .table => "Table"

def SinkKind.all : List SinkKind := [.stream, .table]

/-- Properties as a list of pairs. -/
def propertiesJson (ps : List (String × String)) : Json :=
  .ofList (fun (k, v) => .array [.string k, .string v]) ps

def propertiesOfJson? (j : Json) : Option (List (String × String)) :=
  j.list? (Json.pair? Json.string? Json.string?)

def Statement.toJson (form : TypeForm) : Statement → Json
  | .query q => .tagged "Query" (q.toJson form)
  | .create kind name ps q =>
    .tagged "CreateAsSelect" (.object
      [("kind", .string kind.name), ("name", .string name), ("properties", propertiesJson ps),
        ("query", q.toJson form)])
  | .insert target q =>
    .tagged "InsertInto" (.object [("target", .string target), ("query", q.toJson form)])

def Statement.ofJson? (form : TypeForm) (j : Json) : Option Statement := do
  let (tag, v) ← j.tagged?
  match tag with
  | "Query" => return .query (← Query.ofJson? form v)
  | "CreateAsSelect" =>
    return .create (← (← v.get? "kind").named? SinkKind.name SinkKind.all) (← (← v.get? "name").string?)
      (← propertiesOfJson? (← v.get? "properties")) (← Query.ofJson? form (← v.get? "query"))
  | "InsertInto" =>
    return .insert (← (← v.get? "target").string?) (← Query.ofJson? form (← v.get? "query"))
  | _ => none

end StreamSql
