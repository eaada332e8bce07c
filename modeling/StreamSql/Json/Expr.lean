/-
  Expressions as documents: the planner's `Expression` and `ExpressionKind` with the encoding that
  is derived for them. A node is an object with its kind and, if it has one, its position; a kind is
  a tag with the parts of the node. A double that is infinite or not a number is written as null,
  and cannot be read back.

  How a type is written is not the planner's to say. Writers and readers are given it as a
  `TypeForm`; `TypeForm.standard` is the one in use.
-/
import StreamSql.Expr.Basic
import StreamSql.Json.Basic

namespace StreamSql

/-! ## Positions and types -/

def Location.toJson (l : Location) : Json :=
  .object [("line", .ofNat l.line.toNat), ("column", .ofNat l.column.toNat)]

def Location.ofJson? (j : Json) : Option Location := do
  return ⟨.ofNat (← (← j.get? "line").nat? 32), .ofNat (← (← j.get? "column").nat? 32)⟩

/-- The value with this name in a table. -/
def Json.named? {α : Type} (name : α → String) (values : List α) (j : Json) : Option α := do
  let s ← j.string?
  values.find? fun v => name v == s

def TimeUnit.all : List TimeUnit := [.second, .millisecond, .microsecond, .nanosecond]

/-- The types that are written as their name alone. -/
def DataType.plain : List DataType :=
  [.null, .boolean, .int8, .int16, .int32, .int64, .uint8, .uint16, .uint32, .uint64, .float16, .float32,
    .float64, .utf8, .largeUtf8, .utf8View, .binary, .largeBinary, .date32, .date64]

def DataType.toJson : DataType → Json
  | .decimal128 p s => .tagged "Decimal128" (.array [.ofNat p.toNat, .int s.toInt])
  | .timestamp u z => .tagged "Timestamp" (.array [.string u.text, .ofOption .string z])
  | .other t => .tagged "Other" (.array [.ofNat t.code, .string t.name])
  | t => .string t.text

/-- An integer that the 8 bits of a scale can hold. -/
def DataType.scaleOfJson? (j : Json) : Option Int8 := do
  let i ← j.int?
  if Int8.minValue.toInt ≤ i ∧ i ≤ Int8.maxValue.toInt then some (Int8.ofInt i) else none

def DataType.ofJson? (j : Json) : Option DataType :=
  match j with
  | .object [("Decimal128", .array [p, s])] => do
    return .decimal128 (.ofNat (← p.nat? 8)) (← scaleOfJson? s)
  | .object [("Timestamp", .array [u, z])] => do
    return .timestamp (← u.named? TimeUnit.text TimeUnit.all) (← z.optional? Json.string?)
  | .object [("Other", .array [c, n])] => do return .other ⟨(← c.int?).toNat, ← n.string?⟩
  | _ => j.named? DataType.text DataType.plain

/-- How types are written in documents, and how they are read. -/
structure TypeForm where
  write : DataType → Json
  read? : Json → Option DataType

/-- Types by their names, with what else tells them apart. -/
def TypeForm.standard : TypeForm := ⟨DataType.toJson, DataType.ofJson?⟩

/-! ## Constants and operators -/

def Literal.toJson : Literal → Json
  | .null => .string "Null"
  | .boolean b => .tagged "Boolean" (.bool b)
  | .integer i => .tagged "Integer" (.int i.toInt)
  | .bigint i => .tagged "BigInt" (.int i.toInt)
  | .double d => .tagged "Double" (if d.isFinite then .double d else .null)
  | .string s => .tagged "String" (.string s)

/-- An integer that the 32 bits of a narrow constant can hold. -/
def Literal.narrowOfJson? (j : Json) : Option Int32 := do
  let i ← j.int?
  if Int32.minValue.toInt ≤ i ∧ i ≤ Int32.maxValue.toInt then some (Int32.ofInt i) else none

/-- An integer that the 64 bits of a wide constant can hold. -/
def Literal.wideOfJson? (j : Json) : Option Int64 := do
  let i ← j.int?
  if Int64.minValue.toInt ≤ i ∧ i ≤ Int64.maxValue.toInt then some (Int64.ofInt i) else none

def Literal.ofJson? : Json → Option Literal
  | .string s => if s = "Null" then some .null else none
  | .object [(tag, v)] =>
    match tag with
    | "Boolean" => v.bool?.map .boolean
    | "Integer" => (narrowOfJson? v).map .integer
    | "BigInt" => (wideOfJson? v).map .bigint
    | "Double" =>
      match v with
      | .double d => some (.double d)
      | _ => none
    | "String" => v.string?.map .string
    | _ => none
  | _ => none

def UnaryOp.name : UnaryOp → String
  | .minus => "Minus"
  | .plus => "Plus"
  | .not => "Not"

def UnaryOp.all : List UnaryOp := [.minus, .plus, .not]

def ArithOp.name : ArithOp → String
  | .add => "Add"
  | .subtract => "Subtract"
  | .multiply => "Multiply"
  | .divide => "Divide"
  | .modulo => "Modulo"

def ArithOp.all : List ArithOp := [.add, .subtract, .multiply, .divide, .modulo]

def CompareOp.name : CompareOp → String
  | .eq => "Eq"
  | .ne => "NotEq"
  | .lt => "Lt"
  | .le => "LtEq"
  | .gt => "Gt"
  | .ge => "GtEq"

def CompareOp.all : List CompareOp := [.eq, .ne, .lt, .le, .gt, .ge]

def LogicOp.name : LogicOp → String
  | .and => "And"
  | .or => "Or"

def LogicOp.all : List LogicOp := [.and, .or]

def ColumnRef.toJson (c : ColumnRef) : Json :=
  .object [("qualifier", .ofOption .string c.qualifier), ("name", .string c.name)]

def ColumnRef.ofJson? (j : Json) : Option ColumnRef := do
  return ⟨← (← j.get? "qualifier").optional? Json.string?, ← (← j.get? "name").string?⟩

/-! ## Expressions -/

namespace Expr

/-- A node from its kind and position. -/
def nodeJson (l : Option Location) (kind : Json) : Json :=
  .object (("kind", kind) :: (l.map fun p => ("location", p.toJson)).toList)

mutual

def toJson (form : TypeForm) : Expr → Json
  | literal l v => nodeJson l (.tagged "Literal" v.toJson)
  | column l c => nodeJson l (.tagged "Column" c.toJson)
  | wildcard l => nodeJson l (.string "Wildcard")
  | call l n as d =>
    nodeJson l (.tagged "Function" (.object
      [("name", .string n), ("args", .array (listJson form as)), ("distinct", .bool d)]))
  | unary l op e =>
    nodeJson l (.tagged "Unary" (.object [("op", .string op.name), ("expr", toJson form e)]))
  | arith l a op b =>
    nodeJson l (.tagged "Arithmetic" (.object
      [("left", toJson form a), ("op", .string op.name), ("right", toJson form b)]))
  | compare l a op b =>
    nodeJson l (.tagged "Comparison" (.object
      [("left", toJson form a), ("op", .string op.name), ("right", toJson form b)]))
  | logic l a op b =>
    nodeJson l (.tagged "Logical" (.object
      [("left", toJson form a), ("op", .string op.name), ("right", toJson form b)]))
  | nullIf l a b =>
    nodeJson l (.tagged "NullIf" (.object [("first", toJson form a), ("second", toJson form b)]))
  | case l o bs e =>
    nodeJson l (.tagged "Case" (.object
      [("operand", optionJson form o), ("branches", .array (branchesJson form bs)),
        ("else_result", optionJson form e)]))
  | cast l e t =>
    nodeJson l (.tagged "Cast" (.object [("expr", toJson form e), ("data_type", form.write t)]))
  | isNull l e n =>
    nodeJson l (.tagged "IsNull" (.object [("expr", toJson form e), ("negated", .bool n)]))
  | between l e lo hi n =>
    nodeJson l (.tagged "Between" (.object
      [("expr", toJson form e), ("low", toJson form lo), ("high", toJson form hi), ("negated", .bool n)]))
  | like l e p n =>
    nodeJson l (.tagged "Like" (.object
      [("expr", toJson form e), ("pattern", toJson form p), ("negated", .bool n)]))
  | inList l e es n =>
    nodeJson l (.tagged "InList" (.object
      [("expr", toJson form e), ("list", .array (listJson form es)), ("negated", .bool n)]))

def listJson (form : TypeForm) : List Expr → List Json
  | [] => []
  | e :: es => toJson form e :: listJson form es

def branchesJson (form : TypeForm) : List (Expr × Expr) → List Json
  | [] => []
  | (w, t) :: bs => .array [toJson form w, toJson form t] :: branchesJson form bs

def optionJson (form : TypeForm) : Option Expr → Json
  | none => .null
  | some e => toJson form e

end

/-- The position of a node. -/
def locationOfJson? (j : Json) : Option (Option Location) :=
  match j.given? "location" with
  | none => some none
  | some l => (Location.ofJson? l).map some

/-- The node of a kind with the given tag and parts; `sub` reads a part. -/
def ofKind? (form : TypeForm) (sub : Json → Option Expr) (l : Option Location) (tag : String)
    (v : Json) : Option Expr :=
  let part := fun key => do sub (← v.get? key)
  let flag := fun key => do (← v.get? key).bool?
  match tag with
  | "Literal" => (Literal.ofJson? v).map (literal l)
  | "Column" => (ColumnRef.ofJson? v).map (column l)
  | "Function" => do
    return call l (← (← v.get? "name").string?) (← (← v.get? "args").list? sub) (← flag "distinct")
  | "Unary" => do
    return unary l (← (← v.get? "op").named? UnaryOp.name UnaryOp.all) (← part "expr")
  | "Arithmetic" => do
    return arith l (← part "left") (← (← v.get? "op").named? ArithOp.name ArithOp.all) (← part "right")
  | "Comparison" => do
    return compare l (← part "left") (← (← v.get? "op").named? CompareOp.name CompareOp.all)
      (← part "right")
  | "Logical" => do
    return logic l (← part "left") (← (← v.get? "op").named? LogicOp.name LogicOp.all) (← part "right")
  | "NullIf" => do return nullIf l (← part "first") (← part "second")
  | "Case" => do
    return case l (← (← v.get? "operand").optional? sub)
      (← (← v.get? "branches").list? (Json.pair? sub sub)) (← (← v.get? "else_result").optional? sub)
  | "Cast" => do return cast l (← part "expr") (← form.read? (← v.get? "data_type"))
  | "IsNull" => do return isNull l (← part "expr") (← flag "negated")
  | "Between" => do
    return between l (← part "expr") (← part "low") (← part "high") (← flag "negated")
  | "Like" => do return like l (← part "expr") (← part "pattern") (← flag "negated")
  | "InList" => do
    return inList l (← part "expr") (← (← v.get? "list").list? sub) (← flag "negated")
  | _ => none

/-- The expression of a document with at most so many arrays and objects inside each other. -/
def ofJsonWithin? (form : TypeForm) : Nat → Json → Option Expr
  | 0, _ => none
  | n + 1, j => do
    let l ← locationOfJson? j
    match ← j.get? "kind" with
    | .string "Wildcard" => return wildcard l
    | .object [(tag, v)] => ofKind? form (ofJsonWithin? form n) l tag v
    | _ => none

/-- The expression that a document holds. -/
def ofJson? (form : TypeForm) (j : Json) : Option Expr :=
  ofJsonWithin? form j.nesting j

end Expr

end StreamSql
