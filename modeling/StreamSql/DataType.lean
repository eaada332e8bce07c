/-
  Column types, as `DataType` lists them. The planner computes with six of them (string, 32- and
  64-bit integer, double, boolean and the type of NULL); the others may come in with a relation and
  are carried along. Of most of these it is only asked whether two are the same and what they are
  called (`OtherType`): lists, structures and the like.

  Names of types are `type_name` and `parse_type_name` of the planner; ranks and tests are
  `numeric_rank`, `wider_numeric`, `types_compatible_for_equality`, `comparable` and
  `insert_type_compatible`.
-/
import StreamSql.Text.Blank
import StreamSql.Text.Case
import StreamSql.Text.Quoted

namespace StreamSql

/-- The unit of a timestamp. -/
inductive TimeUnit where
  | second
  | millisecond
  | microsecond
  | nanosecond
  deriving DecidableEq, Inhabited, Hashable

/-- A type that is only carried along: which one it is, and its name in diagnostics. -/
structure OtherType where
  code : Nat
  name : String
  deriving DecidableEq, Inhabited, Hashable

/-- The type of a column or of an expression. -/
inductive DataType where
  | null
  | boolean
  | int8
  | int16
  | int32
  | int64
  | uint8
  | uint16
  | uint32
  | uint64
  | float16
  | float32
  | float64
  | utf8
  | largeUtf8
  | utf8View
  | binary
  | largeBinary
  | date32
  | date64
  | decimal128 (precision : UInt8) (scale : Int8)
  | timestamp (unit : TimeUnit) (zone : Option String)
  | other (type : OtherType)
  deriving DecidableEq, Inhabited, Hashable

/-- The name of a time unit. -/
def TimeUnit.text : TimeUnit → String
  | .second => "Second"
  | .millisecond => "Millisecond"
  | .microsecond => "Microsecond"
  | .nanosecond => "Nanosecond"

namespace DataType

/-- The name of a type in diagnostics. -/
def text : DataType → String
  | .null => "Null"
  | .boolean => "Boolean"
  | .int8 => "Int8"
  | .int16 => "Int16"
  | .int32 => "Int32"
  | .int64 => "Int64"
  | .uint8 => "UInt8"
  | .uint16 => "UInt16"
  | .uint32 => "UInt32"
  | .uint64 => "UInt64"
  | .float16 => "Float16"
  | .float32 => "Float32"
  | .float64 => "Float64"
  | .utf8 => "Utf8"
  | .largeUtf8 => "LargeUtf8"
  | .utf8View => "Utf8View"
  | .binary => "Binary"
  | .largeBinary => "LargeBinary"
  | .date32 => "Date32"
  | .date64 => "Date64"
  | .decimal128 p s => "Decimal128(" ++ toString p ++ ", " ++ toString s ++ ")"
  | .timestamp u none => "Timestamp(" ++ u.text ++ ", None)"
  | .timestamp u (some z) => "Timestamp(" ++ u.text ++ ", Some(" ++ Text.quoted z ++ "))"
  | .other t => t.name

/-- The SQL spelling of a type; a type without one is named as in diagnostics. -/
def sqlName : DataType → String
  | .utf8 | .largeUtf8 => "STRING"
  | .int32 => "INTEGER"
  | .int64 => "BIGINT"
  | .float64 => "DOUBLE"
  | .boolean => "BOOLEAN"
  | .null => "NULL"
  | t => t.text

/-- The type that a capitalised SQL name without its length stands for. -/
def ofBaseName? (name : String) : Option DataType :=
  if name ∈ ["STRING", "VARCHAR", "TEXT", "CHAR"] then some .utf8
  else if name ∈ ["INT", "INTEGER"] then some .int32
  else if name ∈ ["BIGINT", "LONG"] then some .int64
  else if name ∈ ["DOUBLE", "FLOAT", "REAL", "DOUBLE PRECISION"] then some .float64
  else if name ∈ ["BOOLEAN", "BOOL"] then some .boolean
  else none

/-- The type that a SQL type name stands for. Case, blanks around the name and everything from the
    first parenthesis on do not count. -/
def ofSqlName? (name : String) : Option DataType :=
  let base := (Text.upper (Text.trim name)).toList.takeWhile (· ≠ '(')
  ofBaseName? (Text.trim (String.ofList base))

/-- The place of a numeric type in the order of widening; none for other types. -/
def numericRank? : DataType → Option Nat
  | .int8 | .uint8 => some 1
  | .int16 | .uint16 => some 2
  | .int32 | .uint32 => some 3
  | .int64 | .uint64 => some 4
  | .float32 => some 5
  | .float64 => some 6
  | _ => none

def isNumeric (t : DataType) : Bool :=
  t.numericRank?.isSome

def isString : DataType → Bool
  | .utf8 | .largeUtf8 => true
  | _ => false

/-- The one of two numeric types with the higher rank, the first at equal ranks. -/
def wider? (a b : DataType) : Option DataType := do
  let ra ← a.numericRank?
  let rb ← b.numericRank?
  return if rb ≤ ra then a else b

/-- Values of the two types can be tested for equality: equal types, two numeric types, or two
    string types. -/
def matchesForEquality (a b : DataType) : Bool :=
  a == b || (a.isNumeric && b.isNumeric) || (a.isString && b.isString)

/-- Values of the two types can be compared; NULL compares with everything. -/
def comparable (a b : DataType) : Bool :=
  a.matchesForEquality b || a == .null || b == .null

/-- A value of type `a` may be written into a column of type `b`. -/
def storableAs (a b : DataType) : Bool :=
  a == b || a == .null || (a.isString && b.isString) ||
    match a, b with
    | .int32, .int64 | .int32, .float64 | .int64, .float64 | .float64, .int64 => true
    | _, _ => false

end DataType

end StreamSql
