/-
  Names of types (`parse_data_type` of the `sqlparser` library). A type that the language knows is
  written back in its own spelling; any other name is kept as it was written.
-/
import StreamSql.Grammar.Parser

namespace StreamSql.Grammar

namespace TypeName

/-- What may follow the keyword of a type. -/
inductive Shape where
  /-- Nothing. -/
  | bare
  /-- A length in parentheses. -/
  | length
  /-- A width in parentheses, then the word for numbers without sign. -/
  | integer
  /-- A length in characters or octets. -/
  | characters
  /-- Digits and decimal places. -/
  | digits
  /-- Fractional digits, then whether there is a time zone. -/
  | zoned
  deriving DecidableEq

/-- The types that are one keyword with their spelling, the name of their node and what may
    follow. -/
def table : List (String × String × String × Shape) :=
  [("BOOLEAN", "BOOLEAN", "Boolean", .bare), ("BOOL", "BOOL", "Bool", .bare),
   ("FLOAT", "FLOAT", "Float", .length), ("REAL", "REAL", "Real", .bare),
   ("FLOAT4", "FLOAT4", "Float4", .bare), ("FLOAT32", "Float32", "Float32", .bare),
   ("FLOAT64", "FLOAT64", "Float64", .bare), ("FLOAT8", "FLOAT8", "Float8", .bare),
   ("TINYINT", "TINYINT", "TinyInt", .integer), ("INT2", "INT2", "Int2", .integer),
   ("SMALLINT", "SMALLINT", "SmallInt", .integer), ("MEDIUMINT", "MEDIUMINT", "MediumInt", .integer),
   ("INT", "INT", "Int", .integer), ("INT4", "INT4", "Int4", .integer),
   ("INT8", "INT8", "Int8", .integer),
   ("INT16", "Int16", "Int16", .bare), ("INT32", "Int32", "Int32", .bare),
   ("INT64", "INT64", "Int64", .bare), ("INT128", "Int128", "Int128", .bare),
   ("INT256", "Int256", "Int256", .bare), ("INTEGER", "INTEGER", "Integer", .integer),
   ("BIGINT", "BIGINT", "BigInt", .integer), ("UINT8", "UInt8", "UInt8", .bare),
   ("UINT16", "UInt16", "UInt16", .bare), ("UINT32", "UInt32", "UInt32", .bare),
   ("UINT64", "UInt64", "UInt64", .bare), ("UINT128", "UInt128", "UInt128", .bare),
   ("UINT256", "UInt256", "UInt256", .bare), ("VARCHAR", "VARCHAR", "Varchar", .characters),
   ("NVARCHAR", "NVARCHAR", "Nvarchar", .characters), ("CLOB", "CLOB", "Clob", .length),
   ("BINARY", "BINARY", "Binary", .length), ("VARBINARY", "VARBINARY", "Varbinary", .length),
   ("BLOB", "BLOB", "Blob", .length), ("BYTES", "BYTES", "Bytes", .length),
   ("UUID", "UUID", "Uuid", .bare), ("DATE", "DATE", "Date", .bare),
   ("DATE32", "Date32", "Date32", .bare), ("DATETIME", "DATETIME", "Datetime", .length),
   ("TIMESTAMP", "TIMESTAMP", "Timestamp", .zoned), ("TIME", "TIME", "Time", .zoned),
   ("JSON", "JSON", "JSON", .bare), ("JSONB", "JSONB", "JSONB", .bare),
   ("REGCLASS", "REGCLASS", "Regclass", .bare), ("STRING", "STRING", "String", .length),
   ("TEXT", "TEXT", "Text", .bare), ("BYTEA", "BYTEA", "Bytea", .bare),
   ("NUMERIC", "NUMERIC", "Numeric", .digits),
   ("DECIMAL", "DECIMAL", "Decimal", .digits), ("DEC", "DEC", "Dec", .digits),
   ("BIGNUMERIC", "BIGNUMERIC", "BigNumeric", .digits),
   ("BIGDECIMAL", "BIGDECIMAL", "BigDecimal", .digits),
   ("TRIGGER", "TRIGGER", "Trigger", .bare)]

/-- A number in parentheses. -/
def length? : Parser (Option Nat) := do
  if ← atSymbol .lParen then return some (← parenthesized natural) else return none

/-- The text of a number in parentheses. -/
def lengthText : Option Nat → String
  | some n => "(" ++ toString n ++ ")"
  | none => ""

def lengthOutline (n : Option Nat) : String :=
  outlineOption (n.map toString)

/-- A type with a length. -/
def ofLength (text node : String) : Parser TypeName := do
  let n ← length?
  return ⟨text ++ lengthText n, node ++ "(" ++ lengthOutline n ++ ")", false, false⟩

/-- The length of a text: a number of units, or as long as can be. -/
def characterCount : Parser (String × String) := do
  if ← keyword "MAX" then return ("MAX", "Max")
  let n := toString (← natural)
  match ← oneOf ["CHARACTERS", "OCTETS"] with
  | some u =>
    let node := if u = "OCTETS" then "Octets" else "Characters"
    return (n ++ " " ++ u, "IntegerLength \x7b length: " ++ n ++ ", unit: Some(" ++ node ++ ") \x7d")
  | none => return (n, "IntegerLength \x7b length: " ++ n ++ ", unit: None \x7d")

/-- A type with a length in characters. -/
def ofCharacters (text node : String) : Parser TypeName := do
  if ← atSymbol .lParen then
    let (t, o) ← parenthesized characterCount
    return ⟨text ++ "(" ++ t ++ ")", node ++ "(Some(" ++ o ++ "))", false, false⟩
  else return ⟨text, node ++ "(None)", false, false⟩

/-- A type with digits and decimal places. -/
def ofDigits (text node : String) : Parser TypeName := do
  if ← symbol .lParen then
    let p := toString (← natural)
    if ← symbol .comma then
      let s := toString (← natural)
      expectSymbol .rParen
      return ⟨text ++ "(" ++ p ++ "," ++ s ++ ")",
        node ++ "(PrecisionAndScale(" ++ p ++ ", " ++ s ++ "))", false, false⟩
    else
      expectSymbol .rParen
      return ⟨text ++ "(" ++ p ++ ")", node ++ "(Precision(" ++ p ++ "))", false, false⟩
  else return ⟨text, node ++ "(None)", false, false⟩

/-- A whole number, perhaps without sign. -/
def ofInteger (text node : String) : Parser TypeName := do
  let n ← length?
  if ← keyword "UNSIGNED" then
    return ⟨text ++ lengthText n ++ " UNSIGNED",
      "Unsigned" ++ node ++ "(" ++ lengthOutline n ++ ")", false, false⟩
  else return ⟨text ++ lengthText n, node ++ "(" ++ lengthOutline n ++ ")", false, false⟩

/-- A time, perhaps with its zone. -/
def ofTime (text node : String) : Parser TypeName := do
  let n ← length?
  let made := fun (t o : String) =>
    TypeName.mk (text ++ lengthText n ++ t)
      (node ++ "(" ++ lengthOutline n ++ ", " ++ o ++ ")") false false
  if ← keyword "WITH" then
    expectKeywords ["TIME", "ZONE"]
    return made " WITH TIME ZONE" "WithTimeZone"
  else if ← keyword "WITHOUT" then
    expectKeywords ["TIME", "ZONE"]
    return made " WITHOUT TIME ZONE" "WithoutTimeZone"
  else return made "" "None"

/-- A time with its zone in one word. -/
def ofZonedTime (text node : String) : Parser TypeName := do
  let n ← length?
  return ⟨text ++ "TZ" ++ lengthText n, node ++ "(" ++ lengthOutline n ++ ", Tz)", false, false⟩

/-- A type of the table, after its keyword. -/
def ofShape (text node : String) : Shape → Parser TypeName
  | .bare => return ⟨text, node, false, false⟩
  | .length => ofLength text node
  | .integer => ofInteger text node
  | .characters => ofCharacters text node
  | .digits => ofDigits text node
  | .zoned => ofTime text node

/-- A text of fixed width under its long or short name. -/
def ofCharacter (text node : String) : Parser TypeName := do
  if ← keyword "VARYING" then ofCharacters (text ++ " VARYING") (node ++ "Varying")
  else if ← keywords ["LARGE", "OBJECT"] then ofLength (text ++ " LARGE OBJECT") (node ++ "LargeObject")
  else ofCharacters text node

/-- Texts in parentheses. -/
def texts : Parser (List String) :=
  parenthesized <| commaSeparated do
    match ← next with
    | .string s => return s
    | _ => unexpected

/-- A type that is a choice of texts. -/
def ofTexts (text node : String) : Parser TypeName := do
  let ts ← texts
  return ⟨text ++ "(" ++ commas (ts.map (inQuotes '\x27')) ++ ")",
    node ++ "(" ++ outlineList (ts.map Text.quoted) ++ ")", false, false⟩

/-- A modifier of a type that is not in the language. -/
def modifier : Parser String := do
  let t ← next
  match t with
  | .word _ _ => return t.text
  | .number d _ => return d
  | .string s => return s
  | _ => unexpected

/-- Modifiers up to the closing parenthesis; commas between them may be missing or repeated. -/
def modifiers : Nat → Parser (List String)
  | 0 => unexpected
  | n + 1 => do
    if ← symbol .rParen then return []
    else if ← symbol .comma then modifiers n
    else
      let m ← modifier
      return m :: (← modifiers n)

/-- A name that is no type of the language. -/
def customType : Parser TypeName := do
  let p ← path
  let ms ← if ← symbol .lParen then modifiers ((← get).length + 1) else pure []
  let tail := if ms.isEmpty then "" else "(" ++ commas ms ++ ")"
  return ⟨pathText p ++ tail,
    "Custom(" ++ outlinePath p ++ ", " ++ outlineList (ms.map Text.quoted) ++ ")", true, false⟩

/-- A field of a composed type with its own name if there is one. -/
def fieldOf (name : Option Ident) (t : TypeName) : Shown :=
  Shown.form
    (match name with
      | some i => i.text ++ " " ++ t.text
      | none => t.text)
    "StructField" [("field_name", outlineOption (name.map Ident.outline)), ("field_type", t.outline)]

/-- The text of a type with fields between brackets. -/
def fieldsText (lead : String) (fields : List Shown) (close : String) : String :=
  lead ++ commas (fields.map Shown.text) ++ close

/-- The text of a structure in angle brackets, which are missing if it has no fields. -/
def structText (fields : List Shown) : String :=
  if fields.isEmpty then "STRUCT" else fieldsText "STRUCT<" fields ">"

/-- Lengths in brackets after a type. -/
def brackets : Nat → TypeName → Parser TypeName
  | 0, t => return t
  | n + 1, t => do
    if ← symbol .lBracket then
      let size ← attempt natural
      expectSymbol .rBracket
      let text := t.text ++ "[" ++ (match size with
        | some k => toString k
        | none => "") ++ "]"
      brackets n ⟨text, "Array(SquareBracket(" ++ t.outline ++ ", " ++ lengthOutline size ++ "))",
        false, false⟩
    else return t

/-- The end of a type in angle brackets, given whether the type inside took both of a double one.
    Says whether one bracket of a double one is still to be used. -/
def closeAngle (taken : Bool) : Parser Bool := do
  if taken then return false
  else if ← symbol .gt then return false
  else if ← symbol .shiftRight then return true
  else unexpected

/-- The next two tokens are words. -/
def twoWords : List Token → Bool
  | .word _ _ :: .word _ _ :: _ => true
  | _ => false

mutual

/-- A type, and whether it took a closing bracket that belongs outside. -/
def bracketed : Nat → Parser (TypeName × Bool)
  | 0 => unexpected
  | n + 1 => do
    let (t, extra) ← unit n
    return (← brackets ((← get).length + 1) t, extra)

/-- A type without brackets after it. -/
def unit : Nat → Parser (TypeName × Bool)
  | 0 => unexpected
  | n + 1 => do
    let alone := fun (p : Parser TypeName) => do return (← p, false)
    let some (.word v q) := (← get).head? | unexpected
    let k := if q.isNone then Keyword.capitals v else ""
    match table.lookup k with
    | some (text, node, shape) => do
      let _ ← next
      alone (ofShape text node shape)
    | none =>
      match k with
      | "DOUBLE" => do
        let _ ← next
        if ← keyword "PRECISION" then
          return (⟨"DOUBLE PRECISION", "DoublePrecision", false, false⟩, false)
        else return (⟨"DOUBLE", "Double", false, false⟩, false)
      | "CHARACTER" => do let _ ← next; alone (ofCharacter "CHARACTER" "Character")
      | "CHAR" => do let _ ← next; alone (ofCharacter "CHAR" "Char")
      | "TIMESTAMPTZ" => do let _ ← next; alone (ofZonedTime "TIMESTAMP" "Timestamp")
      | "TIMETZ" => do let _ ← next; alone (ofZonedTime "TIME" "Time")
      | "INTERVAL" => do let _ ← next; return (⟨"INTERVAL", "Interval", false, true⟩, false)
      | "ENUM" => do let _ ← next; alone (ofTexts "ENUM" "Enum")
      | "SET" => do let _ ← next; alone (ofTexts "SET" "Set")
      | "FIXEDSTRING" => do
        let _ ← next
        let k ← parenthesized natural
        let text := "FixedString(" ++ toString k ++ ")"
        return (⟨text, text, false, false⟩, false)
      | "DATETIME64" => do
        let _ ← next
        expectSymbol .lParen
        let p := toString (← natural)
        let zone ← whenever (symbol .comma) textConstant
        expectSymbol .rParen
        let tail := match zone with
          | some z => ", '" ++ z ++ "'"
          | none => ""
        return (⟨"DateTime64(" ++ p ++ tail ++ ")",
          "Datetime64(" ++ p ++ ", " ++ outlineOption (zone.map Text.quoted) ++ ")", false, false⟩, false)
      | "ARRAY" => do
        let _ ← next
        expectSymbol .lt
        let (t, taken) ← bracketed n
        let extra ← closeAngle taken
        return (⟨"ARRAY<" ++ t.text ++ ">",
          "Array(AngleBracket(" ++ t.outline ++ "))", false, false⟩, extra)
      | "STRUCT" => do
        let _ ← next
        let (fs, extra) ← structFields n
        return (⟨structText fs, "Struct(" ++ outlineShown fs ++ ", AngleBrackets)", false, false⟩, extra)
      | "UNION" => do
        let _ ← next
        expectSymbol .lParen
        let fs ← namedFields n fun i t =>
          outlineNode "UnionField" [("field_name", i.outline), ("field_type", t.outline)]
        expectSymbol .rParen
        return (⟨fieldsText "UNION(" fs ")", "Union(" ++ outlineShown fs ++ ")", false, false⟩, false)
      | "NULLABLE" => do
        let _ ← next
        let t ← inside n
        return (⟨"Nullable(" ++ t.text ++ ")", "Nullable(" ++ t.outline ++ ")", false, false⟩, false)
      | "LOWCARDINALITY" => do
        let _ ← next
        let t ← inside n
        return (⟨"LowCardinality(" ++ t.text ++ ")",
          "LowCardinality(" ++ t.outline ++ ")", false, false⟩, false)
      | "MAP" => do
        let _ ← next
        expectSymbol .lParen
        let a ← closed n
        expectSymbol .comma
        let b ← closed n
        expectSymbol .rParen
        return (⟨"Map(" ++ a.text ++ ", " ++ b.text ++ ")",
          "Map(" ++ a.outline ++ ", " ++ b.outline ++ ")",
          false, false⟩, false)
      | "TUPLE" => do
        let _ ← next
        expectSymbol .lParen
        let fs ← tupleFields n
        expectSymbol .rParen
        return (⟨fieldsText "Tuple(" fs ")", "Tuple(" ++ outlineShown fs ++ ")", false, false⟩, false)
      | "NESTED" => do
        let _ ← next
        expectSymbol .lParen
        let fs ← namedFields n fun i t =>
          outlineNode "ColumnDef"
            [("name", i.outline), ("data_type", t.outline), ("collation", "None"), ("options", "[]")]
        expectSymbol .rParen
        return (⟨fieldsText "Nested(" fs ")", "Nested(" ++ outlineShown fs ++ ")", false, false⟩, false)
      | _ => alone customType

/-- A type that takes no bracket from outside. -/
def closed : Nat → Parser TypeName
  | 0 => unexpected
  | n + 1 => do
    let (t, extra) ← bracketed n
    if extra then unexpected else return t

/-- A type in parentheses. -/
def inside : Nat → Parser TypeName
  | 0 => unexpected
  | n + 1 => do
    expectSymbol .lParen
    let t ← closed n
    expectSymbol .rParen
    return t

/-- The fields of a structure in angle brackets, if they are given. -/
def structFields : Nat → Parser (List Shown × Bool)
  | 0 => unexpected
  | n + 1 => do
    if ← symbol .lt then
      let (fs, taken) ← fieldsUntil n
      let extra ← closeAngle taken
      return (fs, extra)
    else return ([], false)

/-- Fields with commas between them. Only the last may take a bracket from outside. -/
def fieldsUntil : Nat → Parser (List Shown × Bool)
  | 0 => unexpected
  | n + 1 => do
    let (f, taken) ← field n
    if ← symbol .comma then
      if taken then unexpected
      else
        let (fs, taken') ← fieldsUntil n
        return (f :: fs, taken')
    else return ([f], taken)

/-- A field, whose name may be missing. -/
def field : Nat → Parser (Shown × Bool)
  | 0 => unexpected
  | n + 1 => do
    let name ← if twoWords (← get) then some <$> ident else pure none
    let (t, taken) ← bracketed n
    return (fieldOf name t, taken)

/-- Fields with commas between them, which may take what they like. -/
def tupleFields : Nat → Parser (List Shown)
  | 0 => unexpected
  | n + 1 => do
    let (f, _) ← field n
    if ← symbol .comma then return f :: (← tupleFields n) else return [f]

/-- Fields with names, whose outlines are given. -/
def namedFields : Nat → (Ident → TypeName → String) → Parser (List Shown)
  | 0, _ => unexpected
  | n + 1, outline => do
    let i ← ident
    let t ← closed n
    let f : Shown := ⟨i.text ++ " " ++ t.text, outline i t⟩
    if ← symbol .comma then return f :: (← namedFields n outline) else return [f]

end

end TypeName

/-- A type by its name. -/
def typeName : Parser TypeName := do
  TypeName.closed (4 * (← get).length + 4)

/-- The fields of a structure after its keyword. -/
def structType : Parser (List Shown) := do
  let (fs, extra) ← TypeName.structFields (4 * (← get).length + 4)
  if extra then unexpected else return fs

end StreamSql.Grammar
