/-
  Statements of the `sqlparser` library that remove and change tables and other objects. None of them
  is planned, so each is kept by its canonical text.
-/
import StreamSql.Grammar.Definition

namespace StreamSql.Grammar

open Term (text texts)

/-! ## Removal -/

/-- The removal of something that belongs to a table, after the keyword. The keyword and the parser of
    the name are given. -/
def removalFrom (k : String) (name : Parser (List Ident)) : Parser String := do
  let exists_ ← spacedAll ["IF", "EXISTS"]
  let name ← name
  expectKeyword "ON"
  let table ← path
  return "DROP " ++ k ++ exists_ ++ " " ++ pathText name ++ " ON " ++ pathText table ++
    (← spacedOneOf ["CASCADE", "RESTRICT"])

/-- The removal of functions or procedures, after the keyword, which is given. -/
def routineRemoval (f : Forms) (k : String) : Parser String := do
  let exists_ ← spacedAll ["IF", "EXISTS"]
  let routines ← commaSeparated (routineName f)
  return "DROP " ++ k ++ exists_ ++ " " ++ commas routines ++ (← spacedOneOf ["CASCADE", "RESTRICT"])

/-- The removal of a secret, after the words for it, which are given. -/
def secretRemoval (lead : String) : Parser String := do
  let exists_ ← ifExists
  let name ← ident
  let place ← if ← keyword "FROM" then taken? else pure none
  return lead ++ "SECRET " ++ exists_ ++ name.text ++ clause " FROM " (place.map Ident.text)

/-- A removal after its keyword. -/
def removal (f : Forms) : Parser String := do
  let temporary ← keyword "TEMPORARY"
  if ← keyword "FUNCTION" then return ← routineRemoval f "FUNCTION"
  if ← keyword "POLICY" then return ← removalFrom "POLICY" ((fun i => [i]) <$> ident)
  if ← keyword "PROCEDURE" then return ← routineRemoval f "PROCEDURE"
  if ← keyword "SECRET" then return ← secretRemoval ("DROP " ++ wordIf temporary "TEMPORARY")
  if ← keyword "TRIGGER" then return ← removalFrom "TRIGGER" path
  let kind ← expectOneOf
    ["TABLE", "VIEW", "INDEX", "ROLE", "SCHEMA", "DATABASE", "SEQUENCE", "STAGE", "TYPE"]
  let exists_ ← ifExists
  let names ← commaSeparated path
  let cascade ← spaced "CASCADE"
  let restrict ← spaced "RESTRICT"
  let purge ← spaced "PURGE"
  if cascade ≠ "" && restrict ≠ "" then unexpected
  let tail := cascade ++ restrict ++ purge
  if kind = "ROLE" && tail ≠ "" then unexpected
  return "DROP " ++ wordIf temporary "TEMPORARY" ++ kind ++ " " ++ exists_ ++
    commas (names.map pathText) ++ tail

/-- Removal of all rows, after the keyword. -/
def truncation (f : Forms) : Parser String := do
  let table ← keyword "TABLE"
  let only ← keyword "ONLY"
  let names ← commaSeparated path
  let partition ← textAfter ["PARTITION"] do
    return " PARTITION (" ++ commas (texts (← parenthesized f.exprs)) ++ ")"
  let identity :=
    choiceText "RESTART IDENTITY" "CONTINUE IDENTITY"
      (← choice ["RESTART", "IDENTITY"] ["CONTINUE", "IDENTITY"])
  let cascade ← spacedOneOf ["CASCADE", "RESTRICT"]
  let cluster ← onCluster
  return "TRUNCATE " ++ wordIf table "TABLE" ++ wordIf only "ONLY" ++ commas (names.map pathText) ++
    identity ++ cascade ++ partition ++ cluster

/-! ## Columns and constraints -/

/-- Where a column goes, if that is said next. -/
def columnPlace : Parser String := do
  if ← keyword "FIRST" then return " FIRST"
  else if ← keyword "AFTER" then return " AFTER " ++ (← ident).text
  else return ""

/-- A new type, new options and a new place of a column. -/
def columnShape (f : Forms) : Parser String := do
  let type ← typeName
  let options ← many (columnOption? f)
  return " " ++ type.text ++ String.join (options.map (" " ++ ·)) ++ (← columnPlace)

/-- A change of one column, after its name. -/
def columnChange (f : Forms) : Parser String := do
  if ← keywords ["SET", "NOT", "NULL"] then return "SET NOT NULL"
  else if ← keywords ["DROP", "NOT", "NULL"] then return "DROP NOT NULL"
  else if ← keywords ["SET", "DEFAULT"] then return "SET DEFAULT " ++ (← f.expr).text
  else if ← keywords ["DROP", "DEFAULT"] then return "DROP DEFAULT"
  else if ← keywords ["SET", "DATA", "TYPE"] then return "SET DATA TYPE " ++ (← typeName).text
  else
    expectKeywords ["ADD", "GENERATED"]
    let when_ ←
      if ← keyword "ALWAYS" then pure " ALWAYS" else spacedAll ["BY", "DEFAULT"]
    expectKeywords ["AS", "IDENTITY"]
    let options ←
      if ← atSymbol .lParen then (fun os => " (" ++ os ++ " )") <$> parenthesized sequenceOptions
      else pure ""
    return "ADD GENERATED" ++ when_ ++ " AS IDENTITY" ++ options

/-- Terms in parentheses that tell a part of a table. -/
def partition (f : Forms) : Parser String := do
  return "PARTITION (" ++ commas (texts (← parenthesized f.exprs)) ++ ")"

/-- A stored selection of a table in parentheses: its items, groups and order. -/
def projectionBody (f : Forms) : Parser String :=
  parenthesized do
    expectKeyword "SELECT"
    let items ← commaSeparated (item f)
    let groups ← grouping f
    let ordered ← keywords ["ORDER", "BY"]
    let order ← if ordered then orderKeys f else pure []
    let interpolate ← if ordered then whenever (keyword "INTERPOLATE") (interpolate f) else pure none
    return "(SELECT " ++ commas (items.map Item.text) ++ groups.text ++
      listClause " ORDER BY " (order.map Shown.text) ++ shownClause interpolate ++ ")"

/-- What is added to a table, after the keyword. -/
def addition (f : Forms) : Parser String := do
  if let some c ← tableConstraint? f then return "ADD " ++ c
  if ← keyword "PROJECTION" then
    let exists_ ← ifNotExists
    let name ← ident
    return "ADD PROJECTION " ++ exists_ ++ name.text ++ " " ++ (← projectionBody f)
  let before ← ifNotExists
  let partitions ← whileSome (keyword "PARTITION") (partition f)
  if !partitions.isEmpty then return "ADD " ++ before ++ " ".intercalate partitions
  let column ← keyword "COLUMN"
  let after ← ifNotExists
  let exists_ := if before = "" then after else before
  let c ← columnDef f
  return "ADD " ++ wordIf column "COLUMN" ++ exists_ ++ c ++ (← columnPlace)

/-- What is taken from a table, after the keyword. -/
def subtraction (f : Forms) : Parser String := do
  if ← keywords ["IF", "EXISTS", "PARTITION"] then return "DROP IF EXISTS " ++ (← partition f)
  else if ← keyword "PARTITION" then return "DROP " ++ (← partition f)
  else if ← keyword "CONSTRAINT" then
    let exists_ ← ifExists
    let i ← ident
    return "DROP CONSTRAINT " ++ exists_ ++ i.text ++ (← spaced "CASCADE")
  else if ← keywords ["PRIMARY", "KEY"] then return "DROP PRIMARY KEY"
  else if ← keyword "PROJECTION" then
    let exists_ ← ifExists
    return "DROP PROJECTION " ++ exists_ ++ (← ident).text
  else
    let _ ← keyword "COLUMN"
    let exists_ ← ifExists
    let i ← ident
    return "DROP COLUMN " ++ exists_ ++ i.text ++ (← spaced "CASCADE")

/-! ## Tables -/

/-- What is switched off, after the keyword. -/
def disabling : Parser String := do
  if ← keywords ["ROW", "LEVEL", "SECURITY"] then return "DISABLE ROW LEVEL SECURITY"
  else
    let k ← expectOneOf ["RULE", "TRIGGER"]
    return "DISABLE " ++ k ++ " " ++ (← ident).text

/-- What is switched on, after the keyword. -/
def enabling : Parser String := do
  if ← keywords ["ROW", "LEVEL", "SECURITY"] then return "ENABLE ROW LEVEL SECURITY"
  else
    let when_ ← oneOf ["ALWAYS", "REPLICA"]
    let k ← expectOneOf ["RULE", "TRIGGER"]
    return "ENABLE " ++ clause "" (when_.map (· ++ " ")) ++ k ++ " " ++ (← ident).text

/-- A change of a stored selection, after the words for it, which are given. -/
def projectionChange (lead : String) : Parser String := do
  let exists_ ← ifExists
  let name ← ident
  let part ← whenever (keywords ["IN", "PARTITION"]) ident
  return lead ++ " PROJECTION " ++ exists_ ++ name.text ++ clause " IN PARTITION " (part.map Ident.text)

/-- A part of a table that a term tells. -/
def part (f : Forms) : Parser String := do
  let k ← expectOneOf ["PART", "PARTITION"]
  return k ++ " " ++ (← f.expr).text

/-- A part of a table that is frozen or not, after the keyword, which is given. -/
def freezing (f : Forms) (k : String) : Parser String := do
  let p ← part f
  let name ← whenever (keyword "WITH") do
    expectKeyword "NAME"
    ident
  return k ++ " " ++ p ++ clause " WITH NAME " (name.map Ident.text)

/-- A change of a table. -/
def tableChange (f : Forms) : Parser String := do
  if ← keyword "ADD" then addition f
  else if ← keyword "RENAME" then
    if ← keyword "TO" then return "RENAME TO " ++ pathText (← path)
    else
      let _ ← keyword "COLUMN"
      let a ← ident
      expectKeyword "TO"
      return "RENAME COLUMN " ++ a.text ++ " TO " ++ (← ident).text
  else if ← keyword "DISABLE" then disabling
  else if ← keyword "ENABLE" then enabling
  else if ← keywords ["CLEAR", "PROJECTION"] then projectionChange "CLEAR"
  else if ← keywords ["MATERIALIZE", "PROJECTION"] then projectionChange "MATERIALIZE"
  else if ← keyword "DROP" then subtraction f
  else if ← keyword "PARTITION" then
    let old ← partition f
    expectKeywords ["RENAME", "TO", "PARTITION"]
    return old ++ " RENAME TO " ++ (← partition f)
  else if ← keyword "CHANGE" then
    let _ ← keyword "COLUMN"
    let a ← ident
    let b ← ident
    return "CHANGE COLUMN " ++ a.text ++ " " ++ b.text ++ (← columnShape f)
  else if ← keyword "MODIFY" then
    let _ ← keyword "COLUMN"
    let a ← ident
    return "MODIFY COLUMN " ++ a.text ++ (← columnShape f)
  else if ← keyword "ALTER" then
    let _ ← keyword "COLUMN"
    let a ← ident
    return "ALTER COLUMN " ++ a.text ++ " " ++ (← columnChange f)
  else if ← keywords ["SWAP", "WITH"] then return "SWAP WITH " ++ pathText (← path)
  else if ← keywords ["OWNER", "TO"] then return "OWNER TO " ++ (← owner)
  else if ← keyword "ATTACH" then return "ATTACH " ++ (← part f)
  else if ← keyword "DETACH" then return "DETACH " ++ (← part f)
  else if ← keyword "FREEZE" then freezing f "FREEZE"
  else if ← keyword "UNFREEZE" then freezing f "UNFREEZE"
  else
    expectKeywords ["SET", "TBLPROPERTIES"]
    return "SET TBLPROPERTIES(" ++ (← options f) ++ ")"

/-- The place of a table's rows, if that is said next. -/
def newPlace : Parser String := do
  if ← keyword "LOCATION" then return " LOCATION " ++ (← ident).text
  else if ← keywords ["SET", "LOCATION"] then return " SET LOCATION " ++ (← ident).text
  else return ""

/-! ## Other objects -/

/-- A change of an object after the keyword ALTER. -/
def alteration (f : Forms) : Parser String := do
  match ← expectOneOf ["VIEW", "TABLE", "INDEX", "POLICY"] with
  | "VIEW" =>
    let name ← path
    let columns ← columnNames
    let with_ ← optionsAfter f "WITH" " WITH "
    expectKeyword "AS"
    let q ← f.query
    return "ALTER VIEW " ++ pathText name ++ namesText " " columns ++ with_ ++ " AS " ++ q.text
  | "INDEX" =>
    let name ← path
    expectKeywords ["RENAME", "TO"]
    return "ALTER INDEX " ++ pathText name ++ " RENAME TO " ++ pathText (← path)
  | "POLICY" =>
    let name ← ident
    expectKeyword "ON"
    let table ← path
    let change ←
      if ← keyword "RENAME" then
        expectKeyword "TO"
        pure (" RENAME TO " ++ (← ident).text)
      else policyRules f
    return "ALTER POLICY " ++ name.text ++ " ON " ++ pathText table ++ change
  | _ =>
    let exists_ ← ifExists
    let only ← keyword "ONLY"
    let name ← path
    let cluster ← onCluster
    let changes ← commaSeparated (tableChange f)
    return "ALTER TABLE " ++ exists_ ++ wordIf only "ONLY" ++ pathText name ++ cluster ++ " " ++
      commas changes ++ (← newPlace)

end StreamSql.Grammar
