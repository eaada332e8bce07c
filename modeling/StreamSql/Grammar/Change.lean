/-
  Statements of the `sqlparser` library that change rows. None of them is planned, so each is kept by
  its canonical text.
-/
import StreamSql.Grammar.Item

namespace StreamSql.Grammar

open Term (text texts)

/-- Takes a keyword. Its text has a blank before it. -/
def spaced (k : String) : Parser String := do
  return if ← keyword k then " " ++ k else ""

/-- Takes one of the keywords, if one comes next. Its text has a blank before it. -/
def spacedOneOf (ks : List String) : Parser String := do
  return clause " " (← oneOf ks)

/-- Names in parentheses as text, with what stands before and after it; no text for no names. -/
def namesText (before : String) (names : List Ident) (after : String := "") : String :=
  if names.isEmpty then "" else before ++ "(" ++ commas (names.map Ident.text) ++ ")" ++ after

/-- The value of a column. -/
def assignment (f : Forms) : Parser String := do
  let target ←
    if ← atSymbol .lParen then
      (fun ps => "(" ++ commas (ps.map pathText) ++ ")") <$> parenthesized (commaSeparated path)
    else pathText <$> path
  expectSymbol .eq
  return target ++ " = " ++ (← f.expr).text

/-- The values of columns with commas between them. -/
def assignments (f : Forms) : Parser String :=
  commas <$> commaSeparated (assignment f)

/-- The condition of a statement, if it has one. -/
def whereClause (f : Forms) : Parser String := do
  return clause " WHERE " ((← termAfter f "WHERE").map text)

/-- The rows that a statement gives back. -/
def returning (f : Forms) : Parser String := do
  if ← keyword "RETURNING" then
    return " RETURNING " ++ commas ((← commaSeparated (item f)).map Item.text)
  else return ""

/-- What an insertion does with rows that are there already. -/
def onInsert (f : Forms) : Parser String := do
  if ← keyword "ON" then
    if ← keyword "CONFLICT" then
      let target ←
        if ← keywords ["ON", "CONSTRAINT"] then (fun p => " ON CONSTRAINT " ++ pathText p) <$> path
        else namesText "" <$> columnNames
      expectKeyword "DO"
      if ← keyword "NOTHING" then return " ON CONFLICT" ++ target ++ " DO NOTHING"
      expectKeywords ["UPDATE", "SET"]
      let sets ← assignments f
      return " ON CONFLICT" ++ target ++ " DO UPDATE SET " ++ sets ++ (← whereClause f)
    else
      expectKeywords ["DUPLICATE", "KEY", "UPDATE"]
      return " ON DUPLICATE KEY UPDATE " ++ (← assignments f)
  else return ""

/-- The rows that an insertion adds, and the columns they are for. -/
def insertedRows (f : Forms) : Parser String := do
  if ← keywords ["DEFAULT", "VALUES"] then return "DEFAULT VALUES"
  let columns ← columnNames
  let partition ←
    if ← keyword "PARTITION" then
      (fun es => "PARTITION (" ++ commas (texts es) ++ ") ") <$> parenthesized f.exprs
    else pure ""
  return namesText "" columns " " ++ partition ++ (← f.query).text

/-- The format of a file. -/
def fileFormat : Parser String :=
  expectOneOf ["TEXTFILE", "SEQUENCEFILE", "ORC", "PARQUET", "AVRO", "RCFILE", "JSONFILE"]

/-- An insertion after its keyword, which is given. -/
def insertion (f : Forms) (start : String) : Parser String := do
  let priority ← spacedOneOf ["LOW_PRIORITY", "DELAYED", "HIGH_PRIORITY"]
  let ignore ← spaced "IGNORE"
  let action ← spacedOneOf ["INTO", "OVERWRITE"]
  let local_ ← spaced "LOCAL"
  if ← keyword "DIRECTORY" then
    let place ← textConstant
    let stored ← whenever (keywords ["STORED", "AS"]) fileFormat
    let q ← f.query
    return "INSERT" ++ (if action = " OVERWRITE" then action else "") ++ local_ ++
      " DIRECTORY '" ++ place ++ "'" ++ clause " STORED AS " stored ++ " " ++ q.text
  let table ← spaced "TABLE"
  let name := pathText (← path)
  let head := start ++ priority ++ ignore ++ action ++ table ++ " " ++ name ++ " "
  let rows ← insertedRows f
  let al ←
    if ← keyword "AS" then
      let p ← path
      pure (" AS " ++ pathText p ++ namesText " " (← columnNames))
    else pure ""
  return head ++ rows ++ al ++ (← onInsert f) ++ (← returning f)

/-- An update after its keyword. -/
def update (f : Forms) : Parser String := do
  let table ← joined f
  expectKeyword "SET"
  let sets ← assignments f
  let source ← whenever (keyword "FROM") (joined f)
  let filter ← whereClause f
  return "UPDATE " ++ table.text ++ " SET " ++ sets ++ clause " FROM " (source.map Joined.text) ++
    filter ++ (← returning f)

/-- A deletion after its keyword. -/
def deletion (f : Forms) : Parser String := do
  let from_ ← keyword "FROM"
  let sources ← commaSeparated (joined f)
  let using_ ← if ← keyword "USING" then commaSeparated (joined f) else pure []
  let filter ← whereClause f
  let back ← returning f
  let order ← if ← keywords ["ORDER", "BY"] then orderKeys f else pure []
  let limit ←
    if ← keyword "LIMIT" then
      if ← keyword "ALL" then pure none else some <$> f.expr
    else pure none
  return "DELETE " ++ (if from_ then "FROM " else "") ++ commas (sources.map Joined.text) ++
    listClause " USING " (using_.map Joined.text) ++ filter ++ back ++
    listClause " ORDER BY " (order.map Shown.text) ++ clause " LIMIT " (limit.map text)

/-! ## Merging -/

/-- What is done with rows that do or do not match. -/
def mergeAction (f : Forms) (inserts : Bool) : Parser String := do
  match ← expectOneOf ["UPDATE", "INSERT", "DELETE"] with
  | "INSERT" =>
    unless inserts do unexpected
    let columns ← columnNames
    let rows ←
      if ← keyword "ROW" then pure "ROW"
      else
        expectKeyword "VALUES"
        Shown.text <$> valueRows f
    return "INSERT " ++ namesText "" columns " " ++ rows
  | "UPDATE" =>
    if inserts then unexpected
    expectKeyword "SET"
    return "UPDATE SET " ++ (← assignments f)
  | k => if inserts then unexpected else return k

/-- A case of a merge, after the keyword WHEN. Only rows that are missing in the target are
    inserted, and they are not changed. -/
def mergeCase (f : Forms) : Parser String := do
  let missing ← keyword "NOT"
  expectKeyword "MATCHED"
  let bySource ← if missing then keywords ["BY", "SOURCE"] else pure false
  let byTarget ← if missing && !bySource then keywords ["BY", "TARGET"] else pure false
  let condition ← termAfter f "AND"
  expectKeyword "THEN"
  let action ← mergeAction f (missing && !bySource)
  return "WHEN " ++ (if missing then "NOT " else "") ++ "MATCHED" ++
    (if bySource then " BY SOURCE" else "") ++ (if byTarget then " BY TARGET" else "") ++
    clause " AND " (condition.map text) ++ " THEN " ++ action

/-- A merge of rows into a table, after the keyword. Its cases go up to the end. -/
def merge (f : Forms) : Parser String := do
  let into ← spaced "INTO"
  let table ← factor f
  expectKeyword "USING"
  let source ← factor f
  expectKeyword "ON"
  let on ← f.expr
  let cases ← whileSome (keyword "WHEN") (mergeCase f)
  unless (← get).isEmpty || (← atSymbol .semicolon) do unexpected
  return "MERGE" ++ into ++ " " ++ table.text ++ " USING " ++ source.text ++ " ON " ++ on.text ++ " " ++
    " ".intercalate cases

end StreamSql.Grammar
