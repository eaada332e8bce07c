/-
  Tables of the `sqlparser` library: their columns, what the rows have to satisfy, and where and how
  the rows are stored. None of the statements that create tables is planned, so each is kept by its
  canonical text.
-/
import StreamSql.Grammar.Query

namespace StreamSql.Grammar

open Term (text texts)

/-- The word if it was given, with a blank after it. -/
def wordIf (given : Bool) (word : String) : String :=
  if given then word ++ " " else ""

/-- Takes keywords. Their text has a blank before it. -/
def spacedAll (ks : List String) : Parser String := do
  return if ← keywords ks then " " ++ " ".intercalate ks else ""

/-- The words for a test whether the thing is there already. -/
def ifNotExists : Parser String := do
  return wordIf (← keywords ["IF", "NOT", "EXISTS"]) "IF NOT EXISTS"

def ifExists : Parser String := do
  return wordIf (← keywords ["IF", "EXISTS"]) "IF EXISTS"

/-- Names in parentheses. -/
def columnList : Parser (List Ident) :=
  parenthesized (commaSeparated ident)

/-- The text that two parsers give in either order, each at most once: the first parser's text comes
    first. -/
def eitherOrder (p q : Parser (Option String)) : Parser String := do
  let a ← p
  let b ← q
  let a ← if a.isNone then p else pure a
  return clause " " a ++ clause " " b

/-! ## Columns -/

/-- What happens to rows that refer to a row that goes. -/
def referential : Parser String := do
  if ← keyword "RESTRICT" then return "RESTRICT"
  else if ← keyword "CASCADE" then return "CASCADE"
  else if ← keywords ["SET", "NULL"] then return "SET NULL"
  else if ← keywords ["NO", "ACTION"] then return "NO ACTION"
  else if ← keywords ["SET", "DEFAULT"] then return "SET DEFAULT"
  else unexpected

/-- What happens to a row when the one it refers to goes or changes. -/
def referentialActions : Parser String :=
  let action := fun k =>
    whenever (keywords ["ON", k]) ((("ON " ++ k ++ " ") ++ ·) <$> referential)
  eitherOrder (action "DELETE") (action "UPDATE")

/-- When a constraint is checked: whether it can wait, whether it does, and whether it is at all. -/
structure Timing where
  deferrable : Option Bool := none
  deferred : Option Bool := none
  enforced : Option Bool := none

/-- When a constraint is checked, in at most `n` clauses; each is given once. -/
def timing : Nat → Timing → Parser Timing
  | 0, t => return t
  | n + 1, t => do
    let deferrable ←
      if t.deferrable.isNone then choice ["DEFERRABLE"] ["NOT", "DEFERRABLE"] else pure none
    if deferrable.isSome then return ← timing n { t with deferrable }
    let deferred ←
      if t.deferred.isNone then
        whenever (keyword "INITIALLY") ((· == "DEFERRED") <$> expectOneOf ["DEFERRED", "IMMEDIATE"])
      else pure none
    if deferred.isSome then return ← timing n { t with deferred }
    let enforced ← if t.enforced.isNone then choice ["ENFORCED"] ["NOT", "ENFORCED"] else pure none
    if enforced.isSome then timing n { t with enforced } else return t

/-- When a constraint is checked, as text with a blank before each part. -/
def timingText : Parser String := do
  let t ← timing 3 {}
  return choiceText "DEFERRABLE" "NOT DEFERRABLE" t.deferrable ++
    choiceText "INITIALLY DEFERRED" "INITIALLY IMMEDIATE" t.deferred ++
    choiceText "ENFORCED" "NOT ENFORCED" t.enforced

/-- The index that a table is kept in, as an option of the table. -/
def clusteredOption : Parser String := do
  if ← keywords ["CLUSTERED", "COLUMNSTORE", "INDEX", "ORDER"] then
    return "CLUSTERED COLUMNSTORE INDEX ORDER" ++ namesText " " (← columnList)
  else if ← keywords ["CLUSTERED", "COLUMNSTORE", "INDEX"] then return "CLUSTERED COLUMNSTORE INDEX"
  else
    expectKeywords ["CLUSTERED", "INDEX"]
    let columns ← parenthesized <| commaSeparated do
      let i ← ident
      return i.text ++ (← spacedOneOf ["ASC", "DESC"])
    return "CLUSTERED INDEX (" ++ commas columns ++ ")"

/-- How the rows of a table are divided by ranges of a column, as an option of the table. -/
def partitionOption (f : Forms) : Parser String := do
  expectKeyword "PARTITION"
  let inner ← parenthesized do
    let i ← ident
    expectKeyword "RANGE"
    let side ← spacedOneOf ["LEFT", "RIGHT"]
    expectKeywords ["FOR", "VALUES"]
    let bounds ← parenthesized f.exprs
    return i.text ++ " RANGE" ++ side ++ " FOR VALUES (" ++ commas (texts bounds) ++ ")"
  return "PARTITION (" ++ inner ++ ")"

/-- An option, which is mostly a name with its value. -/
def option (f : Forms) : Parser String := do
  if ← atKeywords ["HEAP"] then return (← ident).text
  else if ← atKeywords ["PARTITION"] then partitionOption f
  else if ← atKeywords ["CLUSTERED"] then clusteredOption
  else
    let k ← ident
    expectSymbol .eq
    return k.text ++ " = " ++ (← f.expr).text

/-- Options with their values in parentheses. -/
def options (f : Forms) : Parser String := do
  return commas (← parenthesized (commaSeparated (option f)))

/-- A number, perhaps with a sign. -/
def signedNumber : Parser String := do
  if ← symbol .plus then return "+" ++ (← numberValue).text
  else if ← symbol .minus then return "-" ++ (← numberValue).text
  else return (← numberValue).text

/-- How the numbers of a sequence follow each other. -/
def sequenceOptions : Parser String := do
  let step ← whenever (keyword "INCREMENT") do
    return " INCREMENT" ++ (← spaced "BY") ++ " " ++ (← signedNumber)
  let bound := fun k => do
    if ← keyword k then return " " ++ k ++ " " ++ (← signedNumber) else spacedAll ["NO", k]
  let low ← bound "MINVALUE"
  let high ← bound "MAXVALUE"
  let start ← whenever (keyword "START") do
    return " START" ++ (← spaced "WITH") ++ " " ++ (← signedNumber)
  let cache ← whenever (keyword "CACHE") ((" CACHE " ++ ·) <$> signedNumber)
  let cycle := choiceText "NO CYCLE" "CYCLE" (← choice ["NO", "CYCLE"] ["CYCLE"])
  return clause "" step ++ low ++ high ++ clause "" start ++ clause "" cache ++ cycle

/-- A column whose values are computed, after the keyword GENERATED. -/
def generated (f : Forms) : Parser String := do
  let identity := fun when_ => do
    let os ← if ← atSymbol .lParen then parenthesized sequenceOptions else pure ""
    return "GENERATED " ++ when_ ++ " AS IDENTITY" ++ (if os = "" then "" else " (" ++ os ++ " )")
  if ← keywords ["ALWAYS", "AS", "IDENTITY"] then identity "ALWAYS"
  else if ← keywords ["BY", "DEFAULT", "AS", "IDENTITY"] then identity "BY DEFAULT"
  else
    expectKeywords ["ALWAYS", "AS"]
    let t ← parenthesized f.expr
    return "GENERATED ALWAYS AS (" ++ t.text ++ ")" ++ (← spacedOneOf ["STORED", "VIRTUAL"])

/-- A text in quotes. -/
def quotedText : Parser String := do
  match ← next with
  | .string s => return inQuotes '\x27' s
  | _ => unexpected

/-- The numbers that a column counts with, after the keyword: the first and the step. -/
def identityOption : Parser String := do
  if ← symbol .lParen then
    let seed ← signedNumber
    expectSymbol .comma
    let step ← signedNumber
    expectSymbol .rParen
    return "IDENTITY(" ++ seed ++ ", " ++ step ++ ")"
  else return "IDENTITY"

/-- An option of a column, if one follows. -/
def columnOption? (f : Forms) : Parser (Option String) := do
  if ← keywords ["CHARACTER", "SET"] then return some ("CHARACTER SET " ++ pathText (← path))
  else if ← keywords ["NOT", "NULL"] then return some "NOT NULL"
  else if ← keyword "COMMENT" then return some ("COMMENT " ++ (← quotedText))
  else if ← keyword "NULL" then return some "NULL"
  else if ← keyword "DEFAULT" then return some ("DEFAULT " ++ (← f.expr).text)
  else if ← keyword "MATERIALIZED" then return some ("MATERIALIZED " ++ (← f.expr).text)
  else if ← keyword "ALIAS" then return some ("ALIAS " ++ (← f.expr).text)
  else if ← keyword "EPHEMERAL" then
    if (← atSymbol .comma) || (← atSymbol .rParen) then return some "EPHEMERAL"
    else return some ("EPHEMERAL " ++ (← f.expr).text)
  else if ← keywords ["PRIMARY", "KEY"] then return some ("PRIMARY KEY" ++ (← timingText))
  else if ← keyword "UNIQUE" then return some ("UNIQUE" ++ (← timingText))
  else if ← keyword "REFERENCES" then
    let table ← path
    let columns ← columnNames
    let actions ← referentialActions
    return some
      ("REFERENCES " ++ pathText table ++ namesText " " columns ++ actions ++ (← timingText))
  else if ← keyword "CHECK" then return some ("CHECK (" ++ (← parenthesized f.expr).text ++ ")")
  else if ← keywords ["ON", "UPDATE"] then return some ("ON UPDATE " ++ (← f.expr).text)
  else if ← keywords ["ON", "CONFLICT"] then
    return some ("ON CONFLICT " ++ (← expectOneOf ["ROLLBACK", "ABORT", "FAIL", "IGNORE", "REPLACE"]))
  else if ← keyword "IDENTITY" then some <$> identityOption
  else if ← keyword "GENERATED" then some <$> generated f
  else if ← keyword "OPTIONS" then return some ("OPTIONS(" ++ (← options f) ++ ")")
  else if ← keyword "AS" then
    let t ← parenthesized f.expr
    return some ("AS (" ++ t.text ++ ")" ++ (← spacedOneOf ["STORED", "VIRTUAL"]))
  else oneOf ["AUTO_INCREMENT", "AUTOINCREMENT", "ASC", "DESC"]

/-- The options of a column, at most `n` of them, each perhaps with a name, and the order of its
    characters. The last such order counts. -/
def columnOptions (f : Forms) : Nat → Option (List Ident) → Parser (Option (List Ident) × String)
  | 0, _ => unexpected
  | n + 1, collation => do
    let name ← whenever (keyword "CONSTRAINT") ident
    match ← columnOption? f with
    | some o =>
      let (c, os) ← columnOptions f n collation
      return (c, clause " CONSTRAINT " (name.map Ident.text) ++ " " ++ o ++ os)
    | none =>
      if name.isSome then unexpected
      else if ← keyword "COLLATE" then columnOptions f n (some (← path))
      else return (collation, "")

/-- A column of a table. -/
def columnDef (f : Forms) : Parser String := do
  let i ← ident
  let type ← typeName
  let (collation, options) ← columnOptions f ((← get).length + 1) none
  return i.text ++ " " ++ type.text ++ clause " COLLATE " (collation.map pathText) ++ options

/-- How an index is kept, if that is said next. -/
def indexKind : Parser String := do
  if ← keyword "USING" then return " USING " ++ (← expectOneOf ["BTREE", "HASH"]) else return ""

/-- The kind and the columns of an index with the name that is given. -/
def indexColumns (name : Option Ident) : Parser String := do
  let kind ← indexKind
  return clause " " (name.map Ident.text) ++ kind ++ namesText " " (← columnList)

/-- What else is said about an index, if anything is. -/
def indexOption? : Parser (Option String) := do
  if ← keyword "USING" then return some (" USING " ++ (← expectOneOf ["BTREE", "HASH"]))
  else if ← keyword "COMMENT" then return some (" COMMENT '" ++ (← textConstant) ++ "'")
  else return none

/-- The columns of a key, which may have a name, and what else is said about it. -/
def keyColumns : Parser String := do
  let columns ← indexColumns (← attempt ident)
  let options ← many indexOption?
  return columns ++ String.join options ++ (← timingText)

/-- What the rows of a table have to satisfy, if it is stated next. -/
def tableConstraint? (f : Forms) : Parser (Option String) := do
  let name ← whenever (keyword "CONSTRAINT") ident
  let lead := clause "CONSTRAINT " (name.map (·.text ++ " "))
  if ← keyword "UNIQUE" then
    let index ← spacedOneOf ["KEY", "INDEX"]
    return some (lead ++ "UNIQUE" ++ index ++ (← keyColumns))
  else if ← keyword "PRIMARY" then
    expectKeyword "KEY"
    return some (lead ++ "PRIMARY KEY" ++ (← keyColumns))
  else if ← keyword "FOREIGN" then
    expectKeyword "KEY"
    let columns ← columnList
    expectKeyword "REFERENCES"
    let table ← path
    let referred ← columnList
    let actions ← referentialActions
    return some (lead ++ "FOREIGN KEY" ++ namesText " " columns ++ " REFERENCES " ++ pathText table ++
      namesText "" referred ++ actions ++ (← timingText))
  else if ← keyword "CHECK" then return some (lead ++ "CHECK (" ++ (← parenthesized f.expr).text ++ ")")
  else if name.isSome then unexpected
  else match ← oneOf ["INDEX", "KEY", "FULLTEXT", "SPATIAL"] with
    | some k =>
      if k = "INDEX" || k = "KEY" then
        let name ← if ← atKeywords ["USING"] then pure none else attempt ident
        return some (k ++ (← indexColumns name))
      else
        let index ← spacedOneOf ["KEY", "INDEX"]
        let name ← attempt ident
        return some (k ++ index ++ clause " " (name.map Ident.text) ++ namesText " " (← columnList))
    | none => return none

/-- The columns and constraints of a table after the opening parenthesis. -/
def tableElements (f : Forms) : Parser (List String × List String) := do
  if ← symbol .rParen then return ([], [])
  let elements ← commaSeparated do
    match ← tableConstraint? f with
    | some c => return (true, c)
    | none =>
      match ← peek? with
      | some (.word _ _) => return (false, ← columnDef f)
      | _ => unexpected
  expectSymbol .rParen
  return ((elements.filter (!·.1)).map Prod.snd, (elements.filter (·.1)).map Prod.snd)

/-! ## Tables -/

/-- A clause that is options in parentheses after a keyword. -/
def optionsAfter (f : Forms) (k lead : String) : Parser String := do
  if ← keyword k then return lead ++ "(" ++ (← options f) ++ ")" else return ""

/-- What ends a part of a row in a file, if that is said next. A clause that is begun and does not go
    on is the last one. -/
def rowEnd? : Parser (Option String) := do
  let ended := fun (ks : List String) => do
    if ← keywords ks then return some (" ".intercalate ks ++ " " ++ (← ident).text) else return none
  match ← oneOf ["FIELDS", "COLLECTION", "MAP", "LINES", "NULL"] with
  | some "FIELDS" =>
    match ← ended ["TERMINATED", "BY"] with
    | some e => return some ("FIELDS " ++ e ++ clause " " (← ended ["ESCAPED", "BY"]))
    | none => return none
  | some "COLLECTION" => return (← ended ["ITEMS", "TERMINATED", "BY"]).map ("COLLECTION " ++ ·)
  | some "MAP" => return (← ended ["KEYS", "TERMINATED", "BY"]).map ("MAP " ++ ·)
  | some "LINES" => return (← ended ["TERMINATED", "BY"]).map ("LINES " ++ ·)
  | some "NULL" => return (← ended ["DEFINED", "AS"]).map ("NULL " ++ ·)
  | _ => return none

/-- How rows are written in a file, after the keyword ROW. -/
def rowFormat : Parser String := do
  expectKeyword "FORMAT"
  if ← keyword "SERDE" then return "SERDE '" ++ (← textConstant) ++ "'"
  let _ ← keyword "DELIMITED"
  return "DELIMITED" ++ String.join ((← many rowEnd?).map (" " ++ ·))

/-- Where and how the rows of a table are stored: the format of a row, two programs that read and
    write files or the format of a file, properties of the format, and a place. -/
structure Storage where
  rows : Option String := none
  programs : Option String := none
  file : Option String := none
  properties : Option String := none
  place : Option String := none

/-- Where and how the rows of a table are stored, in at most `n` clauses: the last of each kind
    counts. -/
def storage (f : Forms) : Nat → Storage → Parser Storage
  | 0, s => return s
  | n + 1, s => do
    if ← keyword "ROW" then storage f n { s with rows := some (← rowFormat) }
    else if ← keyword "STORED" then
      expectKeyword "AS"
      if ← keyword "INPUTFORMAT" then
        let input ← f.expr
        expectKeyword "OUTPUTFORMAT"
        let output ← f.expr
        let programs := "INPUTFORMAT " ++ input.text ++ " OUTPUTFORMAT " ++ output.text
        storage f n { s with programs := some programs, file := none }
      else storage f n { s with programs := none, file := some (← fileFormat) }
    else if ← keyword "LOCATION" then storage f n { s with place := some (← textConstant) }
    else if ← keywords ["WITH", "SERDEPROPERTIES"] then
      storage f n { s with properties := some (← options f) }
    else return s

/-- Where and how the rows of a table are stored, as text. A table whose rows lie outside has the
    format of its file next to the place. -/
def Storage.text (s : Storage) (outside : Bool) : String :=
  let file := clause " STORED AS " s.file
  clause " ROW FORMAT " s.rows ++ clause " STORED AS " s.programs ++ (if outside then "" else file) ++
    clause " WITH SERDEPROPERTIES (" (s.properties.map (· ++ ")")) ++ (if outside then file else "") ++
    clause " LOCATION '" (s.place.map (· ++ "'"))

/-- The columns that the rows of a table are divided by. -/
def partitionedBy (f : Forms) : Parser String := do
  if ← keywords ["PARTITIONED", "BY"] then
    return " PARTITIONED BY (" ++ commas (← parenthesized (commaSeparated (columnDef f))) ++ ")"
  else return ""

/-- The columns whose values put the rows of a table into so many groups. -/
def clusteredBy (f : Forms) : Parser String := do
  if ← keywords ["CLUSTERED", "BY"] then
    let columns ← columnList
    let keys ← if ← keywords ["SORTED", "BY"] then parenthesized (orderKeys f) else pure []
    expectKeyword "INTO"
    let count ← numberValue
    expectKeyword "BUCKETS"
    return namesText " CLUSTERED BY " columns ++
      (if keys.isEmpty then "" else " SORTED BY (" ++ commas (keys.map Shown.text) ++ ")") ++
      " INTO " ++ count.text ++ " BUCKETS"
  else return ""

/-- The program that keeps a table, after the keyword. -/
def engine : Parser String := do
  expectSymbol .eq
  match ← next with
  | .word v _ => return " ENGINE=" ++ v ++ namesText "" (← columnNames)
  | _ => unexpected

/-- The key that the rows of a table are ordered by, after the keywords. -/
def tableOrder (f : Forms) : Parser String := do
  if ← atSymbol .lParen then
    return " ORDER BY (" ++ commas (texts (← parenthesized (listUntil .rParen f.expr))) ++ ")"
  else return " ORDER BY " ++ (← f.expr).text

/-- An option that is a word after an equals sign, after the keywords. -/
def wordOption (lead : String) : Parser String := do
  expectSymbol .eq
  match ← next with
  | .word v _ => return lead ++ "=" ++ v
  | _ => unexpected

/-- What a table has when a transaction ends, after the keywords. -/
def onCommit : Parser String := do
  if ← keywords ["DELETE", "ROWS"] then return " ON COMMIT DELETE ROWS"
  else if ← keywords ["PRESERVE", "ROWS"] then return " ON COMMIT PRESERVE ROWS"
  else
    expectKeyword "DROP"
    return " ON COMMIT DROP"

/-- What a parser gives if the keywords come next, and no text otherwise. -/
def textAfter (ks : List String) (p : Parser String) : Parser String := do
  if ← keywords ks then p else return ""

/-- Options of a table from the order of its rows on. -/
def tableOptions (f : Forms) : Parser String := do
  let order ← textAfter ["ORDER", "BY"] (tableOrder f)
  let partition ← textAfter ["PARTITION", "BY"] do return " PARTITION BY " ++ (← f.expr).text
  let cluster ← textAfter ["CLUSTER", "BY"] do
    return " CLUSTER BY " ++ commas ((← commaSeparated ident).map Ident.text)
  let settings ← optionsAfter f "OPTIONS" " OPTIONS"
  let charset ← textAfter ["DEFAULT", "CHARSET"] (wordOption " DEFAULT CHARSET")
  let collate ← textAfter ["COLLATE"] (wordOption " COLLATE")
  let commit ← textAfter ["ON", "COMMIT"] onCommit
  let strict ← spaced "STRICT"
  return order ++ partition ++ cluster ++ settings ++ charset ++ collate ++ commit ++ strict

/-- A comment, after the keyword. -/
def tableComment : Parser String := do
  let eq ← symbol .eq
  match ← next with
  | .string s => return " COMMENT " ++ (if eq then "= '" else "'") ++ s ++ "'"
  | _ => unexpected

/-- The texts of the columns and constraints of a table in parentheses. -/
def elementsText (elements : List String × List String) (ifNone : String) : String :=
  if elements.1.isEmpty && elements.2.isEmpty then ifNone
  else " (" ++ commas (elements.1 ++ elements.2) ++ ")"

/-- The servers that a statement is for, if they are named. -/
def onCluster : Parser String := do
  return clause " ON CLUSTER " ((← whenever (keywords ["ON", "CLUSTER"]) ident).map Ident.text)

/-- A table after the words that create it, which are given. Without columns, a model or a query it
    has empty parentheses. -/
def createTable (f : Forms) (lead : String) : Parser String := do
  let exists_ ← ifNotExists
  let name ← path
  let cluster ← onCluster
  let like_ ← if (← oneOf ["LIKE", "ILIKE"]).isSome then takenPath? else pure none
  let clone ← if ← keyword "CLONE" then takenPath? else pure none
  let elements ← if ← symbol .lParen then tableElements f else pure ([], [])
  let rowid ← spacedAll ["WITHOUT", "ROWID"]
  let partitioned ← partitionedBy f
  let clustered ← clusteredBy f
  let stored ← storage f ((← get).length + 1) {}
  let with_ ← optionsAfter f "WITH" " WITH "
  let properties ← optionsAfter f "TBLPROPERTIES" " TBLPROPERTIES "
  let engine ← textAfter ["ENGINE"] engine
  let increment ← textAfter ["AUTO_INCREMENT"] do
    let _ ← symbol .eq
    let n ← natural
    if n < UInt32.size then return " AUTO_INCREMENT " ++ toString n else unexpected
  let key ← textAfter ["PRIMARY", "KEY"] do return " PRIMARY KEY " ++ (← f.expr).text
  let tail ← tableOptions f
  let comment ← textAfter ["COMMENT"] tableComment
  let q ← whenever (keyword "AS") f.query
  let bare := q.isNone && like_.isNone && clone.isNone
  return lead ++ "TABLE " ++ exists_ ++ pathText name ++ cluster ++
    elementsText elements (if bare then " ()" else "") ++ rowid ++
    clause " LIKE " (like_.map pathText) ++ clause " CLONE " (clone.map pathText) ++ partitioned ++
    clustered ++ stored.text false ++ properties ++ with_ ++ engine ++ comment ++ increment ++ key ++
    tail ++ clause " AS " (q.map Query.text)

/-- A table whose rows lie outside, after the words that create it, which are given. -/
def createExternalTable (f : Forms) (lead : String) : Parser String := do
  expectKeyword "TABLE"
  let exists_ ← ifNotExists
  let name ← path
  let elements ← if ← symbol .lParen then tableElements f else pure ([], [])
  let partitioned ← partitionedBy f
  let stored ← storage f ((← get).length + 1) {}
  let properties ← optionsAfter f "TBLPROPERTIES" " TBLPROPERTIES "
  return lead ++ "EXTERNAL TABLE " ++ exists_ ++ pathText name ++ elementsText elements " ()" ++
    partitioned ++ stored.text true ++ properties

end StreamSql.Grammar
