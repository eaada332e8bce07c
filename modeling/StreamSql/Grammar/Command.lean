/-
  Statements of the `sqlparser` library about the session: its settings, transactions, cursors and
  prepared statements, privileges, and the care of tables. None of them is planned, so each is kept by
  its canonical text.
-/
import StreamSql.Grammar.Alteration

namespace StreamSql.Grammar

open Term (text texts)

/-! ## Transactions -/

/-- How a transaction sees others, after the keywords. -/
def isolation : Parser String := do
  if ← keywords ["READ", "UNCOMMITTED"] then return "READ UNCOMMITTED"
  else if ← keywords ["READ", "COMMITTED"] then return "READ COMMITTED"
  else if ← keywords ["REPEATABLE", "READ"] then return "REPEATABLE READ"
  else
    expectKeyword "SERIALIZABLE"
    return "SERIALIZABLE"

/-- A mode of a transaction, if one comes next. -/
def transactionMode? : Parser (Option String) := do
  if ← keywords ["ISOLATION", "LEVEL"] then return some ("ISOLATION LEVEL " ++ (← isolation))
  else if ← keywords ["READ", "ONLY"] then return some "READ ONLY"
  else if ← keywords ["READ", "WRITE"] then return some "READ WRITE"
  else return none

/-- Modes of a transaction, at most `n`. The commas between them may be missing, but after a comma
    one has to follow. -/
def transactionModes : Nat → Bool → Parser (List String)
  | 0, _ => return []
  | n + 1, required => do
    match ← transactionMode? with
    | some m =>
      let comma ← symbol .comma
      return m :: (← transactionModes n comma)
    | none => if required then unexpected else return []

/-- Modes of a transaction as text with a blank before it. -/
def modesText : Parser String := do
  return listClause " " (← transactionModes ((← get).length + 1) false)

/-- The start of a transaction, after the keyword BEGIN. -/
def transactionStart : Parser String := do
  let modifier ← spacedOneOf ["DEFERRED", "IMMEDIATE", "EXCLUSIVE"]
  let _ ← oneOf ["TRANSACTION", "WORK"]
  return "BEGIN" ++ modifier ++ " TRANSACTION" ++ (← modesText)

/-- The end of a transaction, after its keyword. -/
def transactionEnd : Parser String := do
  let _ ← oneOf ["TRANSACTION", "WORK"]
  if ← keyword "AND" then
    let no ← keyword "NO"
    expectKeyword "CHAIN"
    return if no then "" else " AND CHAIN"
  else return ""

/-- The return to a point of a transaction, after the keyword. -/
def rollback : Parser String := do
  let chain ← transactionEnd
  let point ← whenever (keyword "TO") do
    let _ ← keyword "SAVEPOINT"
    ident
  return "ROLLBACK" ++ chain ++ clause " TO SAVEPOINT " (point.map Ident.text)

/-! ## Settings -/

/-- Words up to the end or an equals sign. Other tokens between them are left out. -/
def wordsToEnd : Nat → Parser (List Ident)
  | 0 => return []
  | n + 1 => do
    match ← get with
    | [] => return []
    | .symbol .eq :: _ => return []
    | .word v q :: r => set r; return ⟨v, q⟩ :: (← wordsToEnd n)
    | _ :: r => set r; wordsToEnd n

/-- What a list is narrowed to, as text with a blank before it. -/
def showFilter (f : Forms) : Parser String := do
  if ← keyword "LIKE" then return " LIKE " ++ inQuotes '\x27' (← textConstant)
  else if ← keyword "ILIKE" then
    return " ILIKE " ++ String.ofList (escape '\x27' '\x00' (← textConstant).toList)
  else if ← atKeywords ["WHERE"] then whereClause f
  else return clause " " ((← attempt textConstant).map (inQuotes '\x27'))

/-- The columns of a table, after the keyword. The database may be named after the table. -/
def showColumns (f : Forms) (lead : String) : Parser String := do
  let _ ← expectOneOf ["FROM", "IN"]
  let table ← path
  let database ← if (← oneOf ["FROM", "IN"]).isSome then (fun i => [i]) <$> ident else pure []
  return lead ++ "COLUMNS FROM " ++ pathText (database ++ table) ++ (← showFilter f)

/-- The tables or views of a database, after the words that ask for them, which are given. -/
def showRelations (f : Forms) (lead : String) : Parser String := do
  let database ← match ← oneOf ["FROM", "IN"] with
    | some k => pure (" " ++ k ++ " " ++ (← ident).text)
    | none => pure ""
  return lead ++ database ++ (← showFilter f)

/-- A question about the session, after its keyword. -/
def showing (f : Forms) : Parser String := do
  let extended ← keyword "EXTENDED"
  let full ← keyword "FULL"
  let session ← spaced "SESSION"
  let global ← spaced "GLOBAL"
  let lead := "SHOW " ++ wordIf extended "EXTENDED" ++ wordIf full "FULL"
  if (← oneOf ["COLUMNS", "FIELDS"]).isSome then showColumns f lead
  else if ← keyword "TABLES" then showRelations f (lead ++ "TABLES")
  else if ← keywords ["MATERIALIZED", "VIEWS"] then showRelations f "SHOW MATERIALIZED VIEWS"
  else if ← keyword "VIEWS" then showRelations f "SHOW VIEWS"
  else if ← keyword "FUNCTIONS" then return "SHOW FUNCTIONS" ++ (← showFilter f)
  else if extended || full then unexpected
  else if ← keyword "CREATE" then
    let kind ← expectOneOf ["TABLE", "TRIGGER", "FUNCTION", "PROCEDURE", "EVENT", "VIEW"]
    return "SHOW CREATE " ++ kind ++ " " ++ pathText (← path)
  else if ← keyword "COLLATION" then return "SHOW COLLATION" ++ (← showFilter f)
  else match ← oneOf ["VARIABLES", "STATUS"] with
    | some k => return "SHOW" ++ global ++ session ++ " " ++ k ++ (← showFilter f)
    | none =>
      if let some k ← oneOf ["DATABASES", "SCHEMAS"] then return "SHOW " ++ k ++ (← showFilter f)
      let is ← wordsToEnd ((← get).length + 1)
      return "SHOW" ++ (if is.isEmpty then "" else " " ++ " ".intercalate (is.map Ident.text))

/-- The role of the session, after the scope that is given. -/
def setRole (scope : String) : Parser String := do
  expectKeyword "ROLE"
  let role ← if ← keyword "NONE" then pure "NONE" else Ident.text <$> ident
  return "SET" ++ scope ++ " ROLE " ++ role

/-- The characters that the session uses, after the words that ask for them. -/
def setNames : Parser String := do
  if ← keyword "DEFAULT" then return "SET NAMES DEFAULT"
  let names ← textConstant
  let collation ← whenever (keyword "COLLATE") textConstant
  return "SET NAMES " ++ names ++ clause " COLLATE " collation

/-- Settings of transactions and times, which need no equals sign. -/
def setPlain (f : Forms) (scope : Option String) (name : String) : Parser String := do
  if Keyword.capitals name = "TIMEZONE" then
    let t ← shallowly f.expr
    return "SET " ++ wordIf (scope = some "LOCAL") "LOCAL" ++ "TIME ZONE " ++ t.text
  else if name = "CHARACTERISTICS" then
    expectKeywords ["AS", "TRANSACTION"]
    return "SET SESSION CHARACTERISTICS AS TRANSACTION" ++ (← modesText)
  else if name = "TRANSACTION" && scope.isNone then
    if ← keyword "SNAPSHOT" then return "SET TRANSACTION SNAPSHOT " ++ (← value).text
    else return "SET TRANSACTION" ++ (← modesText)
  else unexpected

/-- Takes an equals sign or the word for it. -/
def assigns : Parser Bool := do
  if ← symbol .eq then return true else keyword "TO"

/-- The value of a setting: a query without parentheses, which it is shown with, or a term. -/
def settingValue (f : Forms) : Parser String := do
  if ← atQuery then return "(" ++ (← f.query).text ++ ")" else return (← shallowly f.expr).text

/-- A setting of the session, after its keyword. The values of several names stand in parentheses;
    those of one name in parentheses are shown without them. -/
def setting (f : Forms) : Parser String := do
  let scope ← oneOf ["SESSION", "LOCAL", "HIVEVAR"]
  if scope = some "HIVEVAR" then expectSymbol .colon
  else if let some s ← attempt (setRole (clause " " scope)) then return s
  let lead := "SET " ++ wordIf (scope = some "LOCAL") "LOCAL" ++
    (if scope = some "HIVEVAR" then "HIVEVAR:" else "")
  if ← atSymbol .lParen then
    let names ← parenthesized (commaSeparated ident)
    unless ← assigns do unexpected
    let values := commas (← parenthesized (commaSeparated (settingValue f)))
    return lead ++ namesText "" names ++ " = " ++
      (if names.length > 1 then "(" ++ values ++ ")" else values)
  let name ← if ← keywords ["TIME", "ZONE"] then pure "TIMEZONE" else pathText <$> path
  if Keyword.capitals name = "NAMES" then setNames
  else if ← assigns then
    return lead ++ name ++ " = " ++ commas (← commaSeparated (settingValue f))
  else setPlain f scope name

/-! ## Cursors and prepared statements -/

/-- A cursor after the keyword that declares it. -/
def declaration (f : Forms) : Parser String := do
  let name ← ident
  let binary ← spaced "BINARY"
  let sensitive ← spacedOneOf ["INSENSITIVE", "ASENSITIVE"]
  let scroll := choiceText "SCROLL" "NO SCROLL" (← choice ["SCROLL"] ["NO", "SCROLL"])
  expectKeyword "CURSOR"
  let hold ← match ← oneOf ["WITH", "WITHOUT"] with
    | some k =>
      expectKeyword "HOLD"
      pure (" " ++ k ++ " HOLD")
    | none => pure ""
  expectKeyword "FOR"
  let q ← f.query
  return "DECLARE " ++ name.text ++ binary ++ sensitive ++ scroll ++ " CURSOR" ++ hold ++ " FOR " ++
    q.text

/-- Where a cursor moves. -/
def direction : Parser String := do
  match ← oneOf
      ["NEXT", "PRIOR", "FIRST", "LAST", "ABSOLUTE", "RELATIVE", "FORWARD", "BACKWARD", "ALL"] with
  | some k =>
    if k = "ABSOLUTE" || k = "RELATIVE" then return k ++ " " ++ (← numberValue).text
    else if k = "FORWARD" || k = "BACKWARD" then
      if ← keyword "ALL" then return k ++ " ALL" else return k ++ " " ++ (← numberValue).text
    else return k
  | none => return (← numberValue).text

/-- Rows of a cursor, after the keyword. -/
def fetching : Parser String := do
  let way ← direction
  let _ ← expectOneOf ["FROM", "IN"]
  let name ← ident
  let target ← whenever (keyword "INTO") path
  return "FETCH " ++ way ++ " IN " ++ name.text ++ clause " INTO " (target.map pathText)

/-- A call of a procedure, after the keyword. -/
def procedureCall (f : Forms) : Parser String := do
  let name ← path
  if ← atSymbol .lParen then return "CALL " ++ (← call f name).text
  else return "CALL " ++ pathText name

/-- The run of a prepared statement, after the keyword. -/
def execution (f : Forms) : Parser String := do
  let name ← path
  let ended := (← get).isEmpty || (← atKeywords ["USING"])
  let list ←
    if ← atSymbol .lParen then
      (fun ts => "(" ++ commas (texts ts) ++ ")") <$> parenthesized (listUntil .rParen f.expr)
    else if ended then pure ""
    else (fun ts => " " ++ commas (texts ts)) <$> f.exprs
  let using_ ← if ← keyword "USING" then f.exprs else pure []
  return "EXECUTE " ++ pathText name ++ list ++ listClause " USING " (texts using_)

/-! ## Privileges -/

/-- Something that may be done. -/
def privilege : Parser String := do
  let k ← expectOneOf
    ["CONNECT", "CREATE", "DELETE", "EXECUTE", "INSERT", "REFERENCES", "SELECT", "TEMPORARY", "TRIGGER",
     "TRUNCATE", "UPDATE", "USAGE"]
  if ["INSERT", "REFERENCES", "SELECT", "UPDATE"].contains k then
    return k ++ namesText " " (← columnNames)
  else return k

/-- What may be done, and with what. -/
def privileges : Parser String := do
  let actions ←
    if ← keyword "ALL" then pure ("ALL" ++ (← spaced "PRIVILEGES"))
    else commas <$> commaSeparated privilege
  expectKeyword "ON"
  let objects ←
    if ← keywords ["ALL", "TABLES", "IN", "SCHEMA"] then pure "ALL TABLES IN SCHEMA "
    else if ← keywords ["ALL", "SEQUENCES", "IN", "SCHEMA"] then pure "ALL SEQUENCES IN SCHEMA "
    else match ← oneOf ["SEQUENCE", "SCHEMA", "TABLE"] with
      | some "TABLE" | none => pure ""
      | some k => pure (k ++ " ")
  let names ← commaSeparated path
  return actions ++ " ON " ++ objects ++ commas (names.map pathText)

/-- Names of roles with commas between them. -/
def roles : Parser String := do
  return commas ((← commaSeparated ident).map Ident.text)

/-- A grant after its keyword. -/
def grant : Parser String := do
  let what ← privileges
  expectKeyword "TO"
  let who ← roles
  let option ← spacedAll ["WITH", "GRANT", "OPTION"]
  let by_ ← whenever (keywords ["GRANTED", "BY"]) ident
  return "GRANT " ++ what ++ " TO " ++ who ++ option ++ clause " GRANTED BY " (by_.map Ident.text)

/-- The end of a grant, after its keyword. -/
def revocation : Parser String := do
  let what ← privileges
  expectKeyword "FROM"
  let who ← roles
  let by_ ← whenever (keywords ["GRANTED", "BY"]) ident
  let cascade ← keyword "CASCADE"
  let restrict ← keyword "RESTRICT"
  if cascade && restrict then unexpected
  return "REVOKE " ++ what ++ " FROM " ++ who ++ clause " GRANTED BY " (by_.map Ident.text) ++
    (if cascade then " CASCADE" else " RESTRICT")

/-! ## Tables and files -/

/-- What is done with the statistics of a table, in at most `n` clauses. Each is shown in a place of
    its own. -/
structure Statistics where
  partitions : Option String := none
  compute : Bool := false
  noScan : Bool := false
  cache : Bool := false
  columns : Option (List Ident) := none

def statistics (f : Forms) : Nat → Statistics → Parser Statistics
  | 0, s => return s
  | n + 1, s => do
    if ← keyword "PARTITION" then
      let ts ← parenthesized f.exprs
      statistics f n { s with partitions := some (commas (texts ts)) }
    else if ← keyword "NOSCAN" then statistics f n { s with noScan := true }
    else if ← keyword "FOR" then
      expectKeyword "COLUMNS"
      statistics f n { s with columns := some ((← attempt (commaSeparated ident)).getD []) }
    else if ← keyword "CACHE" then
      expectKeyword "METADATA"
      statistics f n { s with cache := true }
    else if ← keyword "COMPUTE" then
      expectKeyword "STATISTICS"
      statistics f n { s with compute := true }
    else return s

/-- A look at the rows of a table, after the keyword. -/
def analysis (f : Forms) : Parser String := do
  expectKeyword "TABLE"
  let name ← path
  let s ← statistics f ((← get).length + 1) {}
  return "ANALYZE TABLE " ++ pathText name ++ clause " PARTITION (" (s.partitions.map (· ++ ")")) ++
    (if s.compute then " COMPUTE STATISTICS" else "") ++ (if s.noScan then " NOSCAN" else "") ++
    (if s.cache then " CACHE METADATA" else "") ++
    clause " FOR COLUMNS" (s.columns.map fun cs => listClause " " (cs.map Ident.text))

/-- A table that is kept in memory, after the keyword. -/
def caching (f : Forms) : Parser String := do
  let flag ← if ← atKeywords ["TABLE"] then pure none else some <$> path
  expectKeyword "TABLE"
  let name ← path
  let options ← optionsAfter f "OPTIONS" " OPTIONS"
  let as ← keyword "AS"
  let q ← match ← peek? with
    | none => if as then unexpected else pure none
    | some (.word _ _) => some <$> f.query
    | some _ => if as then some <$> f.query else unexpected
  return "CACHE " ++ clause "" (flag.map (pathText · ++ " ")) ++ "TABLE " ++ pathText name ++ options ++
    clause (if as then " AS " else " ") (q.map Query.text)

/-- One character in quotes, which takes one byte. -/
def quotedChar : Parser String := do
  let s ← textConstant
  if s.utf8ByteSize = 1 then return "'" ++ s ++ "'" else unexpected

/-- What copied rows look like. -/
def copyOption : Parser String := do
  let flag := fun (k : String) => do
    match ← oneOf ["TRUE", "FALSE"] with
    | some "FALSE" => return k ++ " FALSE"
    | _ => return k
  match ← expectOneOf
      ["FORMAT", "FREEZE", "DELIMITER", "NULL", "HEADER", "QUOTE", "ESCAPE", "FORCE_QUOTE",
       "FORCE_NOT_NULL", "FORCE_NULL", "ENCODING"] with
  | "FORMAT" => return "FORMAT " ++ (← ident).text
  | "FREEZE" => flag "FREEZE"
  | "HEADER" => flag "HEADER"
  | k =>
    if k.startsWith "FORCE" then return k ++ namesText " " (← columnList)
    else if k = "NULL" || k = "ENCODING" then return k ++ " " ++ inQuotes '\x27' (← textConstant)
    else return k ++ " " ++ (← quotedChar)

/-- What copied rows with commas in them look like, in the older form. -/
def commaOption : Parser String := do
  match ← expectOneOf ["HEADER", "QUOTE", "ESCAPE", "FORCE"] with
  | "HEADER" => return "HEADER"
  | "FORCE" =>
    let k ← if ← keywords ["NOT", "NULL"] then pure "NOT NULL" else expectOneOf ["QUOTE"]
    return "FORCE " ++ k ++ " " ++ commas ((← commaSeparated ident).map Ident.text)
  | k =>
    let _ ← keyword "AS"
    return k ++ " " ++ (← quotedChar)

/-- What copied rows look like, in the older form. -/
def plainCopyOption : Parser String := do
  match ← expectOneOf ["BINARY", "DELIMITER", "NULL", "CSV"] with
  | "DELIMITER" =>
    let _ ← keyword "AS"
    return "DELIMITER " ++ (← quotedChar)
  | "NULL" =>
    let _ ← keyword "AS"
    return "NULL " ++ inQuotes '\x27' (← textConstant)
  | "CSV" => return "CSV" ++ String.join ((← many (attempt commaOption)).map (" " ++ ·))
  | k => return k

/-- A copy of rows to or from a file, after the keyword. -/
def copying (f : Forms) : Parser String := do
  let (isQuery, source) ←
    if ← atSymbol .lParen then
      let q ← parenthesized f.query
      pure (true, "(" ++ q.text ++ ")")
    else
      let name ← path
      pure (false, pathText name ++ namesText " " (← columnNames))
  let way ← expectOneOf ["FROM", "TO"]
  if isQuery && way = "FROM" then unexpected
  let target ←
    if ← keyword "STDOUT" then pure "STDOUT"
    else if ← keyword "PROGRAM" then (fun s => "PROGRAM " ++ inQuotes '\x27' s) <$> textConstant
    else inQuotes '\x27' <$> textConstant
  let _ ← keyword "WITH"
  let options ←
    if ← atSymbol .lParen then
      (fun os => " (" ++ commas os ++ ")") <$> parenthesized (commaSeparated copyOption)
    else pure ""
  let plain ← many (attempt plainCopyOption)
  return "COPY " ++ source ++ " " ++ way ++ " " ++ target ++ options ++
    String.join (plain.map (" " ++ ·))

/-- The repair of a table's partitions, after the keyword. -/
def repair : Parser String := do
  let repair ← keyword "REPAIR"
  expectKeyword "TABLE"
  let name ← path
  let action ← match ← oneOf ["ADD", "DROP", "SYNC"] with
    | some k =>
      expectKeyword "PARTITIONS"
      pure (" " ++ k ++ " PARTITIONS")
    | none => pure ""
  return "MSCK " ++ wordIf repair "REPAIR" ++ "TABLE " ++ pathText name ++ action

/-- A setting of the program that keeps the tables, after the keyword. -/
def pragma : Parser String := do
  let shown : Parser String := do
    match ← peek? with
    | some (.string _) | some (.word _ (some '\x22')) => return (← value).text
    | _ => return (← numberValue).text
  let name ← path
  if ← atSymbol .lParen then return "PRAGMA " ++ pathText name ++ "(" ++ (← parenthesized shown) ++ ")"
  else if ← symbol .eq then return "PRAGMA " ++ pathText name ++ " = " ++ (← shown)
  else return "PRAGMA " ++ pathText name

/-- The end of something that runs, after the keyword. -/
def killing : Parser String := do
  let kind ← oneOf ["CONNECTION", "QUERY", "MUTATION"]
  return "KILL " ++ clause "" (kind.map (· ++ " ")) ++ toString (← natural)

/-- What is forgotten, after the keyword. -/
def discard : Parser String := do
  match ← expectOneOf ["ALL", "PLANS", "SEQUENCES", "TEMP", "TEMPORARY"] with
  | "TEMPORARY" => return "DISCARD TEMP"
  | k => return "DISCARD " ++ k

/-- A file that becomes a database, after the keyword. -/
def attachment (f : Forms) : Parser String := do
  let database ← keyword "DATABASE"
  let file ← f.expr
  expectKeyword "AS"
  return "ATTACH " ++ wordIf database "DATABASE" ++ file.text ++ " AS " ++ (← ident).text

/-- A database that is let go, after the keyword. -/
def detachment : Parser String := do
  let database ← spaced "DATABASE"
  let exists_ ← spacedAll ["IF", "EXISTS"]
  return "DETACH" ++ database ++ exists_ ++ " " ++ (← ident).text

/-- Rows that go to a file, after the keyword. -/
def unloading (f : Forms) : Parser String := do
  let q ← parenthesized f.query
  expectKeyword "TO"
  let target ← ident
  return "UNLOAD(" ++ q.text ++ ") TO " ++ target.text ++ (← optionsAfter f "WITH" " WITH ")

/-- A table that is put in order, after the keyword. -/
def optimization (f : Forms) : Parser String := do
  expectKeyword "TABLE"
  let name ← path
  let cluster ← whenever (keywords ["ON", "CLUSTER"]) ident
  let partition ← textAfter ["PARTITION"] do
    if ← keyword "ID" then return " PARTITION ID " ++ (← ident).text
    else return " PARTITION " ++ (← f.expr).text
  let final ← spaced "FINAL"
  let deduplicate ← textAfter ["DEDUPLICATE"] do
    return " DEDUPLICATE" ++ clause " BY " ((← termAfter f "BY").map text)
  return "OPTIMIZE TABLE " ++ pathText name ++ clause " ON CLUSTER " (cluster.map Ident.text) ++
    partition ++ final ++ deduplicate

/-- The tables whose memory is written out, and how they are held meanwhile. -/
structure Flushed where
  tables : List (List Ident) := []
  locked : Bool := false
  exported : Bool := false

/-- The tables whose memory is written out, in at most `n` clauses. The last names count, other
    keywords between them are left out, and the first token that is no word ends the clauses and is
    taken with them. -/
def flushedTables : Nat → Flushed → Parser Flushed
  | 0, s => return s
  | n + 1, s => do
    let ts ← get
    match ← next? with
    | some t@(.word _ _) =>
      match t.keyword? with
      | none =>
        set ts
        flushedTables n { s with tables := ← commaSeparated path }
      | some "WITH" => flushedTables n { s with locked := ← keywords ["READ", "LOCK"] }
      | some "FOR" => flushedTables n { s with exported := ← keyword "EXPORT" }
      | some _ => flushedTables n s
    | _ => return s

/-- What is written out and begun anew, after the keyword. -/
def flushing : Parser String := do
  let scope ← spacedOneOf ["NO_WRITE_TO_BINLOG", "LOCAL"]
  let logs := fun k => keywords [k, "LOGS"]
  let lead := "FLUSH" ++ scope ++ " "
  if ← logs "BINARY" then return lead ++ "BINARY LOGS"
  else if ← logs "ENGINE" then return lead ++ "ENGINE LOGS"
  else if ← logs "ERROR" then return lead ++ "ERROR LOGS"
  else if ← logs "GENERAL" then return lead ++ "GENERAL LOGS"
  else if ← logs "SLOW" then return lead ++ "SLOW LOGS"
  else if ← logs "RELAY" then
    let channel ← whenever (keywords ["FOR", "CHANNEL"]) path
    return lead ++ "RELAY LOGS" ++ clause " FOR CHANNEL " (channel.map pathText)
  else if ← keyword "TABLES" then
    let s ← flushedTables ((← get).length + 1) {}
    return lead ++ "TABLES" ++ listClause " " (s.tables.map pathText) ++
      (if s.locked then " WITH READ LOCK" else "") ++ (if s.exported then " FOR EXPORT" else "")
  else
    return lead ++
      (← expectOneOf ["HOSTS", "PRIVILEGES", "OPTIMIZER_COSTS", "STATUS", "USER_RESOURCES", "LOGS"])

/-- A condition that has to hold, after the keyword. -/
def assertion (f : Forms) : Parser String := do
  let t ← f.expr
  return "ASSERT " ++ t.text ++ clause " AS " ((← termAfter f "AS").map text)

/-! ## By keyword -/

/-- The statement that a keyword begins, if there is one. The statements of a procedure are read by
    the parser that is given. -/
def command? (f : Forms) (statements : Parser (List Sentence)) (k : String) :
    Option (Parser String) :=
  match k with
  | "KILL" => some killing
  | "FLUSH" => some flushing
  | "ANALYZE" => some (analysis f)
  | "TRUNCATE" => some (truncation f)
  | "ATTACH" => some (attachment f)
  | "DETACH" => some detachment
  | "MSCK" => some repair
  | "CREATE" => some (creation f statements)
  | "CACHE" => some (caching f)
  | "DROP" => some (removal f)
  | "DISCARD" => some discard
  | "DECLARE" => some (declaration f)
  | "FETCH" => some fetching
  | "DELETE" => some (deletion f)
  | "INSERT" => some (insertion f "INSERT")
  | "REPLACE" => some (insertion f "REPLACE")
  | "UNCACHE" => some do
    expectKeyword "TABLE"
    let exists_ ← ifExists
    return "UNCACHE TABLE " ++ exists_ ++ pathText (← path)
  | "UPDATE" => some (update f)
  | "ALTER" => some (alteration f)
  | "CALL" => some (procedureCall f)
  | "COPY" => some (copying f)
  | "CLOSE" => some do
    if ← keyword "ALL" then return "CLOSE ALL" else return "CLOSE " ++ (← ident).text
  | "SET" => some (setting f)
  | "SHOW" => some (showing f)
  | "USE" => some do return "USE " ++ pathText (← path)
  | "GRANT" => some grant
  | "REVOKE" => some revocation
  | "START" => some do
    expectKeyword "TRANSACTION"
    return "START TRANSACTION" ++ (← modesText)
  | "BEGIN" => some transactionStart
  | "END" | "COMMIT" => some (("COMMIT" ++ ·) <$> transactionEnd)
  | "ROLLBACK" => some rollback
  | "SAVEPOINT" => some do return "SAVEPOINT " ++ (← ident).text
  | "RELEASE" => some do
    let _ ← keyword "SAVEPOINT"
    return "RELEASE SAVEPOINT " ++ (← ident).text
  | "ASSERT" => some (assertion f)
  | "DEALLOCATE" => some do
    let prepare ← keyword "PREPARE"
    return "DEALLOCATE " ++ wordIf prepare "PREPARE" ++ (← ident).text
  | "EXECUTE" | "EXEC" => some (execution f)
  | "MERGE" => some (merge f)
  | "PRAGMA" => some pragma
  | "UNLOAD" => some (unloading f)
  | "INSTALL" => some do return "INSTALL " ++ (← ident).text
  | "LOAD" => some do return "LOAD " ++ (← ident).text
  | "OPTIMIZE" => some (optimization f)
  | _ => none

end StreamSql.Grammar
