/-
  Statements of the `sqlparser` library that define views, indexes, types, policies and other objects,
  and the choice among all statements that create something. None of them is planned, so each is kept
  by its canonical text.
-/
import StreamSql.Grammar.Routine

namespace StreamSql.Grammar

open Term (text texts)

/-! ## Objects -/

/-- A column of a view, perhaps with its options. -/
def viewColumn (f : Forms) : Parser String := do
  let i ← ident
  if (← atKeywords ["OPTIONS"]) || (← atKeywords ["COMMENT"]) then
    return i.text ++ clause " " (← columnOption? f)
  else return i.text

/-- A view after the words that create it, which are given. -/
def createView (f : Forms) (lead : String) : Parser String := do
  let exists_ ← ifNotExists
  let name ← path
  let columns ←
    if ← atSymbol .lParen then
      parenthesized (listUntil .rParen (viewColumn f))
    else pure []
  let with_ ← optionsAfter f "WITH" " WITH "
  let cluster ← textAfter ["CLUSTER", "BY"] do return namesText " CLUSTER BY " (← columnNames)
  let settings ← optionsAfter f "OPTIONS" " OPTIONS"
  let target ← whenever (keyword "TO") path
  let comment ← textAfter ["COMMENT"] do
    expectSymbol .eq
    return " COMMENT = " ++ (← quotedText)
  expectKeyword "AS"
  let q ← f.query
  let binding ← spacedAll ["WITH", "NO", "SCHEMA", "BINDING"]
  return lead ++ "VIEW " ++ exists_ ++ pathText name ++ clause " TO " (target.map pathText) ++
    (if columns.isEmpty then "" else " (" ++ commas columns ++ ")") ++
    (if settings = "" then with_ else "") ++ comment ++ cluster ++ settings ++ " AS " ++ q.text ++ binding

/-- An index after the words that create it. -/
def createIndex (f : Forms) (unique : Bool) : Parser String := do
  let concurrently ← keyword "CONCURRENTLY"
  let exists_ ← ifNotExists
  let name ← if exists_ = "" && (← atKeywords ["ON"]) then pure none else some <$> path
  expectKeyword "ON"
  let table ← path
  let using_ ← whenever (keyword "USING") ident
  let keys ← parenthesized (orderKeys f)
  let included ← if ← keyword "INCLUDE" then columnList else pure []
  let nulls ← textAfter ["NULLS"] do
    let not_ ← spaced "NOT"
    expectKeyword "DISTINCT"
    return " NULLS" ++ not_ ++ " DISTINCT"
  let with_ ← textAfter ["WITH"] do return " WITH (" ++ commas (texts (← parenthesized f.exprs)) ++ ")"
  let filter ← whereClause f
  return "CREATE " ++ wordIf unique "UNIQUE" ++ "INDEX " ++ wordIf concurrently "CONCURRENTLY" ++
    exists_ ++ clause "" (name.map (pathText · ++ " ")) ++ "ON " ++ pathText table ++
    clause " USING " (using_.map (·.text ++ " ")) ++
    "(" ++ ",".intercalate (keys.map Shown.text) ++ ")" ++
    (if included.isEmpty then "" else " INCLUDE (" ++ ",".intercalate (included.map Ident.text) ++ ")") ++
    nulls ++ with_ ++ filter

/-- A schema after the words that create it. -/
def createSchema : Parser String := do
  let exists_ ← ifNotExists
  let name ← if ← atKeywords ["AUTHORIZATION"] then pure none else some <$> path
  let owner ← whenever (keyword "AUTHORIZATION") ident
  return "CREATE SCHEMA " ++ exists_ ++ clause "" (name.map pathText) ++
    (if name.isSome && owner.isSome then " " else "") ++
    clause "AUTHORIZATION " (owner.map Ident.text)

/-- Places of a database, at most `n` clauses: the last of each kind counts. -/
def databasePlaces : Nat → Option String → Option String → Parser (Option String × Option String)
  | 0, a, b => return (a, b)
  | n + 1, a, b => do
    if ← keyword "LOCATION" then databasePlaces n (some (← textConstant)) b
    else if ← keyword "MANAGEDLOCATION" then databasePlaces n a (some (← textConstant))
    else return (a, b)

/-- A database after the words that create it. -/
def createDatabase : Parser String := do
  let exists_ ← ifNotExists
  let name ← path
  let (place, managed) ← databasePlaces ((← get).length + 1) none none
  return "CREATE DATABASE " ++ exists_ ++ pathText name ++ clause " LOCATION '" (place.map (· ++ "'")) ++
    clause " MANAGEDLOCATION '" (managed.map (· ++ "'"))

/-- A sequence of numbers after the words that create it. -/
def createSequence (temporary : Bool) : Parser String := do
  let exists_ ← ifNotExists
  let name ← path
  let type ← whenever (keyword "AS") typeName
  let options ← sequenceOptions
  let owner ← whenever (keywords ["OWNED", "BY"]) do
    if ← keyword "NONE" then return "NONE" else return pathText (← path)
  return "CREATE " ++ wordIf temporary "TEMPORARY" ++ "SEQUENCE " ++ exists_ ++ pathText name ++
    clause " AS " (type.map TypeName.text) ++ options ++ clause " OWNED BY " owner

/-- An attribute of a composed type. -/
def typeAttribute : Parser String := do
  let i ← ident
  let type ← typeName
  let collation ← whenever (keyword "COLLATE") path
  return i.text ++ " " ++ type.text ++ clause " COLLATE " (collation.map pathText)

/-- Attributes of a composed type up to the closing parenthesis, at most `n`. A comma may stand
    after the last one. -/
def typeAttributes : Nat → Parser (List String)
  | 0 => unexpected
  | n + 1 => do
    if ← symbol .rParen then return []
    let a ← typeAttribute
    if ← symbol .comma then return a :: (← typeAttributes n)
    else
      expectSymbol .rParen
      return [a]

/-- A composed type after the words that create it. -/
def createType : Parser String := do
  let name ← path
  expectKeyword "AS"
  let attributes ← if ← symbol .lParen then typeAttributes ((← get).length + 1) else pure []
  return "CREATE TYPE " ++ pathText name ++ " AS (" ++ commas attributes ++ ")"

/-- An extension after the words that create it. -/
def createExtension : Parser String := do
  let exists_ ← ifNotExists
  let name ← ident
  let with_ ← textAfter ["WITH"] do
    let schema ← whenever (keyword "SCHEMA") ident
    let version ← whenever (keyword "VERSION") ident
    let cascade ← spaced "CASCADE"
    return clause " SCHEMA " (schema.map Ident.text) ++ clause " VERSION " (version.map Ident.text) ++
      cascade
  return "CREATE EXTENSION " ++ exists_ ++ name.text ++ (if with_ = "" then "" else " WITH" ++ with_)

/-- A table that a module keeps, after the words that create it. -/
def createVirtualTable : Parser String := do
  expectKeyword "TABLE"
  let exists_ ← ifNotExists
  let name ← path
  expectKeyword "USING"
  let keeper ← ident
  return "CREATE VIRTUAL TABLE " ++ exists_ ++ pathText name ++ " USING " ++ keeper.text ++
    namesText " " (← columnNames)

/-- Roles after the words that create them. -/
def createRole : Parser String := do
  let exists_ ← ifNotExists
  let names ← commaSeparated path
  let _ ← keyword "WITH"
  return "CREATE ROLE " ++ exists_ ++ commas (names.map pathText)

/-- A secret after the words that create it, which are given. Its name and the place where it is kept
    may be missing. -/
def createSecret (lead : String) : Parser String := do
  let exists_ ← ifNotExists
  let inside : Parser (Option Ident) := do if ← keyword "IN" then taken? else return none
  let named := !((← atSymbol .lParen) || (← atKeywords ["IN"]))
  let name ← if named then taken? else pure none
  let place ← if ← atSymbol .lParen then pure none else inside
  let place ← if place.isSome then pure place else inside
  expectSymbol .lParen
  expectKeyword "TYPE"
  let type ← ident
  let options ←
    if ← symbol .comma then
      commaSeparated do
        let k ← ident
        return k.text ++ " " ++ (← ident).text
    else pure []
  expectSymbol .rParen
  return lead ++ "SECRET " ++ exists_ ++ clause "" (name.map (·.text ++ " ")) ++
    clause "IN " (place.map (·.text ++ " ")) ++ "( TYPE " ++ type.text ++ listClause ", " options ++ " )"

/-! ## Policies -/

/-- Who owns something or is meant by a policy. -/
def owner : Parser String := do
  match ← oneOf ["CURRENT_USER", "CURRENT_ROLE", "SESSION_USER"] with
  | some k => return k
  | none => return (← ident).text

/-- Who is meant by a policy, which rows they see and which rows they may write. -/
def policyRules (f : Forms) : Parser String := do
  let who ← if ← keyword "TO" then commaSeparated owner else pure []
  let seen ← whenever (keyword "USING") (parenthesized f.expr)
  let checked ← whenever (keywords ["WITH", "CHECK"]) (parenthesized f.expr)
  return listClause " TO " who ++ clause " USING (" (seen.map (·.text ++ ")")) ++
    clause " WITH CHECK (" (checked.map (·.text ++ ")"))

/-- A policy after the words that create it. -/
def createPolicy (f : Forms) : Parser String := do
  let name ← ident
  expectKeyword "ON"
  let table ← path
  let kind ← whenever (keyword "AS") (expectOneOf ["PERMISSIVE", "RESTRICTIVE"])
  let command ←
    whenever (keyword "FOR") (expectOneOf ["ALL", "SELECT", "INSERT", "UPDATE", "DELETE"])
  return "CREATE POLICY " ++ name.text ++ " ON " ++ pathText table ++ clause " AS " kind ++
    clause " FOR " command ++ (← policyRules f)

/-! ## Creation -/

/-- A creation after its keyword. The statements of a procedure are read by the parser that is
    given. -/
def creation (f : Forms) (statements : Parser (List Sentence)) : Parser String := do
  let replace ← keywords ["OR", "REPLACE"]
  let alter ← keywords ["OR", "ALTER"]
  let local_ ← keyword "LOCAL"
  let global ← keyword "GLOBAL"
  let transient ← keyword "TRANSIENT"
  let temporary := (← oneOf ["TEMP", "TEMPORARY"]).isSome
  let lead := "CREATE " ++ wordIf replace "OR REPLACE"
  if ← keyword "TABLE" then
    createTable f
      (lead ++ (if global then "GLOBAL " else wordIf local_ "LOCAL") ++ wordIf temporary "TEMPORARY" ++
        wordIf transient "TRANSIENT")
  else if ← keyword "VIEW" then createView f (lead ++ wordIf temporary "TEMPORARY")
  else if ← keywords ["MATERIALIZED", "VIEW"] then
    createView f (lead ++ "MATERIALIZED " ++ wordIf temporary "TEMPORARY")
  else if ← keyword "POLICY" then createPolicy f
  else if ← keyword "EXTERNAL" then createExternalTable f lead
  else if ← keyword "FUNCTION" then createFunction f (lead ++ wordIf temporary "TEMPORARY")
  else if ← keyword "TRIGGER" then createTrigger f lead
  else if ← keywords ["CONSTRAINT", "TRIGGER"] then createTrigger f (lead ++ "CONSTRAINT ")
  else if ← keyword "MACRO" then createMacro f (lead ++ wordIf temporary "TEMPORARY")
  else if ← keyword "SECRET" then createSecret (lead ++ wordIf temporary "TEMPORARY")
  else if replace then unexpected
  else if ← keyword "EXTENSION" then createExtension
  else if ← keyword "INDEX" then createIndex f false
  else if ← keywords ["UNIQUE", "INDEX"] then createIndex f true
  else if ← keyword "VIRTUAL" then createVirtualTable
  else if ← keyword "SCHEMA" then createSchema
  else if ← keyword "DATABASE" then createDatabase
  else if ← keyword "ROLE" then createRole
  else if ← keyword "SEQUENCE" then createSequence temporary
  else if ← keyword "TYPE" then createType
  else if ← keyword "PROCEDURE" then createProcedure statements ("CREATE " ++ wordIf alter "OR ALTER")
  else unexpected

end StreamSql.Grammar
