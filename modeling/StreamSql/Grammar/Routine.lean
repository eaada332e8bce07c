/-
  Routines of the `sqlparser` library: functions, macros, triggers and procedures. None of the
  statements that create them is planned, so each is kept by its canonical text.
-/
import StreamSql.Grammar.Table

namespace StreamSql.Grammar

open Term (text texts)

/-! ## Functions and macros -/

/-- An argument of a function: its way, its name, its type and its value if none is given. A name that
    is no type of the language is the name of the argument. -/
def routineArgument (f : Forms) : Parser String := do
  let mode ← oneOf ["IN", "OUT", "INOUT"]
  let first := (← peek?).bind ident?
  let type ← typeName
  let (name, type) ← if type.custom then (fun t => (first, t)) <$> typeName else pure (none, type)
  let default_ ←
    if ← keyword "DEFAULT" then some <$> f.expr
    else whenever (symbol .eq) f.expr
  return clause "" (mode.map (· ++ " ")) ++ clause "" (name.map (·.text ++ " ")) ++ type.text ++
    clause " = " (default_.map text)

/-- A function by its name and, if there are any, the types of its arguments. Empty parentheses are
    left out. -/
def routineName (f : Forms) : Parser String := do
  let name ← path
  if ← symbol .lParen then
    if ← symbol .rParen then return pathText name
    let arguments ← commaSeparated (routineArgument f)
    expectSymbol .rParen
    return pathText name ++ "(" ++ commas arguments ++ ")"
  else return pathText name

/-- What is said about a function besides its arguments and its type. -/
structure Conduct where
  language : Option String := none
  behavior : Option String := none
  onNull : Option String := none
  parallel : Option String := none
  body : Option String := none

/-- The value of a clause that may be given only once. -/
def once (given : Option String) (p : Parser String) : Parser (Option String) := do
  if given.isSome then unexpected else return some (← p)

/-- The text of a function. -/
def routineBody : Parser String := do
  match ← peek? with
  | some t@(.dollar _ _) =>
    let _ ← next
    return t.text
  | _ => return inQuotes '\x27' (← textConstant)

/-- What is said about a function, in at most `n` clauses. -/
def conduct (f : Forms) : Nat → Conduct → Parser Conduct
  | 0, c => return c
  | n + 1, c => do
    if ← keyword "AS" then
      conduct f n { c with body := ← once c.body ((" AS " ++ ·) <$> routineBody) }
    else if ← keyword "LANGUAGE" then
      conduct f n { c with language := ← once c.language (Ident.text <$> ident) }
    else if let some k ← oneOf ["IMMUTABLE", "STABLE", "VOLATILE"] then
      conduct f n { c with behavior := ← once c.behavior (pure k) }
    else if ← keywords ["CALLED", "ON", "NULL", "INPUT"] then
      conduct f n { c with onNull := ← once c.onNull (pure "CALLED ON NULL INPUT") }
    else if ← keywords ["RETURNS", "NULL", "ON", "NULL", "INPUT"] then
      conduct f n { c with onNull := ← once c.onNull (pure "RETURNS NULL ON NULL INPUT") }
    else if ← keyword "STRICT" then
      conduct f n { c with onNull := ← once c.onNull (pure "STRICT") }
    else if ← keyword "PARALLEL" then
      let parallel ← once c.parallel (expectOneOf ["UNSAFE", "RESTRICTED", "SAFE"])
      conduct f n { c with parallel }
    else if ← keyword "RETURN" then
      conduct f n { c with body := ← once c.body do return " RETURN " ++ (← f.expr).text }
    else return c

/-- A function after the words that create it, which are given. Empty parentheses are left out. -/
def createFunction (f : Forms) (lead : String) : Parser String := do
  let name ← path
  let arguments ← parenthesized (listUntil .rParen (routineArgument f))
  let result ← whenever (keyword "RETURNS") typeName
  let c ← conduct f ((← get).length + 1) {}
  return lead ++ "FUNCTION " ++ pathText name ++
    (if arguments.isEmpty then "" else "(" ++ commas arguments ++ ")") ++
    clause " RETURNS " (result.map TypeName.text) ++ clause " LANGUAGE " c.language ++
    clause " " c.behavior ++ clause " " c.onNull ++ clause " PARALLEL " c.parallel ++ clause "" c.body

/-- A macro after the words that create it, which are given. It stands for a term or a query. -/
def createMacro (f : Forms) (lead : String) : Parser String := do
  let name ← path
  let arguments ← parenthesized <| listUntil .rParen do
    let i ← ident
    let assigned ← symbol .assign
    let assigned ← if assigned then pure true else symbol .rArrow
    if assigned then return i.text ++ " := " ++ (← f.expr).text else return i.text
  expectKeyword "AS"
  let meaning ←
    if ← keyword "TABLE" then (fun q => "TABLE " ++ q.text) <$> f.query else text <$> f.expr
  return lead ++ "MACRO " ++ pathText name ++
    (if arguments.isEmpty then "" else "(" ++ commas arguments ++ ")") ++ " AS " ++ meaning

/-! ## Triggers -/

/-- A change that a trigger waits for. -/
def triggerEvent : Parser String := do
  match ← expectOneOf ["INSERT", "UPDATE", "DELETE", "TRUNCATE"] with
  | "UPDATE" =>
    let columns ← if ← keyword "OF" then commaSeparated ident else pure []
    return "UPDATE" ++ listClause " OF " (columns.map Ident.text)
  | k => return k

/-- The name that a trigger has for the rows before or after a change, if one is given next. The word
    that tells which rows is taken in any case. -/
def transitionName? : Parser (Option String) := do
  match ← oneOf ["OLD", "NEW"] with
  | some k =>
    if ← keyword "TABLE" then
      let as ← spaced "AS"
      return some (k ++ " TABLE" ++ as ++ " " ++ pathText (← path))
    else return none
  | none => return none

/-- A trigger after the words that create it, which are given. -/
def createTrigger (f : Forms) (lead : String) : Parser String := do
  let name ← path
  let period ← match ← expectOneOf ["BEFORE", "AFTER", "INSTEAD"] with
    | "INSTEAD" =>
      expectKeyword "OF"
      pure "INSTEAD OF"
    | k => pure k
  let event ← triggerEvent
  let events ← whileSome (keyword "OR") triggerEvent
  expectKeyword "ON"
  let table ← path
  let referred ← if ← keyword "FROM" then takenPath? else pure none
  let timing ← timingText
  let names ← if ← keyword "REFERENCING" then many transitionName? else pure []
  expectKeyword "FOR"
  let each ← spaced "EACH"
  let object ← expectOneOf ["ROW", "STATEMENT"]
  let condition ← termAfter f "WHEN"
  expectKeyword "EXECUTE"
  let kind ← expectOneOf ["FUNCTION", "PROCEDURE"]
  let routine ← routineName f
  return lead ++ "TRIGGER " ++ pathText name ++ " " ++ period ++ " " ++
    " OR ".intercalate (event :: events) ++ " ON " ++ pathText table ++
    clause " FROM " (referred.map pathText) ++ timing ++
    (if names.isEmpty then "" else " REFERENCING " ++ " ".intercalate names) ++ " FOR" ++ each ++ " " ++
    object ++ clause " WHEN " (condition.map text) ++ " EXECUTE " ++ kind ++ " " ++ routine

/-! ## Procedures -/

/-- The parameters of a procedure up to the closing parenthesis, at most `n`. Between commas there may
    be none. -/
def procedureParameters : Nat → Parser (List String)
  | 0 => unexpected
  | n + 1 => do
    let parameter ← match ← peek? with
      | some (.word _ _) =>
        let i ← ident
        pure [i.text ++ " " ++ (← typeName).text]
      | _ => pure []
    let comma ← symbol .comma
    if ← symbol .rParen then return parameter
    else if comma then return parameter ++ (← procedureParameters n)
    else unexpected

/-- A procedure after the words that create it, which are given. Its statements are read by the parser
    that is given. -/
def createProcedure (statements : Parser (List Sentence)) (lead : String) : Parser String := do
  let name ← path
  let parameters ← if ← symbol .lParen then procedureParameters ((← get).length + 1) else pure []
  expectKeywords ["AS", "BEGIN"]
  let body ← statements
  expectKeyword "END"
  return lead ++ "PROCEDURE " ++ pathText name ++
    (if parameters.isEmpty then "" else " (" ++ commas parameters ++ ")") ++ " AS BEGIN " ++
    "; ".intercalate (body.map Sentence.text) ++ " END"

end StreamSql.Grammar
