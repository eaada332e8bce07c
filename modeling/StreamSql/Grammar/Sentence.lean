/-
  Statements (`parse_statement` of the `sqlparser` library). Only queries are planned; of the others
  it is enough to know that they are statements, and to have their text.
-/
import StreamSql.Grammar.Command
import StreamSql.Token.Scan

namespace StreamSql.Grammar

/-- Options of an explanation in parentheses. -/
def explainOptions (f : Forms) : Parser String := do
  let os ← parenthesized <| commaSeparated do
    let i ← ident
    if (← atSymbol .comma) || (← atSymbol .rParen) then return i.text
    else return i.text ++ " " ++ (← f.expr).text
  return "(" ++ commas os ++ ") "

/-- What an explanation is to show, before what it explains. -/
def explainLead (f : Forms) (k : String) : Parser String := do
  if k = "EXPLAIN" && (← atSymbol .lParen) then explainOptions f
  else if ← keywords ["QUERY", "PLAN"] then return "QUERY PLAN "
  else
    let analyze ← keyword "ANALYZE"
    let verbose ← keyword "VERBOSE"
    let format ← whenever (keyword "FORMAT") (expectOneOf ["TEXT", "GRAPHVIZ", "JSON"])
    return wordIf analyze "ANALYZE" ++ wordIf verbose "VERBOSE" ++
      clause "FORMAT " (format.map (· ++ " "))

/-- The table that is described, after the keyword. What may stand before a statement is not shown
    here. -/
def describedTable : Parser String := do
  let detail ← oneOf ["EXTENDED", "FORMATTED"]
  return clause "" (detail.map (· ++ " ")) ++ pathText (← path)

/-- The words that begin an explanation. -/
def explainWords : List String :=
  ["EXPLAIN", "DESCRIBE", "DESC"]

/-- Takes semicolons. -/
def semicolons : Parser Bool := do
  return !(← whileSome (symbol .semicolon) (pure ())).isEmpty

/-- At most `n` statements with semicolons between them, each read by the parser that is given. The
    word END after a statement ends them all. -/
def sentencesUpTo (p : Parser Sentence) : Nat → Parser (List Sentence)
  | 0 => unexpected
  | n + 1 => do
    let _ ← semicolons
    if (← get).isEmpty then return []
    let s ← p
    let separated ← semicolons
    if (← get).isEmpty then return [s]
    else if separated then return s :: (← sentencesUpTo p n)
    else if ← atKeywords ["END"] then return [s]
    else unexpected

/-- Statements with semicolons between them, each read by the parser that is given. -/
def sentences (p : Parser Sentence) : Parser (List Sentence) := do
  sentencesUpTo p ((← get).length + 1)

/-- A statement, at most `n` inside each other, with so many levels left for it. An explanation does
    not explain another one. -/
def sentence (calls : Nat) : Nat → Nat → Parser Sentence
  | 0, _ => unexpected
  | _ + 1, 0 => tooDeep
  | n + 1, levels + 1 => do
    let f := forms calls levels false
    let ts ← get
    let t ← next
    if t = .symbol .lParen then
      set ts
      return .query (← f.query)
    let k := (capitalsOf? t).getD ""
    if ["SELECT", "WITH", "VALUES"].contains k then
      set ts
      return .query (← f.query)
    else if explainWords.contains k then
      let lead ← explainLead f k
      let nested := (((← get).head?.bind capitalsOf?).map explainWords.contains).getD false
      match ← attempt (sentence calls n levels) with
      | some s => if nested then unexpected else return .other (k ++ " " ++ lead ++ s.text)
      | none => return .other (k ++ " " ++ (← describedTable))
    else if k = "PREPARE" then
      let name ← ident
      let types ← if ← atSymbol .lParen then parenthesized (commaSeparated typeName) else pure []
      expectKeyword "AS"
      let s ← sentence calls n levels
      let list := if types.isEmpty then "" else "(" ++ commas (types.map TypeName.text) ++ ") "
      return .other ("PREPARE " ++ name.text ++ " " ++ list ++ "AS " ++ s.text)
    else match command? f (sentences (sentence calls n levels)) k with
      | some p => return .other (← p)
      | none => unexpected

/-- The statements that a list of tokens without gaps holds, with so many levels for nesting. -/
def Sentence.parseAll (levels : Nat) (ts : List Token) : Except Fault (List Sentence) := do
  let calls := callsFor ts
  let (ss, _) ← sentences (sentence calls calls levels) ts
  return ss

end StreamSql.Grammar
