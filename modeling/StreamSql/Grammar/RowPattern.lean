/-
  Patterns of rows (MATCH_RECOGNIZE of the `sqlparser` library). A pattern is a regular expression
  over names of rows; what the names mean is defined after it. Nothing here is planned, so all of it
  is kept as it is shown.
-/
import StreamSql.Grammar.Term

namespace StreamSql.Grammar

namespace RowPattern

/-- A name of rows in a pattern. -/
def symbolName : Parser Shown := do
  let i ← ident
  return ⟨i.text, "Named(" ++ i.outline ++ ")"⟩

/-- A number of repetitions, at most 32 bits long. -/
def count : Parser String := do
  let n ← natural
  if n < UInt32.size then return toString n else unexpected

/-- Bounds of a repetition after the opening brace. -/
def bounds : Parser Shown := do
  if ← symbol .comma then
    let m ← count
    expectSymbol .rBrace
    return ⟨"\x7b," ++ m ++ "\x7d", "AtMost(" ++ m ++ ")"⟩
  let n ← count
  if ← symbol .comma then
    if ← symbol .rBrace then return ⟨"\x7b" ++ n ++ ",\x7d", "AtLeast(" ++ n ++ ")"⟩
    let m ← count
    expectSymbol .rBrace
    return ⟨"\x7b" ++ n ++ "," ++ m ++ "\x7d", "Range(" ++ n ++ ", " ++ m ++ ")"⟩
  else
    expectSymbol .rBrace
    return ⟨"\x7b" ++ n ++ "\x7d", "Exactly(" ++ n ++ ")"⟩

/-- How often a pattern may repeat, if that is said next. -/
def quantifier? : Parser (Option Shown) := do
  match ← get with
  | .symbol .mul :: r => set r; return some ⟨"*", "ZeroOrMore"⟩
  | .symbol .plus :: r => set r; return some ⟨"+", "OneOrMore"⟩
  | .placeholder "?" :: r => set r; return some ⟨"?", "AtMostOne"⟩
  | .symbol .lBrace :: r => set r; some <$> bounds
  | _ => return none

/-- A pattern with its repetitions, at most `n` of them. -/
def repeated : Nat → Shown → Parser Shown
  | 0, _ => unexpected
  | n + 1, p => do
    match ← quantifier? with
    | some q => repeated n ⟨p.text ++ q.text, "Repetition(" ++ p.outline ++ ", " ++ q.outline ++ ")"⟩
    | none => return p

/-- Patterns as one, with a mark between their texts. One alone is itself. -/
def together (node mark : String) : List Shown → Shown
  | [p] => p
  | ps => ⟨mark.intercalate (ps.map Shown.text), node ++ "(" ++ outlineShown ps ++ ")"⟩

mutual

/-- A pattern without repetitions. -/
def base : Nat → Parser Shown
  | 0 => unexpected
  | n + 1 => do
    match ← get with
    | .symbol .caret :: r => set r; return ⟨"^", "Symbol(Start)"⟩
    | .placeholder "$" :: r => set r; return ⟨"$", "Symbol(End)"⟩
    | .symbol .lBrace :: .symbol .minus :: r =>
      set r
      let s ← symbolName
      expectSymbol .minus
      expectSymbol .rBrace
      return ⟨"\x7b- " ++ s.text ++ " -\x7d", "Exclude(" ++ s.outline ++ ")"⟩
    | .word "PERMUTE" none :: r =>
      set r
      let ss ← parenthesized (commaSeparated symbolName)
      return ⟨"PERMUTE(" ++ commas (ss.map Shown.text) ++ ")", "Permute(" ++ outlineShown ss ++ ")"⟩
    | .symbol .lParen :: r =>
      set r
      let p ← pattern n
      expectSymbol .rParen
      return ⟨"( " ++ p.text ++ " )", "Group(" ++ p.outline ++ ")"⟩
    | _ =>
      let s ← symbolName
      return ⟨s.text, "Symbol(" ++ s.outline ++ ")"⟩

/-- Patterns that follow each other, up to a bar or a closing parenthesis. -/
def sequence : Nat → Parser (List Shown)
  | 0 => unexpected
  | n + 1 => do
    let p ← base n
    let p ← repeated ((← get).length + 1) p
    if (← atSymbol .rParen) || (← atSymbol .pipe) then return [p] else return p :: (← sequence n)

/-- Patterns with bars between them. -/
def alternatives : Nat → Parser (List Shown)
  | 0 => unexpected
  | n + 1 => do
    let p := together "Concat" " " (← sequence n)
    if ← symbol .pipe then return p :: (← alternatives n) else return [p]

/-- A whole pattern. -/
def pattern : Nat → Parser Shown
  | 0 => unexpected
  | n + 1 => together "Alternation" " | " <$> alternatives n

end

/-- Which rows a match gives. -/
def rowsPerMatch? : Parser (Option Shown) := do
  if ← keywords ["ONE", "ROW", "PER", "MATCH"] then return some ⟨"ONE ROW PER MATCH", "OneRow"⟩
  else if ← keywords ["ALL", "ROWS", "PER", "MATCH"] then
    let lead := "ALL ROWS PER MATCH"
    if ← keywords ["SHOW", "EMPTY", "MATCHES"] then
      return some ⟨lead ++ " SHOW EMPTY MATCHES", "AllRows(Some(Show))"⟩
    else if ← keywords ["OMIT", "EMPTY", "MATCHES"] then
      return some ⟨lead ++ " OMIT EMPTY MATCHES", "AllRows(Some(Omit))"⟩
    else if ← keywords ["WITH", "UNMATCHED", "ROWS"] then
      return some ⟨lead ++ " WITH UNMATCHED ROWS", "AllRows(Some(WithUnmatched))"⟩
    else return some ⟨lead, "AllRows(None)"⟩
  else return none

/-- Where the search goes on after a match, after the keywords. -/
def skipTo : Parser Shown := do
  let lead := "AFTER MATCH SKIP "
  if ← keywords ["PAST", "LAST", "ROW"] then return ⟨lead ++ "PAST LAST ROW", "PastLastRow"⟩
  else if ← keywords ["TO", "NEXT", "ROW"] then return ⟨lead ++ "TO NEXT ROW", "ToNextRow"⟩
  else if ← keywords ["TO", "FIRST"] then
    let i ← ident
    return ⟨lead ++ "TO FIRST " ++ i.text, "ToFirst(" ++ i.outline ++ ")"⟩
  else
    expectKeywords ["TO", "LAST"]
    let i ← ident
    return ⟨lead ++ "TO LAST " ++ i.text, "ToLast(" ++ i.outline ++ ")"⟩

/-- What a match measures. -/
def measure (f : Forms) : Parser Shown := do
  let t ← f.expr
  let _ ← keyword "AS"
  let i ← ident
  return Shown.form (t.text ++ " AS " ++ i.text) "Measure" [("expr", t.outline), ("alias", i.outline)]

/-- What a name of rows means. -/
def definition (f : Forms) : Parser Shown := do
  let i ← ident
  expectKeyword "AS"
  let t ← f.expr
  return Shown.form (i.text ++ " AS " ++ t.text) "SymbolDefinition"
    [("symbol", i.outline), ("definition", t.outline)]

end RowPattern

/-- A search for rows by their text and the parts of their node. -/
structure RowSearch where
  text : String
  parts : List (String × String)

open RowPattern in
/-- What stands in the parentheses of a search for rows. -/
def rowSearch (f : Forms) : Parser RowSearch := do
  let partition ← if ← keywords ["PARTITION", "BY"] then f.exprs else pure []
  let order ← if ← keywords ["ORDER", "BY"] then orderKeys f else pure []
  let measures ← if ← keyword "MEASURES" then commaSeparated (measure f) else pure []
  let rows ← rowsPerMatch?
  let skip ← whenever (keywords ["AFTER", "MATCH", "SKIP"]) skipTo
  expectKeyword "PATTERN"
  let fuel := 4 * (← get).length + 4
  let p ← parenthesized (pattern fuel)
  expectKeyword "DEFINE"
  let symbols ← commaSeparated (definition f)
  let leads := [listClause "PARTITION BY " (Term.texts partition),
    listClause "ORDER BY " (order.map Shown.text), listClause "MEASURES " (measures.map Shown.text),
    clause "" (rows.map Shown.text), clause "" (skip.map Shown.text)]
  return {
    text := String.join ((leads.filter (· ≠ "")).map (· ++ " ")) ++ "PATTERN (" ++ p.text ++
      ") DEFINE " ++ commas (symbols.map Shown.text)
    parts :=
      [("partition_by", outlineTerms partition), ("order_by", outlineShown order),
       ("measures", outlineShown measures), ("rows_per_match", outlineShown? rows),
       ("after_match_skip", outlineShown? skip), ("pattern", p.outline),
       ("symbols", outlineShown symbols)] }

end StreamSql.Grammar
