/-
  Items of a select list, `SelectItem` of the `sqlparser` library: terms with their aliases, and stars
  with what is left out or renamed.
-/
import StreamSql.Grammar.Relation

namespace StreamSql.Grammar

/-- One form, or several in parentheses. -/
def oneOrMore (p : Parser Shown) : Parser Shown := do
  if ← atSymbol .lParen then
    let ss ← parenthesized (commaSeparated p)
    return ⟨"(" ++ commas (ss.map Shown.text) ++ ")", "Multiple(" ++ outlineShown ss ++ ")"⟩
  else
    let s ← p
    return { s with outline := "Single(" ++ s.outline ++ ")" }

/-- A name as it is shown. -/
def shownIdent : Parser Shown := do
  let i ← ident
  return ⟨i.text, i.outline⟩

/-- The columns that a star leaves out, after the keyword. -/
def exceptColumns : Parser Shown := do
  let is ← if ← atSymbol .lParen then parenthesized (commaSeparated ident) else (fun i => [i]) <$> ident
  return Shown.form ("EXCEPT (" ++ commas (is.map Ident.text) ++ ")") "ExceptSelectItem"
    [("first_element", ((is.take 1).map Ident.outline).headD ""),
     ("additional_elements", outlineList ((is.drop 1).map Ident.outline))]

/-- The columns that a star replaces, after the keyword. -/
def replaceColumns (f : Forms) : Parser Shown := do
  let es ← parenthesized <| commaSeparated do
    let t ← f.expr
    let as ← keyword "AS"
    let i ← ident
    return Shown.form (t.text ++ (if as then " AS " else " ") ++ i.text) "ReplaceSelectElement"
      [("expr", t.outline), ("column_name", i.outline), ("as_keyword", outlineBool as)]
  return Shown.form ("REPLACE (" ++ commas (es.map Shown.text) ++ ")") "ReplaceSelectItem"
    [("items", outlineShown es)]

/-- A column that a star gives another name. -/
def renamedColumn : Parser Shown := do
  let i ← ident
  expectKeyword "AS"
  let a ← ident
  return Shown.form (i.text ++ " AS " ++ a.text) "IdentWithAlias"
    [("ident", i.outline), ("alias", a.outline)]

/-- What may follow a star. -/
def starOptions (f : Forms) : Parser StarOptions := do
  let ilike ← whenever (keyword "ILIKE") do
    match ← next with
    | .string s =>
      return Shown.form ("ILIKE " ++ inQuotes '\x27' s) "IlikeSelectItem" [("pattern", Text.quoted s)]
    | _ => unexpected
  let exclude ←
    if ilike.isSome then pure none
    else whenever (keyword "EXCLUDE") do
      let s ← oneOrMore shownIdent
      return { s with text := "EXCLUDE " ++ s.text }
  let except ← whenever (keyword "EXCEPT") exceptColumns
  let replace ← whenever (keyword "REPLACE") (replaceColumns f)
  let rename ← whenever (keyword "RENAME") do
    let s ← oneOrMore renamedColumn
    return { s with text := "RENAME " ++ s.text }
  return { ilike, exclude, except, replace, rename }

/-- An item of a select list. The word FROM is none, unless it is quoted. -/
def item (f : Forms) : Parser Item := do
  match ← starred f with
  | .all => return .all (← starOptions f)
  | .allOf p => return .allOf p (← starOptions f)
  | .term (.name ⟨v, none⟩) =>
    if Keyword.capitals v = "FROM" then unexpected
    else return .expr (.name ⟨v, none⟩) (← aliasName? endsItem)
  | .term t => return .expr t (← aliasName? endsItem)

end StreamSql.Grammar
