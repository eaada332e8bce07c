/-
  What follows FROM, `TableWithJoins` of the `sqlparser` library: names, derived relations and the joins
  between them. A parenthesis opens
  either a query or joined relations; the query is tried first.
-/
import StreamSql.Grammar.RowPattern

namespace StreamSql.Grammar

open Term (text texts)

/-! ## Aliases -/

/-- The words that end an item of a select list, so none of them is an alias unless AS stands
    before it. -/
def endsItem : List String :=
  ["WITH", "EXPLAIN", "ANALYZE", "SELECT", "WHERE", "GROUP", "SORT", "HAVING", "ORDER", "TOP", "LATERAL",
   "VIEW", "LIMIT", "OFFSET", "FETCH", "UNION", "EXCEPT", "INTERSECT", "CLUSTER", "DISTRIBUTE",
   "RETURNING", "FROM", "INTO", "END"]

/-- The words that end a relation. -/
def endsRelation : List String :=
  ["WITH", "EXPLAIN", "ANALYZE", "SELECT", "WHERE", "GROUP", "SORT", "HAVING", "ORDER", "PIVOT",
   "UNPIVOT", "TOP", "LATERAL", "VIEW", "LIMIT", "OFFSET", "FETCH", "UNION", "EXCEPT", "INTERSECT",
   "ON", "JOIN", "INNER", "CROSS", "FULL", "LEFT", "RIGHT", "NATURAL", "USING", "CLUSTER",
   "DISTRIBUTE", "GLOBAL", "OUTER", "SET", "QUALIFY", "WINDOW", "END", "FOR", "PARTITION", "PREWHERE",
   "SETTINGS", "FORMAT", "START", "CONNECT", "MATCH_RECOGNIZE"]

/-- An alias. After AS every word is one; otherwise the given words are not. -/
def aliasName? (reserved : List String) : Parser (Option Ident) := do
  let after ← keyword "AS"
  match ← get with
  | t :: r =>
    let free := match capitalsOf? t with
      | some k => !reserved.contains k
      | none => true
    match ident? t with
    | some i => if after || free then do set r; return some i else return none
    | none => if after then unexpected else return none
  | [] => if after then unexpected else return none

/-- Names in parentheses, which may be missing. -/
def columnNames : Parser (List Ident) := do
  if ← atSymbol .lParen then parenthesized (commaSeparated ident) else return []

/-- The alias of a relation with the names of its columns. -/
def relationAlias : Parser (Option Alias) := do
  match ← aliasName? endsRelation with
  | some name => return some ⟨name, ← columnNames⟩
  | none => return none

/-! ## Relations -/

/-- Rows of values after their keyword. -/
def valueRows (f : Forms) : Parser Shown := do
  let rows ← commaSeparated do
    let explicit ← keyword "ROW"
    return (explicit, ← parenthesized f.exprs)
  let explicit := rows.any Prod.fst
  let lead := if explicit then "ROW" else ""
  return ⟨"VALUES " ++ commas (rows.map fun r => lead ++ "(" ++ commas (texts r.2) ++ ")"),
    "Values(" ++ outlineNode "Values"
      [("explicit_row", outlineBool explicit),
       ("rows", outlineList (rows.map (outlineTerms ·.2)))] ++ ")"⟩

/-- Settings with commas between them. -/
def settings : Parser (List Shown) :=
  commaSeparated do
    let k ← ident
    expectSymbol .eq
    let v ← value
    return Shown.form (k.text ++ " = " ++ v.text) "Setting" [("key", k.outline), ("value", v.outline)]

/-- A query as a relation. -/
def derivedFrom (q : Query) (lateral : Bool) : Parser Factor := do
  return Factor.ofNode ((if lateral then "LATERAL " else "") ++ "(" ++ q.text ++ ")") "Derived"
    [("lateral", outlineBool lateral), ("subquery", q.outline)] (← relationAlias)

/-- A query in parentheses, the opening one already taken. -/
def derived (f : Forms) (lateral : Bool) : Parser Factor := do
  let q ← f.query
  expectSymbol .rParen
  derivedFrom q lateral

/-- The arguments of a relation that is computed, after the opening parenthesis, at most `n` of
    them, and its settings. -/
def relationArguments (f : Forms) : Nat → Parser (List Term × List Shown)
  | 0 => unexpected
  | n + 1 => do
    if ← keyword "SETTINGS" then
      let s ← settings
      expectSymbol .rParen
      return ([], s)
    let a ← argument f
    if ← symbol .comma then
      let (as, s) ← relationArguments f n
      return (a :: as, s)
    else
      expectSymbol .rParen
      return ([a], [])

/-- The arguments of a relation, if there are any. -/
def relationArguments? (f : Forms) : Parser (Option Shown) :=
  whenever (symbol .lParen) do
    let (as, ss) ←
      if ← symbol .rParen then pure ([], []) else relationArguments f ((← get).length + 1)
    let settings := if ss.isEmpty then [] else ["SETTINGS " ++ commas (ss.map Shown.text)]
    return Shown.form ("(" ++ commas (texts as ++ settings) ++ ")") "TableFunctionArgs"
      [("args", outlineList (Term.outlineArgs as)),
       ("settings", if ss.isEmpty then "None" else "Some(" ++ outlineShown ss ++ ")")]

/-- A relation by its name, with all that may follow it. -/
def named (f : Forms) : Parser Factor := do
  let name ← path
  let partitions ← if ← keyword "PARTITION" then parenthesized (commaSeparated ident) else pure []
  let args ← relationArguments? f
  let ordinality ← keywords ["WITH", "ORDINALITY"]
  let al ← relationAlias
  let hints ← match ← get with
    | t :: .symbol .lParen :: _ =>
      if isKeyword "WITH" t then
        let _ ← next
        parenthesized f.exprs
      else pure []
    | _ => pure []
  return ⟨.table name { partitions, args, ordinality, hints := hints.map Term.shown }, al⟩

/-- Something with an alias after AS, which may be missing. -/
def aliased (t : Term) : Parser Shown := do
  let al ← whenever (keyword "AS") ident
  return Shown.form (t.text ++ clause " AS " (al.map Ident.text)) "ExprWithAlias"
    [("expr", t.outline), ("alias", outlineOption (al.map Ident.outline))]

/-- A call of a function that is named by one word, whose quotes are not kept. -/
def wordCall (f : Forms) : Parser Term := do
  match ← next with
  | .word v _ => call f [⟨v, none⟩]
  | _ => unexpected

/-- The values that become columns, in parentheses. -/
def pivotSource (f : Forms) : Parser Shown :=
  parenthesized do
    if ← keyword "ANY" then
      let ks ← if ← keywords ["ORDER", "BY"] then orderKeys f else pure []
      return ⟨"ANY" ++ listClause " ORDER BY " (ks.map Shown.text), "Any(" ++ outlineShown ks ++ ")"⟩
    else if ← atQuery then
      let q ← f.query
      return ⟨q.text, "Subquery(" ++ q.outline ++ ")"⟩
    else
      let vs ← commaSeparated do aliased (← f.expr)
      return ⟨commas (vs.map Shown.text), "List(" ++ outlineShown vs ++ ")"⟩

/-- Rows turned into columns, after the keyword. -/
def pivot (f : Forms) (inner : Factor) : Parser Factor := do
  expectSymbol .lParen
  let calls ← commaSeparated do aliased (← wordCall f)
  expectKeyword "FOR"
  let column ← path
  expectKeyword "IN"
  let source ← pivotSource f
  let default ← whenever (keywords ["DEFAULT", "ON", "NULL"]) (parenthesized f.expr)
  expectSymbol .rParen
  let tail := clause " DEFAULT ON NULL (" (default.map (·.text ++ ")"))
  let text := inner.text ++ " PIVOT(" ++ commas (calls.map Shown.text) ++ " FOR " ++ pathText column ++
    " IN (" ++ source.text ++ ")" ++ tail ++ ")"
  return Factor.ofNode text "Pivot"
    [("table", inner.outline), ("aggregate_functions", outlineShown calls),
     ("value_column", outlineList (column.map Ident.outline)), ("value_source", source.outline),
     ("default_on_null", outlineTerm? default)] (← relationAlias)

/-- Columns turned into rows, after the keyword. -/
def unpivot (inner : Factor) : Parser Factor := do
  expectSymbol .lParen
  let v ← ident
  expectKeyword "FOR"
  let n ← ident
  expectKeyword "IN"
  let cs ← parenthesized (commaSeparated ident)
  expectSymbol .rParen
  let text := inner.text ++ " UNPIVOT(" ++ v.text ++ " FOR " ++ n.text ++ " IN (" ++
    commas (cs.map Ident.text) ++ "))"
  return Factor.ofNode text "Unpivot"
    [("table", inner.outline), ("value", v.outline), ("name", n.outline),
     ("columns", outlineList (cs.map Ident.outline))] (← relationAlias)

/-- Turns a relation as often as the keywords for it follow, at most `n` times. -/
def turned (f : Forms) : Nat → Factor → Parser Factor
  | 0, _ => unexpected
  | n + 1, r => do
    match ← oneOf ["PIVOT", "UNPIVOT"] with
    | some "PIVOT" => turned f n (← pivot f r)
    | some _ => turned f n (← unpivot r)
    | none => return r

/-- The rows of a relation that match a pattern, if one follows. -/
def searched (f : Forms) (r : Factor) : Parser Factor := do
  if ← keyword "MATCH_RECOGNIZE" then
    let m ← parenthesized (rowSearch f)
    return Factor.ofNode (r.text ++ " MATCH_RECOGNIZE(" ++ m.text ++ ")") "MatchRecognize"
      (("table", r.outline) :: m.parts) (← relationAlias)
  else return r

/-- Elements of arrays as rows, after the keyword. The word WITH at the end counts for nothing if
    OFFSET does not follow it. -/
def unnested (f : Forms) : Parser Factor := do
  let ts ← parenthesized f.exprs
  let ordinality ← keywords ["WITH", "ORDINALITY"]
  let al ← relationAlias
  let with_ ← keyword "WITH"
  let offset ← if with_ then whenever (keyword "OFFSET") (aliasName? endsItem) else pure none
  let offsetName := offset.bind id
  let tail :=
    if offset.isSome then " WITH OFFSET" ++ clause " AS " (offsetName.map Ident.text) else ""
  return Factor.ofNode
    ("UNNEST(" ++ commas (texts ts) ++ ")" ++ (if ordinality then " WITH ORDINALITY" else "")) "UNNEST" []
    al <| tailOf tail
      [("array_exprs", outlineTerms ts), ("with_offset", outlineBool offset.isSome),
       ("with_offset_alias", outlineOption (offsetName.map Ident.outline)),
       ("with_ordinality", outlineBool ordinality)]

/-- What a column of a document has instead of a value, after the word that begins it. -/
def documentFallback? : Parser (Option Shown) := do
  let handling : Option Shown ←
    if ← keyword "NULL" then pure (some ⟨"NULL", "Null"⟩)
    else if ← keyword "ERROR" then pure (some ⟨"ERROR", "Error"⟩)
    else if ← keyword "DEFAULT" then
      let v ← value
      pure (some ⟨"DEFAULT " ++ v.text, "Default(" ++ v.outline ++ ")"⟩)
    else pure none
  if handling.isSome then expectKeyword "ON"
  return handling

/-- What a column of a document has if nothing is found and if something is wrong, at most `n`
    clauses of it. The last of each kind counts. -/
def documentFallbacks : Nat → Option Shown × Option Shown → Parser (Option Shown × Option Shown)
  | 0, _ => unexpected
  | n + 1, (empty, error) => do
    match ← documentFallback? with
    | none => return (empty, error)
    | some h =>
      if (← expectOneOf ["EMPTY", "ERROR"]) = "EMPTY" then documentFallbacks n (some h, error)
      else documentFallbacks n (empty, some h)

/-- A column of a document that has a place of its own, after its name. -/
def placedColumn (name : Ident) : Parser Shown := do
  let type ← typeName
  let exists_ ← keyword "EXISTS"
  expectKeyword "PATH"
  let place ← value
  let (empty, error) ← documentFallbacks ((← get).length + 1) (none, none)
  let text := name.text ++ " " ++ type.text ++ (if exists_ then " EXISTS" else "") ++ " PATH " ++
    place.text ++ clause " " (empty.map (·.text ++ " ON EMPTY")) ++
    clause " " (error.map (·.text ++ " ON ERROR"))
  return ⟨text, "Named(" ++ outlineNode "JsonTableNamedColumn"
    [("name", name.outline), ("type", type.outline), ("path", place.outline),
     ("exists", outlineBool exists_), ("on_empty", outlineShown? empty),
     ("on_error", outlineShown? error)] ++ ")"⟩

/-- Columns of a document in parentheses, nested at most `n` deep. A column has a place, counts the
    rows, or stands for columns of its own. -/
def documentColumns : Nat → Parser (List Shown)
  | 0 => unexpected
  | n + 1 =>
    parenthesized <| commaSeparated do
      if ← keyword "NESTED" then
        let _ ← keyword "PATH"
        let place ← value
        expectKeyword "COLUMNS"
        let cs ← documentColumns n
        return ⟨"NESTED PATH " ++ place.text ++ " COLUMNS (" ++ commas (cs.map Shown.text) ++ ")",
          "Nested(" ++ outlineNode "JsonTableNestedColumn"
            [("path", place.outline), ("columns", outlineShown cs)] ++ ")"⟩
      let name ← ident
      if ← keyword "FOR" then
        expectKeyword "ORDINALITY"
        return ⟨name.text ++ " FOR ORDINALITY", "ForOrdinality(" ++ name.outline ++ ")"⟩
      else placedColumn name

/-- Parts of a document as rows, after the keyword. -/
def documentTable (f : Forms) : Parser Factor := do
  expectSymbol .lParen
  let t ← f.expr
  expectSymbol .comma
  let place ← value
  expectKeyword "COLUMNS"
  let cs ← documentColumns ((← get).length + 1)
  expectSymbol .rParen
  let text := "JSON_TABLE(" ++ t.text ++ ", " ++ place.text ++ " COLUMNS(" ++
    commas (cs.map Shown.text) ++ "))"
  return Factor.ofNode text "JsonTable"
    [("json_expr", t.outline), ("json_path", place.outline), ("columns", outlineShown cs)]
    (← relationAlias)

/-- Relations in parentheses, the opening one already taken. One relation alone is as good as
    without the parentheses, but it takes only one alias. -/
def grouped (f : Forms) : Parser Factor := do
  let j ← f.joined
  expectSymbol .rParen
  let al ← relationAlias
  if !j.joins.isEmpty || j.factor.nested then
    let head := headOf ("(" ++ j.text ++ ")") "NestedJoin" [("table_with_joins", j.outline)]
    return ⟨.other head (tailOf "" []) true, al⟩
  else match al with
    | none => return j.factor
    | some a =>
        if j.factor.aliasName.isSome then unexpected
        else return { j.factor with aliasName := some a }

/-- A relation beside those before it, after the keyword. -/
def lateral (f : Forms) : Parser Factor := do
  if ← symbol .lParen then derived f true
  else
    let name ← path
    expectSymbol .lParen
    let args ← listUntil .rParen (argument f)
    expectSymbol .rParen
    return Factor.ofNode ("LATERAL " ++ pathText name ++ "(" ++ commas (texts args) ++ ")") "Function"
      [("lateral", "true"), ("name", outlinePath name), ("args", outlineList (Term.outlineArgs args))]
      (← relationAlias)

/-- Takes the keyword if it comes next and a parenthesis opens after it. -/
def keywordOpening (k : String) : Parser Bool := do
  match ← get with
  | _ :: .symbol .lParen :: _ => keyword k
  | _ => return false

/-- A relation without joins. -/
def factor (f : Forms) : Parser Factor := do
  if ← keyword "LATERAL" then lateral f
  else if ← keyword "TABLE" then
    let t ← parenthesized f.expr
    return Factor.ofNode ("TABLE(" ++ t.text ++ ")") "TableFunction" [("expr", t.outline)]
      (← relationAlias)
  else if ← symbol .lParen then
    match ← attempt (derived f false) with
    | some r => turned f ((← get).length + 1) r
    | none => grouped f
  else if ← keywordOpening "VALUES" then derivedFrom { body := .other (← valueRows f) } false
  else if ← keyword "UNNEST" then unnested f
  else if ← keywordOpening "JSON_TABLE" then documentTable f
  else
    let r ← named f
    searched f (← turned f ((← get).length + 1) r)

/-! ## Joins -/

/-- What a join demands. -/
def constraint (f : Forms) (natural : Bool) : Parser Constraint := do
  if natural then return .natural
  else if ← keyword "ON" then return .on (← f.expr)
  else if ← keyword "USING" then return .using (← parenthesized (commaSeparated ident))
  else return .none

/-- The words of a join that may have a constraint. Nothing is taken if none come next. -/
def joinKind : Parser (Option JoinKind) := do
  if ← keyword "INNER" then
    expectKeyword "JOIN"
    return some .inner
  else if ← keyword "JOIN" then return some .inner
  else match ← oneOf ["LEFT", "RIGHT", "FULL"] with
    | some "FULL" =>
      let _ ← keyword "OUTER"
      expectKeyword "JOIN"
      return some .full
    | some side =>
      let left := side = "LEFT"
      match ← expectOneOf ["OUTER", "SEMI", "ANTI", "JOIN"] with
      | "JOIN" => return some (if left then .left else .right)
      | "OUTER" =>
        expectKeyword "JOIN"
        return some (if left then .left else .right)
      | "SEMI" =>
        expectKeyword "JOIN"
        return some (if left then .leftSemi else .rightSemi)
      | _ =>
        expectKeyword "JOIN"
        return some (if left then .leftAnti else .rightAnti)
    | none => return none

/-- A join, if one follows. -/
def join? (f : Forms) : Parser (Option Join) := do
  let global ← keyword "GLOBAL"
  if ← keyword "CROSS" then
    let kind : JoinKind := if (← expectOneOf ["JOIN", "APPLY"]) = "JOIN" then .cross else .crossApply
    return some ⟨kind, .none, ← factor f, global⟩
  else if ← keyword "OUTER" then
    expectKeyword "APPLY"
    return some ⟨.outerApply, .none, ← factor f, global⟩
  else if ← keyword "ASOF" then
    expectKeyword "JOIN"
    let r ← factor f
    expectKeyword "MATCH_CONDITION"
    let condition ← parenthesized f.expr
    return some ⟨.asOf condition, ← constraint f false, r, global⟩
  else
    let natural ← keyword "NATURAL"
    match ← joinKind with
    | some kind =>
      let r ← factor f
      return some ⟨kind, ← constraint f natural, r, global⟩
    | none => if natural then unexpected else return none

/-- The joins that follow, at most `n`. -/
def joins (f : Forms) : Nat → Parser (List Join)
  | 0 => unexpected
  | n + 1 => do
    match ← join? f with
    | some j => return j :: (← joins f n)
    | none => return []

/-- A relation and its joins. -/
def joined (f : Forms) : Parser Joined := do
  let r ← factor f
  return ⟨r, ← joins f ((← get).length + 1)⟩

end StreamSql.Grammar
