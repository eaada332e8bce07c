/-
  Queries (`parse_query` and `parse_select` of the `sqlparser` library). `forms` ties the forms that
  contain each other together: each call goes one level further in, and a term or a query takes one
  of the levels that are left.
-/
import StreamSql.Grammar.Change

namespace StreamSql.Grammar

open Term (text texts)

/-! ## Clauses of a select -/

/-- How a select treats rows that are equal. -/
def distinct (f : Forms) : Parser (Option Shown) := do
  let all ← keyword "ALL"
  if ← keyword "DISTINCT" then
    if all then unexpected
    else if ← keyword "ON" then
      let ts ← parenthesized (listUntil .rParen f.expr)
      return some ⟨"DISTINCT ON (" ++ commas (texts ts) ++ ")", "On(" ++ outlineTerms ts ++ ")"⟩
    else return some ⟨"DISTINCT", "Distinct"⟩
  else return none

/-- How many rows a select gives, after the keyword. -/
def top (f : Forms) : Parser Shown := do
  let amount : Shown ←
    if ← atSymbol .lParen then
      let t ← parenthesized f.expr
      pure ⟨"(" ++ t.text ++ ")", "Expr(" ++ t.outline ++ ")"⟩
    else
      let n ← natural
      pure ⟨toString n, "Constant(" ++ toString n ++ ")"⟩
  let percent ← keyword "PERCENT"
  let ties ← keywords ["WITH", "TIES"]
  return Shown.form
    ("TOP " ++ amount.text ++ (if percent then " PERCENT" else "") ++ (if ties then " WITH TIES" else ""))
    "Top"
    [("with_ties", outlineBool ties), ("percent", outlineBool percent),
     ("quantity", "Some(" ++ amount.outline ++ ")")]

/-- Where a select puts its rows, after the keyword. -/
def into : Parser Shown := do
  let temporary := (← oneOf ["TEMP", "TEMPORARY"]).isSome
  let unlogged ← keyword "UNLOGGED"
  let table ← keyword "TABLE"
  let name ← path
  return Shown.form
    ("INTO" ++ (if temporary then " TEMPORARY" else "") ++ (if unlogged then " UNLOGGED" else "") ++
      (if table then " TABLE" else "") ++ " " ++ pathText name)
    "SelectInto"
    [("temporary", outlineBool temporary), ("unlogged", outlineBool unlogged),
     ("table", outlineBool table), ("name", outlinePath name)]

/-- A view beside the relations, after the keywords. -/
def lateralView (f : Forms) : Parser Shown := do
  let outer ← keyword "OUTER"
  let t ← f.expr
  let name ← path
  let columns ← commaSeparated (aliasName? ["WHERE", "GROUP", "CLUSTER", "HAVING", "LATERAL"])
  let columns := columns.filterMap id
  return Shown.form
    (" LATERAL VIEW" ++ (if outer then " OUTER" else "") ++ " " ++ t.text ++ " " ++ pathText name ++
      listClause " AS " (columns.map Ident.text))
    "LateralView"
    [("lateral_view", t.outline), ("lateral_view_name", outlinePath name),
     ("lateral_col_alias", outlineList (columns.map Ident.outline)), ("outer", outlineBool outer)]

/-- Terms in parentheses, or one term if that is allowed. -/
def tuple (f : Forms) (lift : Bool) : Parser (List Term) := do
  if lift && !(← atSymbol .lParen) then return [← f.expr]
  else parenthesized (listUntil .rParen f.expr)

/-- Several groupings at once. -/
def groupings (f : Forms) (lead node : String) (lift : Bool) : Parser Term := do
  let sets ← parenthesized (commaSeparated (tuple f lift))
  let shown := sets.map fun
    | [t] => if lift then t.text else "(" ++ t.text ++ ")"
    | ts => "(" ++ commas (texts ts) ++ ")"
  return .other (lead ++ " (" ++ commas shown ++ ")")
    (node ++ "(" ++ outlineList (sets.map outlineTerms) ++ ")")

/-- What rows are grouped by. -/
def groupKey (f : Forms) : Parser Term := do
  if ← keywords ["GROUPING", "SETS"] then groupings f "GROUPING SETS" "GroupingSets" false
  else if ← keyword "CUBE" then groupings f "CUBE" "Cube" true
  else if ← keyword "ROLLUP" then groupings f "ROLLUP" "Rollup" true
  else match ← get with
    | .symbol .lParen :: .symbol .rParen :: r =>
      set r
      return .other "()" "Tuple([])"
    | _ => f.expr

/-- The grouping of a select. -/
def grouping (f : Forms) : Parser Grouping := do
  if ← keywords ["GROUP", "BY"] then
    let keys ← if ← keyword "ALL" then pure none else some <$> commaSeparated (groupKey f)
    let modifiers ← whileSome (keyword "WITH") do
      let k ← expectOneOf ["ROLLUP", "CUBE", "TOTALS"]
      let node := if k = "ROLLUP" then "Rollup" else if k = "CUBE" then "Cube" else "Totals"
      return ⟨"WITH " ++ k, node⟩
    match keys with
    | none => return .all modifiers
    | some ts => return .keys ts modifiers
  else return .keys [] []

/-- Terms after two keywords. -/
def termsAfter (f : Forms) (ks : List String) : Parser (List Term) := do
  if ← keywords ks then f.exprs else return []

/-- A window with its name. -/
def namedWindow (f : Forms) : Parser Shown := do
  let i ← ident
  expectKeyword "AS"
  let w ← overWindow f
  return ⟨i.text ++ " AS " ++ w.text,
    "NamedWindowDefinition(" ++ i.outline ++ ", " ++ w.outline ++ ")"⟩

/-- The order of a hierarchy. -/
def connectBy (f : Forms) : Parser (Option Shown) := do
  let shown := fun (t : Term) (ts : List Term) =>
    some (Shown.form ("START WITH " ++ t.text ++ " CONNECT BY " ++ commas (texts ts)) "ConnectBy"
      [("condition", t.outline), ("relationships", outlineTerms ts)])
  if ← keywords ["CONNECT", "BY"] then
    let ts ← f.hierarchy
    expectKeywords ["START", "WITH"]
    return shown (← f.expr) ts
  else if ← keywords ["START", "WITH"] then
    let t ← f.expr
    expectKeywords ["CONNECT", "BY"]
    return shown t (← f.hierarchy)
  else if (← atKeywords ["START"]) || (← atKeywords ["CONNECT"]) then unexpected
  else return none

/-- A select after its keyword. -/
def select (f : Forms) : Parser Select := do
  let distinct ← distinct f
  let top ← whenever (keyword "TOP") (top f)
  let items ← commaSeparated (item f)
  let into ← whenever (keyword "INTO") into
  let sources ← if ← keyword "FROM" then commaSeparated f.joined else pure []
  let lateralViews ← whileSome (keywords ["LATERAL", "VIEW"]) (lateralView f)
  let prewhere ← whenever (keyword "PREWHERE") f.expr
  let filter ← whenever (keyword "WHERE") f.expr
  let grouping ← grouping f
  let clusterBy ← termsAfter f ["CLUSTER", "BY"]
  let distributeBy ← termsAfter f ["DISTRIBUTE", "BY"]
  let sortBy ← termsAfter f ["SORT", "BY"]
  let having ← whenever (keyword "HAVING") f.expr
  let windowsFirst ← atKeywords ["WINDOW"]
  let first ← if ← keyword "WINDOW" then commaSeparated (namedWindow f) else pure []
  let qualify ← whenever (keyword "QUALIFY") f.expr
  let second ←
    if qualify.isSome && !windowsFirst then
      if ← keyword "WINDOW" then commaSeparated (namedWindow f) else pure []
    else pure []
  let connectBy ← connectBy f
  return { distinct, top, items, into, sources, lateralViews, prewhere, filter, grouping, clusterBy,
           distributeBy, sortBy, having, windows := first ++ second, qualify, windowsFirst, connectBy }

/-! ## Bodies -/

/-- The operators between bodies, the names of their nodes and how tightly they bind. -/
def setOperator? : List Token → Option (Shown × Nat)
  | t :: _ =>
    match capitalsOf? t with
    | some "UNION" => some (⟨"UNION", "Union"⟩, 10)
    | some "EXCEPT" => some (⟨"EXCEPT", "Except"⟩, 10)
    | some "INTERSECT" => some (⟨"INTERSECT", "Intersect"⟩, 20)
    | _ => none
  | [] => none

/-- Which rows an operator between bodies keeps. -/
def setQuantifier : Parser Shown := do
  if ← keywords ["DISTINCT", "BY", "NAME"] then return ⟨" DISTINCT BY NAME", "DistinctByName"⟩
  else if ← keywords ["BY", "NAME"] then return ⟨" BY NAME", "ByName"⟩
  else if ← keyword "ALL" then
    if ← keywords ["BY", "NAME"] then return ⟨" ALL BY NAME", "AllByName"⟩ else return ⟨" ALL", "All"⟩
  else if ← keyword "DISTINCT" then return ⟨" DISTINCT", "Distinct"⟩
  else return ⟨"", "None"⟩

/-- A whole table after its keyword: three tokens, of which the second may be a period. -/
def wholeTable : Parser Shown := do
  let shown := fun (schema : Option String) (table : String) =>
    (⟨"TABLE " ++ clause "" (schema.map (· ++ ".")) ++ table,
      "Table(" ++ outlineNode "Table"
        [("table_name", "Some(" ++ Text.quoted table ++ ")"),
         ("schema_name", outlineOption (schema.map Text.quoted))] ++ ")"⟩ : Shown)
  let a ← next?
  let b ← next?
  let c ← next?
  match a, b, c with
  | some (.word s _), some (.symbol .period), some (.word t _) => return shown (some s) t
  | _, some (.symbol .period), _ => unexpected
  | some (.word t _), _, _ => return shown none t
  | _, _, _ => unexpected

/-- A body without operators around it. -/
def simpleBody (f : Forms) : Parser Body := do
  if ← keyword "SELECT" then return .select (← select f)
  else if ← symbol .lParen then
    let q ← f.query
    expectSymbol .rParen
    return .other ⟨"(" ++ q.text ++ ")", "Query(" ++ q.outline ++ ")"⟩
  else if ← keyword "VALUES" then return .other (← valueRows f)
  else if ← keyword "TABLE" then return .other (← wholeTable)
  else unexpected

/-- Two bodies with an operator between them. -/
def combined (left : Body) (op quantifier : Shown) (right : Body) : Body :=
  .other (Shown.form (left.text ++ " " ++ op.text ++ quantifier.text ++ " " ++ right.text) "SetOperation"
    [("op", op.outline), ("set_quantifier", quantifier.outline), ("left", left.outline),
     ("right", right.outline)])

/-- Takes operators between bodies as long as they bind tighter than the power, at most `n` of
    them. -/
def setOperators (f : Forms) (power : Nat) : Nat → Body → Parser Body
  | 0, _ => unexpected
  | n + 1, left => do
    match setOperator? (← get) with
    | some (op, p) =>
      if power < p then
        let _ ← next
        let quantifier ← setQuantifier
        let right ← f.body p
        setOperators f power n (combined left op quantifier right)
      else return left
    | none => return left

/-- A body whose operators bind tighter than the power. -/
def body (f : Forms) (power : Nat) : Parser Body := do
  let b ← simpleBody f
  setOperators f power ((← get).length + 1) b

/-! ## Clauses of a query -/

/-- A query with a name. -/
def cte (f : Forms) : Parser Shown := do
  let i ← ident
  let columns ← if ← atKeywords ["AS"] then pure [] else columnNames
  expectKeyword "AS"
  let q ← parenthesized f.query
  let source ← whenever (keyword "FROM") ident
  let al : Alias := ⟨i, columns⟩
  return Shown.form (al.text ++ " AS (" ++ q.text ++ ")" ++ clause " FROM " (source.map Ident.text)) "Cte"
    [("alias", al.outline), ("query", q.outline), ("from", outlineOption (source.map Ident.outline)),
     ("materialized", "None")]

/-- Queries with names after the keyword. -/
def ctes (f : Forms) : Parser Shown := do
  let recursive ← keyword "RECURSIVE"
  let cs ← commaSeparated (cte f)
  return Shown.form ("WITH " ++ (if recursive then "RECURSIVE " else "") ++ commas (cs.map Shown.text))
    "With" [("recursive", outlineBool recursive), ("cte_tables", outlineShown cs)]

/-- What stands for rows that were filled in, after the keyword. -/
def interpolate (f : Forms) : Parser Shown := do
  let es ← whenever (atSymbol .lParen) <| parenthesized <| listUntil .rParen do
    let i ← ident
    let t ← termAfter f "AS"
    return Shown.form (i.text ++ clause " AS " (t.map text)) "InterpolateExpr"
      [("column", i.outline), ("expr", outlineTerm? t)]
  let list := es.map fun es => "(" ++ commas (es.map Shown.text) ++ ")"
  return Shown.form ("INTERPOLATE" ++ clause " " list) "Interpolate"
    [("exprs", outlineOption (es.map outlineShown))]

/-- How many rows are given and how many left out. -/
structure Bounds where
  limit : Option Term := none
  offset : Option Shown := none

/-- The number of rows that are left out, with the word after it. -/
def offsetOf (t : Term) (rows : Option String) : Shown :=
  let node := match rows with
    | some "ROW" => "Row"
    | some _ => "Rows"
    | none => "None"
  Shown.form ("OFFSET " ++ t.text ++ clause " " rows) "Offset" [("value", t.outline), ("rows", node)]

/-- One round of the clauses for the number of rows. Two numbers with a comma between them are
    first the rows left out and then the rows given. -/
def bounds (f : Forms) (b : Bounds) : Parser Bounds := do
  let limit ←
    if b.limit.isNone then
      if ← keyword "LIMIT" then
        if ← keyword "ALL" then pure none else some <$> f.expr
      else pure none
    else pure b.limit
  let offset ←
    if b.offset.isNone then
      whenever (keyword "OFFSET") do
        let t ← f.expr
        return offsetOf t (← oneOf ["ROW", "ROWS"])
    else pure b.offset
  match limit, offset with
  | some t, none =>
    if ← symbol .comma then return ⟨some (← f.expr), some (offsetOf t none)⟩
    else return ⟨limit, offset⟩
  | _, _ => return ⟨limit, offset⟩

/-- The number of rows in the words of the standard, after the keyword. -/
def fetch : Parser Shown := do
  let _ ← expectOneOf ["FIRST", "NEXT"]
  let (quantity, percent) ←
    if (← oneOf ["ROW", "ROWS"]).isSome then pure (none, false)
    else
      let v ← value
      let percent ← keyword "PERCENT"
      let _ ← expectOneOf ["ROW", "ROWS"]
      pure (some v, percent)
  let ties ←
    if ← keyword "ONLY" then pure false
    else
      expectKeywords ["WITH", "TIES"]
      pure true
  return Shown.form
    ("FETCH FIRST " ++ clause "" (quantity.map (·.text ++ (if percent then " PERCENT " else " "))) ++
      (if ties then "ROWS WITH TIES" else "ROWS ONLY"))
    "Fetch"
    [("with_ties", outlineBool ties), ("percent", outlineBool percent),
     ("quantity", outlineOption (quantity.map fun v => "Value(" ++ v.outline ++ ")"))]

/-- A text in parentheses. -/
def textInParentheses : Parser String :=
  parenthesized textConstant

/-- Options of a document, each after a comma. A comma alone is no option. The last of several
    texts counts. -/
def documentOptions (words : List (List String)) : Parser (List (List String) × Option String) := do
  let options ← whileSome (symbol .comma) do
    if ← keyword "ROOT" then return ([], some (← textInParentheses))
    else
      let found ← words.findM? keywords
      return (found.toList, none)
  return ((options.map Prod.fst).flatten, (options.filterMap Prod.snd).getLast?)

/-- The document that a query is turned into. -/
def document? : Parser (Option Shown) := do
  if ← keyword "XML" then
    let mode ← expectOneOf ["RAW", "AUTO", "EXPLICIT", "PATH"]
    let node := match mode with
      | "RAW" => "Raw"
      | "AUTO" => "Auto"
      | "EXPLICIT" => "Explicit"
      | _ => "Path"
    let named := mode = "RAW" || mode = "PATH"
    let element ←
      if named && (← atSymbol .lParen) then some <$> textInParentheses else pure none
    let (given, root) ← documentOptions [["ELEMENTS"], ["BINARY", "BASE64"], ["TYPE"]]
    let has := fun ks => given.contains ks
    let part := if named then "(" ++ outlineOption (element.map Text.quoted) ++ ")" else ""
    return some ⟨"FOR XML " ++ mode ++ clause "" (element.map fun e => "('" ++ e ++ "')") ++
        (if has ["BINARY", "BASE64"] then ", BINARY BASE64" else "") ++
        (if has ["TYPE"] then ", TYPE" else "") ++
        clause "" (root.map fun r => ", ROOT('" ++ r ++ "')") ++
        (if has ["ELEMENTS"] then ", ELEMENTS" else ""),
      outlineNode "Xml"
        [("for_xml", node ++ part), ("elements", outlineBool (has ["ELEMENTS"])),
         ("binary_base64", outlineBool (has ["BINARY", "BASE64"])),
         ("root", outlineOption (root.map Text.quoted)), ("type", outlineBool (has ["TYPE"]))]⟩
  else if ← keyword "JSON" then
    let mode ← expectOneOf ["AUTO", "PATH"]
    let (given, root) ← documentOptions [["INCLUDE_NULL_VALUES"], ["WITHOUT_ARRAY_WRAPPER"]]
    let has := fun k => given.contains [k]
    return some ⟨"FOR JSON " ++ mode ++ clause "" (root.map fun r => ", ROOT('" ++ r ++ "')") ++
        (if has "INCLUDE_NULL_VALUES" then ", INCLUDE_NULL_VALUES" else "") ++
        (if has "WITHOUT_ARRAY_WRAPPER" then ", WITHOUT_ARRAY_WRAPPER" else ""),
      outlineNode "Json"
        [("for_json", if mode = "AUTO" then "Auto" else "Path"),
         ("root", outlineOption (root.map Text.quoted)),
         ("include_null_values", outlineBool (has "INCLUDE_NULL_VALUES")),
         ("without_array_wrapper", outlineBool (has "WITHOUT_ARRAY_WRAPPER"))]⟩
  else if ← keyword "BROWSE" then return some ⟨"FOR BROWSE", "Browse"⟩
  else return none

/-- A lock on the rows of a query, after the keyword FOR. -/
def lock : Parser Shown := do
  let kind ← expectOneOf ["UPDATE", "SHARE"]
  let table ← whenever (keyword "OF") path
  let wait ← choice ["NOWAIT"] ["SKIP", "LOCKED"]
  return Shown.form
    ("FOR " ++ kind ++ clause " OF " (table.map pathText) ++ choiceText "NOWAIT" "SKIP LOCKED" wait)
    "LockClause"
    [("lock_type", if kind = "UPDATE" then "Update" else "Share"),
     ("of", outlineOption (table.map outlinePath)),
     ("nonblock", outlineOption (wait.map fun w => if w then "Nowait" else "SkipLocked"))]

/-- Locks, at most `n`, and the document at their end. -/
def locks : Nat → Parser (List Shown × Option Shown)
  | 0 => unexpected
  | n + 1 => do
    if ← keyword "FOR" then
      match ← document? with
      | some d => return ([], some d)
      | none =>
        let l ← lock
        let (ls, d) ← locks n
        return (l :: ls, d)
    else return ([], none)

/-- The format of the answer, after the keyword. -/
def format : Parser Shown := do
  if ← keyword "NULL" then return ⟨"FORMAT NULL", "Null"⟩
  else
    let i ← ident
    return ⟨"FORMAT " ++ i.text, "Identifier(" ++ i.outline ++ ")"⟩

/-- A query. -/
def query (f : Forms) : Parser Query := do
  let ctes ← whenever (keyword "WITH") (ctes f)
  if ← keyword "INSERT" then
    let s ← insertion f "INSERT"
    return { ctes, body := .other ⟨s, "Insert(" ++ s ++ ")"⟩ }
  else if ← keyword "UPDATE" then
    let s ← update f
    return { ctes, body := .other ⟨s, "Update(" ++ s ++ ")"⟩ }
  else
    let body ← f.body 0
    let ordered ← keywords ["ORDER", "BY"]
    let orderBy ← if ordered then orderKeys f else pure []
    let interpolate ← if ordered then whenever (keyword "INTERPOLATE") (interpolate f) else pure none
    let b ← bounds f {}
    let b ← bounds f b
    let limitBy ← if ← keyword "BY" then f.exprs else pure []
    let settings ← if ← keyword "SETTINGS" then settings else pure []
    let fetch ← whenever (keyword "FETCH") fetch
    let (locks, forClause) ← locks ((← get).length + 1)
    let format ← whenever (keyword "FORMAT") format
    return { ctes, body, orderBy, interpolate, limit := b.limit, offset := b.offset, limitBy, settings,
             fetch, locks, forClause, format }

/-! ## The forms together -/

/-- The forms that contain each other, down to `n` calls inside each other, when so many levels
    are left for terms and queries, inside a hierarchy or not. -/
def forms : Nat → Nat → Bool → Forms
  | 0, _, prior =>
    { term := fun _ => unexpected, operand := unexpected, query := unexpected,
      body := fun _ => unexpected, joined := unexpected, prior, hierarchy := unexpected }
  | n + 1, levels, prior =>
    { term := fun power ts =>
        match levels with
        | 0 => .error .tooDeep
        | l + 1 => term (forms n l prior) power ts
      operand := fun ts => operand (forms n levels prior) ts
      query := fun ts =>
        match levels with
        | 0 => .error .tooDeep
        | l + 1 => query (forms n l prior) ts
      body := fun power ts => body (forms n levels prior) power ts
      joined := fun ts => joined (forms n levels prior) ts
      prior
      hierarchy := fun ts => (forms n levels true).exprs ts }

/-- Enough calls inside each other for a list of tokens: between two of them at least one token is
    taken, or the form becomes a smaller one, of which there are five kinds. -/
def callsFor (ts : List Token) : Nat :=
  8 * ts.length + 16

end StreamSql.Grammar
