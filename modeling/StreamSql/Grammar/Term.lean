/-
  Terms (`parse_expr` of the `sqlparser` library). A term is an operand followed by operators; an
  operator is taken as long as it binds tighter than what stands before the term. Operands come
  first here, by kind, then the operators.
-/
import StreamSql.Grammar.TypeName

namespace StreamSql.Grammar

open Term (text texts outline form notWord escapeText)

/-! ## How tightly operators bind -/

namespace Power

def cast : Nat := 50
def zone : Nat := 41
def product : Nat := 40
def sum : Nat := 30
def xor : Nat := 24
def bitAnd : Nat := 23
def bitXor : Nat := 22
def bitOr : Nat := 21
def comparison : Nat := 20
def like : Nat := 19
def is : Nat := 17
def arrow : Nat := 16
def not : Nat := 15
def and : Nat := 10
def or : Nat := 5

end Power

/-- A term after a word, if the word comes next. -/
def termAfter (f : Forms) (k : String) : Parser (Option Term) :=
  whenever (keyword k) f.expr

/-! ## Times -/

/-- The parts of a time that have a word of their own, the names of their nodes and whether they may
    follow the amount of an interval. -/
def timeFields : List (String × String × Bool) :=
  [("YEAR", "Year", true), ("MONTH", "Month", true), ("WEEK", "Week(None)", true), ("DAY", "Day", true),
   ("HOUR", "Hour", true), ("MINUTE", "Minute", true), ("SECOND", "Second", true),
   ("CENTURY", "Century", true), ("DECADE", "Decade", true), ("DOW", "Dow", true), ("DOY", "Doy", true),
   ("EPOCH", "Epoch", true), ("ISODOW", "Isodow", true), ("ISOYEAR", "Isoyear", true),
   ("JULIAN", "Julian", true), ("MICROSECOND", "Microsecond", true),
   ("MICROSECONDS", "Microseconds", true), ("MILLENIUM", "Millenium", true),
   ("MILLENNIUM", "Millennium", true), ("MILLISECOND", "Millisecond", true),
   ("MILLISECONDS", "Milliseconds", true), ("NANOSECOND", "Nanosecond", true),
   ("NANOSECONDS", "Nanoseconds", true), ("QUARTER", "Quarter", true), ("TIMEZONE", "Timezone", true),
   ("TIMEZONE_HOUR", "TimezoneHour", true), ("TIMEZONE_MINUTE", "TimezoneMinute", true),
   ("DATE", "Date", false), ("DAYOFWEEK", "DayOfWeek", false), ("DAYOFYEAR", "DayOfYear", false),
   ("DATETIME", "Datetime", false), ("ISOWEEK", "IsoWeek", false), ("TIME", "Time", false),
   ("TIMEZONE_ABBR", "TimezoneAbbr", false), ("TIMEZONE_REGION", "TimezoneRegion", false)]

/-- A part of a time. Any other name is one too. -/
def timeField : Parser Shown := do
  let t ← next
  match ident? t with
  | none => unexpected
  | some i =>
    let k := (capitalsOf? t).getD ""
    match timeFields.lookup k with
    | none => return ⟨i.text, "Custom(" ++ i.outline ++ ")"⟩
    | some (node, _) =>
      if k = "WEEK" && (← atSymbol .lParen) then
        let i ← parenthesized ident
        return ⟨"WEEK(" ++ i.text ++ ")", "Week(Some(" ++ i.outline ++ "))"⟩
      else return ⟨k, node⟩

/-- The end of an interval after its amount: its first part and the digits of that, its last part
    and the digits of a fraction. -/
structure IntervalUnit where
  first : Option Shown := none
  precision : Option Nat := none
  last : Option Shown := none
  fraction : Option Nat := none

def IntervalUnit.text (u : IntervalUnit) : String :=
  let digits := fun n => clause " (" (Option.map (toString · ++ ")") n)
  match u.precision, u.last, u.fraction with
  | some p, none, some f =>
      shownClause u.first ++ " (" ++ toString p ++ ", " ++ toString f ++ ")"
  | _, _, _ =>
      shownClause u.first ++ digits u.precision ++ clause " TO " (u.last.map Shown.text) ++
        digits u.fraction

/-- The two numbers of digits of seconds. -/
def secondsPrecision : Parser (Option Nat × Option Nat) := do
  if ← symbol .lParen then
    let p ← natural
    let f ← whenever (symbol .comma) natural
    expectSymbol .rParen
    return (some p, f)
  else return (none, none)

/-- The end of an interval. Seconds have no last part. -/
def intervalUnit : Parser IntervalUnit := do
  let starts := match (← get).head?.bind capitalsOf? with
    | some k => (timeFields.lookup k).any Prod.snd
    | none => false
  let first ← if starts then some <$> timeField else pure none
  if first.map Shown.text = some "SECOND" then
    let (precision, fraction) ← secondsPrecision
    return { first, precision, fraction }
  let precision ← TypeName.length?
  if ← keyword "TO" then
    let last ← timeField
    let fraction ← if last.text = "SECOND" then TypeName.length? else pure none
    return { first, precision, last := some last, fraction }
  else return { first, precision }

/-- An interval after its keyword. -/
def interval (f : Forms) : Parser Term := do
  let amount ← f.operand
  let u ← intervalUnit
  let outline := outlineNode "Interval"
    [("value", amount.outline), ("leading_field", outlineShown? u.first),
     ("leading_precision", TypeName.lengthOutline u.precision), ("last_field", outlineShown? u.last),
     ("fractional_seconds_precision", TypeName.lengthOutline u.fraction)]
  return .other ("INTERVAL " ++ amount.text ++ u.text) ("Interval(" ++ outline ++ ")")

/-! ## Ordered lists and windows -/

/-- What two words decide, if either comes next. -/
def choice (yes no : List String) : Parser (Option Bool) := do
  if ← keywords yes then return some true
  else if ← keywords no then return some false
  else return none

/-- The words for a choice, with a blank before them. -/
def choiceText (yes no : String) : Option Bool → String
  | some true => " " ++ yes
  | some false => " " ++ no
  | none => ""

def outlineChoice (b : Option Bool) : String :=
  outlineOption (b.map outlineBool)

/-- A term that rows are ordered by. -/
def orderKey (f : Forms) : Parser Shown := do
  let t ← f.expr
  let ascending ← choice ["ASC"] ["DESC"]
  let nullsFirst ← choice ["NULLS", "FIRST"] ["NULLS", "LAST"]
  let fill ← whenever (keywords ["WITH", "FILL"]) do
    let start ← termAfter f "FROM"
    let stop ← termAfter f "TO"
    let step ← termAfter f "STEP"
    return Shown.form
      ("WITH FILL" ++ clause " FROM " (start.map text) ++ clause " TO " (stop.map text) ++
        clause " STEP " (step.map text))
      "WithFill" [("from", outlineTerm? start), ("to", outlineTerm? stop), ("step", outlineTerm? step)]
  return Shown.form
    (t.text ++ choiceText "ASC" "DESC" ascending ++ choiceText "NULLS FIRST" "NULLS LAST" nullsFirst ++
      shownClause fill)
    "OrderByExpr"
    [("expr", t.outline), ("asc", outlineChoice ascending), ("nulls_first", outlineChoice nullsFirst),
     ("with_fill", outlineShown? fill)]

def orderKeys (f : Forms) : Parser (List Shown) :=
  commaSeparated (orderKey f)

/-- One end of the frame of a window. -/
def frameBound (f : Forms) : Parser Shown := do
  if ← keywords ["CURRENT", "ROW"] then return ⟨"CURRENT ROW", "CurrentRow"⟩
  let amount ←
    if ← keyword "UNBOUNDED" then pure none
    else match (← get).head? with
      | some (.string _) => some <$> interval f
      | _ => some <$> f.expr
  let side ← expectOneOf ["PRECEDING", "FOLLOWING"]
  return ⟨amount.elim "UNBOUNDED" text ++ " " ++ side,
    (if side = "PRECEDING" then "Preceding(" else "Following(") ++ outlineTerm? amount ++ ")"⟩

/-- The frame of a window. -/
def frame (f : Forms) : Parser Shown := do
  let unit ← expectOneOf ["ROWS", "RANGE", "GROUPS"]
  let (low, high) ←
    if ← keyword "BETWEEN" then
      let low ← frameBound f
      expectKeyword "AND"
      pure (low, some (← frameBound f))
    else pure (← frameBound f, none)
  let bounds := match high with
    | some h => " BETWEEN " ++ low.text ++ " AND " ++ h.text
    | none => " " ++ low.text
  let node := if unit = "ROWS" then "Rows" else if unit = "RANGE" then "Range" else "Groups"
  return Shown.form (unit ++ bounds) "WindowFrame"
    [("units", node), ("start_bound", low.outline), ("end_bound", outlineShown? high)]

/-- A window after its opening parenthesis. -/
def windowSpec (f : Forms) : Parser Shown := do
  let name ← match (← get).head? with
    | some t@(.word _ _) => if t.keyword?.isNone then some <$> ident else pure none
    | _ => pure none
  let partition ← if ← keywords ["PARTITION", "BY"] then f.exprs else pure []
  let order ← if ← keywords ["ORDER", "BY"] then orderKeys f else pure []
  let range ←
    if ← symbol .rParen then pure none
    else
      let r ← frame f
      expectSymbol .rParen
      pure (some r)
  let parts := (name.map Ident.text).toList ++ [listClause "PARTITION BY " (texts partition)] ++
    [listClause "ORDER BY " (order.map Shown.text)] ++ (range.map Shown.text).toList
  return Shown.form ("(" ++ " ".intercalate (parts.filter (· ≠ "")) ++ ")") "WindowSpec"
    [("window_name", outlineOption (name.map Ident.outline)), ("partition_by", outlineTerms partition),
     ("order_by", outlineShown order), ("window_frame", outlineShown? range)]

/-! ## Calls -/

/-- Names with periods between them and whether a star ends them. A period has to be followed by a
    name. -/
def dotted : Nat → Parser (List Ident × Bool)
  | 0 => unexpected
  | n + 1 => do
    if ← symbol .period then
      if ← symbol .mul then return ([], true)
      let i ← ident
      let (is, star) ← dotted n
      return (i :: is, star)
    else return ([], false)

/-- What may stand where all columns may: all columns, those of one relation, or a term. -/
inductive Starred where
  | all
  | allOf (path : List Ident)
  | term (t : Term)

/-- A term or all columns. -/
def starred (f : Forms) : Parser Starred := do
  let ts ← get
  match ts with
  | .symbol .mul :: r => set r; return .all
  | t :: .symbol .period :: r =>
    match ident? t with
    | some i =>
      set (Token.symbol .period :: r)
      let (is, star) ← dotted (ts.length + 1)
      if star then return .allOf (i :: is)
      else
        set ts
        return .term (← f.expr)
    | none => return .term (← f.expr)
  | _ => return .term (← f.expr)

/-- An argument as it is shown. -/
def Starred.asArgument : Starred → Shown
  | .all => ⟨"*", "Wildcard"⟩
  | .allOf p => ⟨pathText p ++ ".*", "QualifiedWildcard(" ++ outlinePath p ++ ")"⟩
  | .term t => ⟨t.text, "Expr(" ++ t.outline ++ ")"⟩

/-- An argument with a name. -/
def namedArgument (i : Ident) (mark node : String) (arg : Shown) : Term :=
  .argument (i.text ++ " " ++ mark ++ " " ++ arg.text)
    (outlineNode "Named" [("name", i.outline), ("arg", arg.outline), ("operator", node)])

/-- An argument of a call. -/
def argument (f : Forms) : Parser Term := do
  match ← get with
  | _ :: .symbol .rArrow :: _ =>
    let i ← ident
    expectSymbol .rArrow
    return namedArgument i "=>" "RightArrow" (← starred f).asArgument
  | _ :: .symbol .assign :: _ =>
    let i ← ident
    expectSymbol .assign
    return namedArgument i ":=" "Assignment" (Starred.term (← f.expr)).asArgument
  | _ =>
    match ← starred f with
    | .all => return .star
    | .term t => return t
    | s@(.allOf _) => return .argument s.asArgument.text ("Unnamed(" ++ s.asArgument.outline ++ ")")

/-- How a call treats rows without a value. -/
def nullTreatment : Parser (Option Shown) := do
  match ← oneOf ["RESPECT", "IGNORE"] with
  | some k =>
    expectKeyword "NULLS"
    return some ⟨k ++ " NULLS", if k = "RESPECT" then "RespectNulls" else "IgnoreNulls"⟩
  | none => return none

/-- What a call does if its result grows too long. -/
def onOverflow (f : Forms) : Parser Shown := do
  if ← keyword "ERROR" then return ⟨"ON OVERFLOW ERROR", "OnOverflow(Error)"⟩
  expectKeyword "TRUNCATE"
  let filler ← match (← get).head? with
    | some (.string _) | some (.escaped _) | some (.unicode _) | some (.national _) | some (.hex _) =>
      some <$> f.expr
    | some (.word _ _) => pure none
    | _ => unexpected
  let count ← expectOneOf ["WITH", "WITHOUT"]
  expectKeyword "COUNT"
  return ⟨"ON OVERFLOW TRUNCATE" ++ clause " " (filler.map text) ++ " " ++ count ++ " COUNT",
    "OnOverflow(" ++ outlineNode "Truncate"
      [("filler", outlineTerm? filler), ("with_count", outlineBool (count = "WITH"))] ++ ")"⟩

/-- What a parser gives, as a list, if the keywords come next. -/
def clauseAfter (ks : List String) (p : Parser Shown) : Parser (List Shown) := do
  if ← keywords ks then return [← p] else return []

/-- The arguments of a call after the opening parenthesis. -/
structure Arguments where
  duplicates : Option Bool := none
  args : List Term := []
  nulls : Option Shown := none
  clauses : List CallClause := []

def arguments (f : Forms) : Parser Arguments := do
  if ← symbol .rParen then return {}
  let all ← keyword "ALL"
  let distinct ← keyword "DISTINCT"
  if all && distinct then unexpected
  let args ← commaSeparated (argument f)
  let nulls ← nullTreatment
  let order ← if ← keywords ["ORDER", "BY"] then pure [.order (← orderKeys f)] else pure []
  let limit ← clauseAfter ["LIMIT"] do
    let t ← f.expr
    return ⟨"LIMIT " ++ t.text, "Limit(" ++ t.outline ++ ")"⟩
  let having ← clauseAfter ["HAVING"] do
    let k ← expectOneOf ["MIN", "MAX"]
    let t ← f.expr
    return ⟨"HAVING " ++ k ++ " " ++ t.text,
      "Having(HavingBound(" ++ (if k = "MIN" then "Min" else "Max") ++ ", " ++ t.outline ++ "))"⟩
  let separator ← clauseAfter ["SEPARATOR"] do
    let v ← value
    return ⟨"SEPARATOR " ++ v.text, "Separator(" ++ v.outline ++ ")"⟩
  let overflow ← clauseAfter ["ON", "OVERFLOW"] (onOverflow f)
  expectSymbol .rParen
  let duplicates := if distinct then some true else if all then some false else none
  let treatment := nulls.toList.map fun n =>
    { n with outline := "IgnoreOrRespectNulls(" ++ n.outline ++ ")" }
  let others := (limit ++ having ++ separator ++ overflow).map CallClause.other
  let clauses := treatment.map .other ++ order ++ others
  return { duplicates, args, nulls, clauses }

/-- Arguments with their parentheses as they are shown. -/
def Arguments.shown (a : Arguments) : Shown :=
  ⟨Term.listText a.duplicates (texts a.args) a.clauses,
    Term.listOutline a.duplicates (Term.outlineArgs a.args) a.clauses⟩

/-- The window of a call after its keyword. -/
def overWindow (f : Forms) : Parser Shown := do
  if ← symbol .lParen then
    let w ← windowSpec f
    return { w with outline := "WindowSpec(" ++ w.outline ++ ")" }
  else
    let i ← ident
    return ⟨i.text, "NamedWindow(" ++ i.outline ++ ")"⟩

/-- A call after its name. -/
def call (f : Forms) (fn : List Ident) : Parser Term := do
  expectSymbol .lParen
  let first ← arguments f
  let (parameters, list) ←
    if ← symbol .lParen then do
      let second ← arguments f
      pure (some first.shown, second)
    else pure (none, first)
  let group ←
    if ← keywords ["WITHIN", "GROUP"] then
      parenthesized do
        expectKeywords ["ORDER", "BY"]
        orderKeys f
    else pure []
  let nulls ← if list.nulls.isNone then nullTreatment else pure none
  let window ← whenever (keyword "OVER") (overWindow f)
  return .call fn list.args
    { duplicates := list.duplicates, clauses := list.clauses, parameters, group, nulls, window }

/-- A call of a function of the time, whose parentheses may be missing. -/
def timeCall (f : Forms) (fn : Ident) : Parser Term := do
  if ← symbol .lParen then
    let list ← arguments f
    return .call [fn] list.args { duplicates := list.duplicates, clauses := list.clauses }
  else return .call [fn] [] { bare := true }

/-! ## Operands that start with a word -/

/-- The branches of a case after the first word WHEN. -/
def branches (f : Forms) : Parser (List (Term × Term)) := do
  let branch : Parser (Term × Term) := do
    let w ← f.expr
    expectKeyword "THEN"
    let t ← f.expr
    return (w, t)
  let b ← branch
  return b :: (← whileSome (keyword "WHEN") branch)

/-- A case after its keyword. -/
def caseTerm (f : Forms) : Parser Term := do
  let operand ←
    if ← keyword "WHEN" then pure none
    else
      let t ← f.expr
      expectKeyword "WHEN"
      pure (some t)
  let bs ← branches f
  let otherwise ← whenever (keyword "ELSE") f.expr
  expectKeyword "END"
  return .case operand bs otherwise

/-- A cast after its keyword. -/
def castTerm (f : Forms) (form : CastForm) : Parser Term :=
  parenthesized do
    let t ← f.expr
    expectKeyword "AS"
    let type ← typeName
    let format ← whenever (keyword "FORMAT") do
      let v ← value
      if ← keywords ["AT", "TIME", "ZONE"] then
        let z ← value
        return ⟨v.text ++ " AT TIME ZONE " ++ z.text,
          "ValueAtTimeZone(" ++ v.outline ++ ", " ++ z.outline ++ ")"⟩
      else return ⟨v.text, "Value(" ++ v.outline ++ ")"⟩
    return .cast form t type format

/-- A conversion after its keyword. -/
def convertTerm (f : Forms) (trying : Bool) : Parser Term :=
  parenthesized do
    let t ← f.expr
    let (type, set) ←
      if ← keyword "USING" then pure (none, some (← path))
      else
        expectSymbol .comma
        let type ← typeName
        pure (some type, ← whenever (keywords ["CHARACTER", "SET"]) path)
    let tail := match type with
      | none => clause " USING " (set.map pathText)
      | some ty => ", " ++ ty.text ++ clause " CHARACTER SET " (set.map pathText)
    return form ((if trying then "TRY_CONVERT(" else "CONVERT(") ++ t.text ++ tail ++ ")") "Convert"
      [("is_try", outlineBool trying), ("expr", t.outline),
       ("data_type", outlineOption (type.map TypeName.outline)),
       ("charset", outlineOption (set.map outlinePath)), ("target_before_value", "false"),
       ("styles", "[]")]

/-- The test for rows of a query after its keyword. -/
def existsTerm (f : Forms) (negated : Bool) : Parser Term := do
  let q ← parenthesized f.query
  return form (notWord negated ++ "EXISTS (" ++ q.text ++ ")") "Exists"
    [("subquery", q.outline), ("negated", outlineBool negated)]

/-- A negation after its keyword. -/
def notTerm (f : Forms) : Parser Term := do
  if ← keyword "EXISTS" then existsTerm f true
  else return .sign .not (← f.term Power.not)

/-- A part of a time after its keyword. -/
def extractTerm (f : Forms) : Parser Term :=
  parenthesized do
    let field ← timeField
    let (mark, node) ←
      if ← keyword "FROM" then pure (" FROM ", "From")
      else
        expectSymbol .comma
        pure (", ", "Comma")
    let t ← f.expr
    return form ("EXTRACT(" ++ field.text ++ mark ++ t.text ++ ")") "Extract"
      [("field", field.outline), ("syntax", node), ("expr", t.outline)]

/-- A rounding after its keyword, which is given. -/
def roundTerm (f : Forms) (name node : String) : Parser Term :=
  parenthesized do
    let t ← f.expr
    let unit : Shown ←
      if ← keyword "TO" then
        let field ← timeField
        pure ⟨" TO " ++ field.text, "DateTimeField(" ++ field.outline ++ ")"⟩
      else if ← symbol .comma then
        match ← value with
        | v@(.number _ _) => pure ⟨", " ++ v.text, "Scale(" ++ v.outline ++ ")"⟩
        | _ => unexpected
      else pure ⟨"", "DateTimeField(NoDateTime)"⟩
    return form (name ++ "(" ++ t.text ++ unit.text ++ ")") node
      [("expr", t.outline), ("field", unit.outline)]

/-- A search for a text after its keyword: a form of its own, or a call. -/
def positionTerm (f : Forms) (fn : Ident) : Parser Term := do
  let found ← attempt <| parenthesized do
    let t ← f.term Power.comparison
    expectKeyword "IN"
    let r ← f.expr
    return form ("POSITION(" ++ t.text ++ " IN " ++ r.text ++ ")") "Position"
      [("expr", t.outline), ("in", r.outline)]
  match found with
  | some t => return t
  | none => call f [fn]

/-- A part of a text after its keyword. -/
def substringTerm (f : Forms) : Parser Term :=
  parenthesized do
    let t ← f.expr
    let comma ← symbol .comma
    let from_ ← if comma then some <$> f.expr else whenever (keyword "FROM") f.expr
    let hasFor ← keyword "FOR"
    let for_ ← if hasFor then some <$> f.expr else whenever (symbol .comma) f.expr
    let marks := if comma then (", ", ", ") else (" FROM ", " FOR ")
    return form
      ("SUBSTRING(" ++ t.text ++ clause marks.1 (from_.map text) ++ clause marks.2 (for_.map text) ++ ")")
      "Substring"
      [("expr", t.outline), ("substring_from", outlineTerm? from_),
       ("substring_for", outlineTerm? for_), ("special", outlineBool comma)]

/-- A replacement in a text after its keyword. -/
def overlayTerm (f : Forms) : Parser Term :=
  parenthesized do
    let t ← f.expr
    expectKeyword "PLACING"
    let what ← f.expr
    expectKeyword "FROM"
    let from_ ← f.expr
    let for_ ← whenever (keyword "FOR") f.expr
    return form
      ("OVERLAY(" ++ t.text ++ " PLACING " ++ what.text ++ " FROM " ++ from_.text ++
        clause " FOR " (for_.map text) ++ ")")
      "Overlay"
      [("expr", t.outline), ("overlay_what", what.outline), ("overlay_from", from_.outline),
       ("overlay_for", outlineTerm? for_)]

/-- A text without its ends after its keyword. The side is not kept if characters are listed. -/
def trimTerm (f : Forms) : Parser Term :=
  parenthesized do
    let side ← oneOf ["BOTH", "LEADING", "TRAILING"]
    let made := fun (inside : String) (side : Option String) (t : Term) (what : Option Term)
        (characters : Option (List Term)) =>
      form ("TRIM(" ++ clause "" (side.map (· ++ " ")) ++ inside ++ ")") "Trim"
        [("expr", t.outline), ("trim_where", outlineOption (side.map sideNode)),
         ("trim_what", outlineTerm? what),
         ("trim_characters", outlineOption (characters.map outlineTerms))]
    let t ← f.expr
    if ← keyword "FROM" then
      let r ← f.expr
      return made (t.text ++ " FROM " ++ r.text) side r (some t) none
    else if ← symbol .comma then
      let cs ← f.exprs
      return made (t.text ++ ", " ++ commas (texts cs)) none t none (some cs)
    else return made t.text side t none none
where
  /-- The node of a side. -/
  sideNode (k : String) : String :=
    if k = "BOTH" then "Both" else if k = "LEADING" then "Leading" else "Trailing"

/-- An array after its opening bracket. -/
def arrayTerm (f : Forms) (lead : String) : Parser Term := do
  let ts ← listUntil .rBracket f.expr
  expectSymbol .rBracket
  return .other (lead ++ "[" ++ commas (texts ts) ++ "]")
    ("Array(" ++ outlineNode "Array"
      [("elem", outlineTerms ts), ("named", outlineBool (lead ≠ ""))] ++ ")")

/-- A search for words after its keyword. -/
def matchTerm : Parser Term := do
  let columns ← parenthesized (commaSeparated ident)
  expectKeyword "AGAINST"
  parenthesized do
    let v ← value
    let mode : Option Shown ←
      if ← keywords ["IN", "NATURAL", "LANGUAGE", "MODE"] then
        if ← keywords ["WITH", "QUERY", "EXPANSION"] then
          pure (some ⟨"IN NATURAL LANGUAGE MODE WITH QUERY EXPANSION",
            "InNaturalLanguageModeWithQueryExpansion"⟩)
        else pure (some ⟨"IN NATURAL LANGUAGE MODE", "InNaturalLanguageMode"⟩)
      else if ← keywords ["IN", "BOOLEAN", "MODE"] then
        pure (some ⟨"IN BOOLEAN MODE", "InBooleanMode"⟩)
      else if ← keywords ["WITH", "QUERY", "EXPANSION"] then
        pure (some ⟨"WITH QUERY EXPANSION", "WithQueryExpansion"⟩)
      else pure none
    return form
      ("MATCH (" ++ commas (columns.map Ident.text) ++ ") AGAINST (" ++ v.text ++ shownClause mode ++ ")")
      "MatchAgainst"
      [("columns", outlineList (columns.map Ident.outline)), ("match_value", v.outline),
       ("opt_search_modifier", outlineShown? mode)]

/-- A structure after its keyword. Its fields have names only if the type does not give them. -/
def structTerm (f : Forms) : Parser Term := do
  let fields ← structType
  let values ← parenthesized <| commaSeparated do
    let t ← f.expr
    if ← keyword "AS" then
      unless fields.isEmpty do unexpected
      let i ← ident
      return Shown.form (t.text ++ " AS " ++ i.text) "Named" [("expr", t.outline), ("name", i.outline)]
    else return t.shown
  return form (TypeName.structText fields ++ "(" ++ commas (values.map Shown.text) ++ ")") "Struct"
    [("values", outlineShown values), ("fields", outlineShown fields)]

/-- An entry in braces, a node of the given name. -/
def entry (f : Forms) (node : String) (key : Parser Shown) : Parser Shown := do
  let k ← key
  expectSymbol .colon
  let t ← f.expr
  return Shown.form (k.text ++ ": " ++ t.text) node [("key", k.outline), ("value", t.outline)]

/-- Entries in braces, the opening one already taken. -/
def entries (list : Parser (List Shown)) : Parser Shown := do
  let es ← list
  expectSymbol .rBrace
  return ⟨"\x7b" ++ commas (es.map Shown.text) ++ "\x7d", outlineShown es⟩

/-- A name, a call or a text with a mark before it: what a word is that has no form of its own. -/
def wordTerm (f : Forms) (i : Ident) : Parser Term := do
  match (← get).head? with
  | some (.symbol .lParen) => call f [i]
  | some (.symbol .period) =>
    let (is, star) ← dotted ((← get).length + 1)
    if star then unexpected
    if ← atSymbol .lParen then call f (i :: is) else return .path (i :: is)
  | some t@(.string _) | some t@(.hex _) =>
    if i.value.startsWith "_" then
      let _ ← next
      match constant? t with
      | some v =>
          return form (i.value ++ " " ++ v.text) "IntroducedString"
            [("introducer", Text.quoted i.value), ("value", v.outline)]
      | none => unexpected
    else return .name i
  | _ => return .name i

/-- The operand that a keyword begins, if it has a form of its own. -/
def keywordTerm (f : Forms) (i : Ident) : String → Parser Term
  | "TRUE" => return .value (.boolean true)
  | "FALSE" => return .value (.boolean false)
  | "NULL" => return .value .null
  | "CURRENT_CATALOG" | "CURRENT_USER" | "SESSION_USER" | "USER" => return .call [i] [] { bare := true }
  | "CURRENT_TIMESTAMP" | "CURRENT_TIME" | "CURRENT_DATE" | "LOCALTIME" | "LOCALTIMESTAMP" => timeCall f i
  | "CASE" => caseTerm f
  | "CONVERT" => convertTerm f false
  | "TRY_CONVERT" => convertTerm f true
  | "CAST" => castTerm f .cast
  | "TRY_CAST" => castTerm f .tryCast
  | "SAFE_CAST" => castTerm f .safeCast
  | "EXISTS" => existsTerm f false
  | "EXTRACT" => extractTerm f
  | "CEIL" => roundTerm f "CEIL" "Ceil"
  | "FLOOR" => roundTerm f "FLOOR" "Floor"
  | "POSITION" => do if ← atSymbol .lParen then positionTerm f i else wordTerm f i
  | "SUBSTRING" => substringTerm f
  | "OVERLAY" => overlayTerm f
  | "TRIM" => trimTerm f
  | "INTERVAL" => interval f
  | "ARRAY" => do
    if ← symbol .lBracket then arrayTerm f "ARRAY"
    else if ← atSymbol .lParen then
      let q ← parenthesized f.query
      return .call [i] [] { subquery := some q.shown }
    else wordTerm f i
  | "NOT" => notTerm f
  | "MATCH" => matchTerm
  | "STRUCT" => structTerm f
  | "MAP" => do
    if ← symbol .lBrace then
      let es ← entries (listUntil .rBrace (entry f "MapEntry" (Term.shown <$> f.expr)))
      return .other ("MAP " ++ es.text) ("Map(" ++ outlineNode "Map" [("entries", es.outline)] ++ ")")
    else wordTerm f i
  | "PRIOR" => do
    if f.prior then
      let t ← f.term Power.sum
      return .other ("PRIOR " ++ t.text) ("Prior(" ++ t.outline ++ ")")
    else wordTerm f i
  | _ => wordTerm f i

/-! ## All operands -/

/-- A text with its type before it. Types that are not in the language have no such form. -/
def typedText (f : Forms) : Parser Term := do
  let type ← typeName
  if type.interval then interval f
  else if type.custom then unexpected
  else
    let s ← textConstant
    return form (type.text ++ " " ++ inQuotes '\x27' s) "TypedString"
      [("data_type", type.outline), ("value", Text.quoted s)]

/-- A query comes next. -/
def atQuery : Parser Bool := do
  return (← atKeywords ["SELECT"]) || (← atKeywords ["WITH"])

/-- What stands between parentheses, the opening one already taken, and a field of it. -/
def parenthesis (f : Forms) : Parser Term := do
  let t ←
    if ← atQuery then (fun q => Term.subquery (Query.shown q)) <$> f.query
    else
      match ← f.exprs with
      | [t] => pure (.nested t)
      | ts =>
          pure (.other ("(" ++ commas (texts ts) ++ ")") ("Tuple(" ++ outlineTerms ts ++ ")"))
  expectSymbol .rParen
  if ← symbol .period then
    match ← next with
    | .word v q =>
      let i : Ident := ⟨v, q⟩
      return form (t.text ++ "." ++ i.text) "CompositeAccess" [("expr", t.outline), ("key", i.outline)]
    | _ => unexpected
  else return t

/-- An operand that is not a text with its type. -/
def plainOperand (f : Forms) : Parser Term := do
  let ts ← get
  let t ← next
  match t with
  | .word v q =>
    match capitalsOf? t with
    | some k => keywordTerm f ⟨v, q⟩ k
    | none => wordTerm f ⟨v, q⟩
  | .symbol .lBracket => arrayTerm f ""
  | .symbol .minus => return .sign .minus (← f.term Power.product)
  | .symbol .plus => return .sign .plus (← f.term Power.product)
  | .symbol .lParen => parenthesis f
  | .symbol .lBrace =>
    let key : Parser Shown := (fun i => ⟨Ident.text i, Ident.outline i⟩) <$> ident
    let es ← entries (commaSeparated (entry f "DictionaryField" key))
    return .other es.text ("Dictionary(" ++ es.outline ++ ")")
  | _ =>
    set ts
    return .value (← value)

/-- An operand, perhaps with the order of its characters. -/
def operand (f : Forms) : Parser Term := do
  match ← attempt (typedText f) with
  | some t => return t
  | none =>
    let t ← plainOperand f
    if ← keyword "COLLATE" then
      let p ← path
      return form (t.text ++ " COLLATE " ++ pathText p) "Collate"
        [("expr", t.outline), ("collation", outlinePath p)]
    else return t

/-! ## Operators -/

/-- How tightly the word after a negation binds. -/
def negatedPower : List Token → Nat
  | t :: _ =>
    match capitalsOf? t with
    | some "IN" | some "BETWEEN" => Power.comparison
    | some "LIKE" | some "ILIKE" | some "RLIKE" | some "REGEXP" | some "SIMILAR" => Power.like
    | _ => 0
  | [] => 0

/-- How tightly a symbol binds as an operator. -/
def symbolPower : Symbol → Nat
  | .eq | .lt | .ltEq | .neq | .gt | .gtEq | .doubleEq | .tilde | .tildeStar | .bangTilde | .bangTildeStar
  | .doubleTilde | .doubleTildeStar | .bangDoubleTilde | .bangDoubleTildeStar | .spaceship =>
      Power.comparison
  | .pipe => Power.bitOr
  | .caret | .sharp | .shiftRight | .shiftLeft => Power.bitXor
  | .ampersand => Power.bitAnd
  | .plus | .minus => Power.sum
  | .mul | .div | .intDiv | .mod | .concat => Power.product
  | .doubleColon | .bang | .lBracket | .overlap | .caretAt => Power.cast
  | .arrow | .longArrow | .hashArrow | .hashLongArrow | .atArrow | .arrowAt | .hashMinus | .atQuestion
  | .atAt => Power.arrow
  | _ => 0

/-- How tightly the operator at the front of the tokens binds, 0 if there is none. -/
def nextPower : List Token → Nat
  | .symbol s :: _ => symbolPower s
  | t :: r =>
    match capitalsOf? t with
    | some "OR" => Power.or
    | some "AND" => Power.and
    | some "XOR" => Power.xor
    | some "AT" => if beginWith ["TIME", "ZONE"] r then Power.zone else 0
    | some "NOT" => negatedPower r
    | some "IS" => Power.is
    | some "IN" | some "BETWEEN" | some "OPERATOR" => Power.comparison
    | some "LIKE" | some "ILIKE" | some "RLIKE" | some "REGEXP" | some "SIMILAR" => Power.like
    | some "DIV" => Power.product
    | _ => 0
  | [] => 0

/-- The operator between two terms that a symbol is. -/
def symbolOp? : Symbol → Option InfixOp
  | .spaceship => some (.other "<=>" "Spaceship")
  | .doubleEq | .eq => some .eq
  | .neq => some .ne
  | .gt => some .gt
  | .gtEq => some .ge
  | .lt => some .lt
  | .ltEq => some .le
  | .plus => some .plus
  | .minus => some .minus
  | .mul => some .multiply
  | .mod => some .modulo
  | .concat => some .concat
  | .pipe => some (.other "|" "BitwiseOr")
  | .caret => some (.other "^" "BitwiseXor")
  | .ampersand => some (.other "&" "BitwiseAnd")
  | .div => some .divide
  | .intDiv => some (.other "//" "DuckIntegerDivide")
  | .shiftLeft => some (.other "<<" "PGBitwiseShiftLeft")
  | .shiftRight => some (.other ">>" "PGBitwiseShiftRight")
  | .overlap => some (.other "&&" "PGOverlap")
  | .caretAt => some (.other "^@" "PGStartsWith")
  | .tilde => some (.other "~" "PGRegexMatch")
  | .tildeStar => some (.other "~*" "PGRegexIMatch")
  | .bangTilde => some (.other "!~" "PGRegexNotMatch")
  | .bangTildeStar => some (.other "!~*" "PGRegexNotIMatch")
  | .doubleTilde => some (.other "~~" "PGLikeMatch")
  | .doubleTildeStar => some (.other "~~*" "PGILikeMatch")
  | .bangDoubleTilde => some (.other "!~~" "PGNotLikeMatch")
  | .bangDoubleTildeStar => some (.other "!~~*" "PGNotILikeMatch")
  | .arrow => some (.other "->" "Arrow")
  | .longArrow => some (.other "->>" "LongArrow")
  | .hashArrow => some (.other "#>" "HashArrow")
  | .hashLongArrow => some (.other "#>>" "HashLongArrow")
  | .atArrow => some (.other "@>" "AtArrow")
  | .arrowAt => some (.other "<@" "ArrowAt")
  | .hashMinus => some (.other "#-" "HashMinus")
  | .atQuestion => some (.other "@?" "AtQuestion")
  | .atAt => some (.other "@@" "AtAt")
  | _ => none

/-- The names of an operator that is given by its name. -/
def operatorNames : Nat → Parser (List String)
  | 0 => unexpected
  | n + 1 => do
    let t := (← next?).elim "EOF" Token.text
    if ← symbol .period then return t :: (← operatorNames n) else return [t]

/-- Takes an operator between two terms, if one comes next. -/
def infixOp? : Parser (Option InfixOp) := do
  match ← get with
  | .symbol s :: r =>
    match symbolOp? s with
    | some op => set r; return some op
    | none => return none
  | t :: r =>
    match capitalsOf? t with
    | some "AND" => set r; return some .and
    | some "OR" => set r; return some .or
    | some "XOR" => set r; return some (.other "XOR" "Xor")
    | some "OPERATOR" =>
      set r
      let names ← parenthesized (operatorNames (r.length + 1))
      return some (.other ("OPERATOR(" ++ ".".intercalate names ++ ")")
        ("PGCustomBinaryOperator(" ++ outlineList (names.map Text.quoted) ++ ")"))
    | _ => return none
  | [] => return none

/-- A comparison with any or all of the values that a query or a term gives. -/
def quantified (f : Forms) (power : Nat) (left : Term) (op : InfixOp) (quantifier : String) :
    Parser Term := do
  let right ← match ← get with
    | .symbol .lParen :: r =>
      if beginWith ["SELECT"] r || beginWith ["WITH"] r then f.term power
      else parenthesized (f.term power)
    | _ => unexpected
  unless op.isComparison do unexpected
  let inside := match right with
    | .subquery _ => right.text
    | _ => "(" ++ right.text ++ ")"
  let parts := [("left", left.outline), ("compare_op", op.outline), ("right", right.outline)]
  let shown := left.text ++ " " ++ op.text ++ " " ++ quantifier ++ inside
  if quantifier = "ALL" then return form shown "AllOp" parts
  else return form shown "AnyOp" (parts ++ [("is_some", outlineBool (quantifier = "SOME"))])

/-- What follows the word IS. -/
def isTerm (f : Forms) (t : Term) : Parser Term := do
  let test := fun (words node : String) =>
    Term.other (t.text ++ " IS " ++ words) (node ++ "(" ++ t.outline ++ ")")
  let distinct := fun (words node : String) => do
    let r ← f.expr
    return Term.other (t.text ++ " IS " ++ words ++ " " ++ r.text)
      (node ++ "(" ++ t.outline ++ ", " ++ r.outline ++ ")")
  if ← keyword "NULL" then return .isNull t false
  else if ← keywords ["NOT", "NULL"] then return .isNull t true
  else if ← keyword "TRUE" then return test "TRUE" "IsTrue"
  else if ← keywords ["NOT", "TRUE"] then return test "NOT TRUE" "IsNotTrue"
  else if ← keyword "FALSE" then return test "FALSE" "IsFalse"
  else if ← keywords ["NOT", "FALSE"] then return test "NOT FALSE" "IsNotFalse"
  else if ← keyword "UNKNOWN" then return test "UNKNOWN" "IsUnknown"
  else if ← keywords ["NOT", "UNKNOWN"] then return test "NOT UNKNOWN" "IsNotUnknown"
  else if ← keywords ["DISTINCT", "FROM"] then distinct "DISTINCT FROM" "IsDistinctFrom"
  else if ← keywords ["NOT", "DISTINCT", "FROM"] then distinct "NOT DISTINCT FROM" "IsNotDistinctFrom"
  else unexpected

/-- What follows the word IN. -/
def inTerm (f : Forms) (t : Term) (negated : Bool) : Parser Term := do
  if ← keyword "UNNEST" then
    let a ← parenthesized f.expr
    return form (t.text ++ " " ++ notWord negated ++ "IN UNNEST(" ++ a.text ++ ")") "InUnnest"
      [("expr", t.outline), ("array_expr", a.outline), ("negated", outlineBool negated)]
  parenthesized do
    if ← atQuery then
      let q ← f.query
      return form (t.text ++ " " ++ notWord negated ++ "IN (" ++ q.text ++ ")") "InSubquery"
        [("expr", t.outline), ("subquery", q.outline), ("negated", outlineBool negated)]
    else return .inList t (← f.exprs) negated

/-- The escape character of a pattern. -/
def escapeChar : Parser (Option String) :=
  whenever (keyword "ESCAPE") textConstant

/-- A test with a pattern that the planner has no node for. The word ANY and an escape character are
    parts of some of them. -/
def patternTerm (f : Forms) (t : Term) (negated any escapes : Bool) (words node : String) :
    Parser Term := do
  let some_ ← if any then keyword "ANY" else pure false
  let p ← f.term Power.like
  let esc ← if escapes then escapeChar else pure none
  return form
    (t.text ++ " " ++ notWord negated ++ words ++ " " ++ (if some_ then "ANY " else "") ++ p.text ++
      escapeText esc)
    node
    ([("negated", outlineBool negated)] ++ (if any then [("any", outlineBool some_)] else []) ++
      [("expr", t.outline), ("pattern", p.outline)] ++
      (if escapes then [("escape_char", outlineOption (esc.map Text.quoted))]
       else [("regexp", outlineBool (words = "REGEXP"))]))

/-- A test that may have been negated by the word before it. -/
def predicate (f : Forms) (t : Term) : Parser Term := do
  let negated ← keyword "NOT"
  let regexp ← keyword "REGEXP"
  let rlike ← keyword "RLIKE"
  if regexp || rlike then
    patternTerm f t negated false false (if regexp then "REGEXP" else "RLIKE") "RLike"
  else if ← keyword "IN" then inTerm f t negated
  else if ← keyword "BETWEEN" then
    let low ← f.term Power.comparison
    expectKeyword "AND"
    let high ← f.term Power.comparison
    return .between t low high negated
  else if ← keyword "LIKE" then
    let any ← keyword "ANY"
    let p ← f.term Power.like
    return .like t p negated any (← escapeChar)
  else if ← keyword "ILIKE" then patternTerm f t negated true true "ILIKE" "ILike"
  else if ← keywords ["SIMILAR", "TO"] then patternTerm f t negated false true "SIMILAR TO" "SimilarTo"
  else unexpected

/-- What stands in brackets after a term, the opening one already taken: a place or a range. -/
def subscript (f : Forms) : Parser Shown := do
  if ← symbol .colon then rangeFrom none
  else
    let low ← f.expr
    if ← symbol .rBracket then return Shown.form low.text "Index" [("index", low.outline)]
    expectSymbol .colon
    rangeFrom (some low)
where
  /-- A range from its parts. -/
  range (low high step : Option Term) : Shown :=
    Shown.form
      (clause "" (low.map text) ++ ":" ++ clause "" (high.map text) ++ clause ":" (step.map text)) "Slice"
      [("lower_bound", outlineTerm? low), ("upper_bound", outlineTerm? high),
       ("stride", outlineTerm? step)]
  /-- The rest of a range after its first colon. -/
  rangeFrom (low : Option Term) : Parser Shown := do
    if ← symbol .rBracket then return range low none none
    let high ← f.expr
    if ← symbol .rBracket then return range low (some high) none
    expectSymbol .colon
    if ← symbol .rBracket then return range low (some high) none
    let step ← f.expr
    expectSymbol .rBracket
    return range low (some high) (some step)

/-- An operator that is no symbol between two terms, and what belongs to it. -/
def postfixTerm (f : Forms) (power : Nat) (t : Term) : Parser Term := do
  if ← symbol .doubleColon then return .cast .doubleColon t (← typeName) none
  else if ← symbol .bang then return .sign .factorial t
  else if ← symbol .lBracket then
    let s ← subscript f
    return form (t.text ++ "[" ++ s.text ++ "]") "Subscript"
      [("expr", t.outline), ("subscript", s.outline)]
  else if ← keyword "IS" then isTerm f t
  else if ← keyword "AT" then
    expectKeywords ["TIME", "ZONE"]
    let z ← f.term power
    return form (t.text ++ " AT TIME ZONE " ++ z.text) "AtTimeZone"
      [("timestamp", t.outline), ("time_zone", z.outline)]
  else predicate f t

/-- A term with the operator that comes next and what belongs to it. -/
def operator (f : Forms) (power : Nat) (t : Term) : Parser Term := do
  match ← infixOp? with
  | some op =>
    match ← oneOf ["ANY", "ALL", "SOME"] with
    | some k => quantified f power t op k
    | none => return .binary t op (← f.term power)
  | none => postfixTerm f power t

/-- Takes operators as long as they bind tighter than the power, at most `n` of them. -/
def operators (f : Forms) (power : Nat) : Nat → Term → Parser Term
  | 0, _ => unexpected
  | n + 1, t => do
    let p := nextPower (← get)
    if power < p then operators f power n (← operator f p t) else return t

/-- A term whose operators bind tighter than the power. -/
def term (f : Forms) (power : Nat) : Parser Term := do
  let t ← operand f
  operators f power ((← get).length + 1) t

end StreamSql.Grammar
