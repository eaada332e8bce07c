/-
  Query text as a tree: the syntax tree of the `sqlparser` library, as it is displayed and debugged. The
  forms that the planner understands have nodes of their own; every
  other form is kept as it is shown, which is all that is ever said about it: by its canonical text
  and by its outline, which names the nodes of the form and which diagnostics of joins show.
-/
import StreamSql.Token.Basic

namespace StreamSql.Grammar

/-! ## Names and constants -/

/-- A name with the quotes it was written in. -/
structure Ident where
  value : String
  quote : Option Char := none
  deriving DecidableEq, Inhabited

/-- Text in quotes with each quote inside it written twice. A quote after a backslash and a quote
    that is doubled already stay as they are. -/
def escape (quote : Char) : Char → List Char → List Char
  | _, [] => []
  | before, c :: r =>
    if c = quote then
      if before = '\\' then c :: escape quote before r
      else match r with
        | d :: r' => if d = quote then c :: c :: escape quote c r' else c :: c :: escape quote c (d :: r')
        | [] => [c, c]
    else c :: escape quote c r

/-- Text between quotes. -/
def inQuotes (quote : Char) (s : String) : String :=
  Token.between quote (String.ofList (escape quote '\x00' s.toList))

def Ident.text (i : Ident) : String :=
  match i.quote with
  | some q => inQuotes q i.value
  | none => i.value

def Ident.outline (i : Ident) : String :=
  let quote := match i.quote with
    | some q => "Some(" ++ Text.quotedLetter q ++ ")"
    | none => "None"
  "Ident \x7b value: " ++ Text.quoted i.value ++ ", quote_style: " ++ quote ++ " \x7d"

/-- Names joined by periods. -/
def pathText (path : List Ident) : String :=
  ".".intercalate (path.map Ident.text)

/-- Names joined by periods, without their quotes. -/
def pathValue (path : List Ident) : String :=
  ".".intercalate (path.map Ident.value)

/-- Items with a comma between them. -/
def commas (items : List String) : String :=
  ", ".intercalate items

/-- The outline of a list. -/
def outlineList (items : List String) : String :=
  "[" ++ commas items ++ "]"

/-- The outline of a value that may be missing. -/
def outlineOption : Option String → String
  | some s => "Some(" ++ s ++ ")"
  | none => "None"

def outlineBool (b : Bool) : String :=
  if b then "true" else "false"

/-- The outline of names joined by periods. -/
def outlinePath (path : List Ident) : String :=
  "ObjectName(" ++ outlineList (path.map Ident.outline) ++ ")"

/-- The parts of a node with their names. -/
def outlineParts (parts : List (String × String)) : String :=
  commas (parts.map fun (k, v) => k ++ ": " ++ v)

/-- The outline of a node with named parts. -/
def outlineNode (name : String) (parts : List (String × String)) : String :=
  name ++ " \x7b " ++ outlineParts parts ++ " \x7d"

/-- A form that is only ever shown. -/
structure Shown where
  text : String
  outline : String
  deriving DecidableEq, Inhabited

/-- The outlines of a list of forms. -/
def outlineShown (items : List Shown) : String :=
  outlineList (items.map Shown.outline)

/-- A form that is a node with named parts. -/
def Shown.form (text name : String) (parts : List (String × String)) : Shown :=
  ⟨text, outlineNode name parts⟩

/-- A constant. Those that the planner has no use for are kept by their text. -/
inductive Value where
  | number (digits : String) (long : Bool)
  | string (value : String)
  | boolean (value : Bool)
  | null
  | other (text outline : String)
  deriving DecidableEq, Inhabited

def Value.text : Value → String
  | .number d long => if long then d ++ "L" else d
  | .string s => inQuotes '\x27' s
  | .boolean b => outlineBool b
  | .null => "NULL"
  | .other t _ => t

def Value.outline : Value → String
  | .number d long => "Number(" ++ Text.quoted d ++ ", " ++ outlineBool long ++ ")"
  | .string s => "SingleQuotedString(" ++ Text.quoted s ++ ")"
  | .boolean b => "Boolean(" ++ outlineBool b ++ ")"
  | .null => "Null"
  | .other _ o => o

/-- The name of a type, as text and as an outline. `custom` names are those that are no type of the
    language itself. -/
structure TypeName where
  text : String
  outline : String
  custom : Bool := false
  interval : Bool := false
  deriving DecidableEq, Inhabited

/-! ## Operators -/

/-- An operator with one operand. The factorial sign stands after it. -/
inductive SignOp where
  | minus
  | plus
  | not
  | factorial
  deriving DecidableEq, Inhabited

def SignOp.text : SignOp → String
  | .minus => "-"
  | .plus => "+"
  | .not => "NOT"
  | .factorial => "!"

def SignOp.outline : SignOp → String
  | .minus => "Minus"
  | .plus => "Plus"
  | .not => "Not"
  | .factorial => "PGPostfixFactorial"

/-- An operator between two operands. -/
inductive InfixOp where
  | plus
  | minus
  | multiply
  | divide
  | modulo
  | concat
  | gt
  | lt
  | ge
  | le
  | eq
  | ne
  | and
  | or
  | other (text outline : String)
  deriving DecidableEq, Inhabited

def InfixOp.text : InfixOp → String
  | .plus => "+"
  | .minus => "-"
  | .multiply => "*"
  | .divide => "/"
  | .modulo => "%"
  | .concat => "||"
  | .gt => ">"
  | .lt => "<"
  | .ge => ">="
  | .le => "<="
  | .eq => "="
  | .ne => "<>"
  | .and => "AND"
  | .or => "OR"
  | .other t _ => t

def InfixOp.outline : InfixOp → String
  | .plus => "Plus"
  | .minus => "Minus"
  | .multiply => "Multiply"
  | .divide => "Divide"
  | .modulo => "Modulo"
  | .concat => "StringConcat"
  | .gt => "Gt"
  | .lt => "Lt"
  | .ge => "GtEq"
  | .le => "LtEq"
  | .eq => "Eq"
  | .ne => "NotEq"
  | .and => "And"
  | .or => "Or"
  | .other _ o => o

/-- The operator tests an order. -/
def InfixOp.isComparison : InfixOp → Bool
  | .gt | .lt | .ge | .le | .eq | .ne => true
  | _ => false

/-! ## Terms -/

/-- How a cast was written. -/
inductive CastForm where
  | cast
  | tryCast
  | safeCast
  | doubleColon
  deriving DecidableEq, Inhabited

/-- A clause that follows the arguments of a call inside its parentheses: the order in which the
    arguments are taken, or any other one. -/
inductive CallClause where
  | order (keys : List Shown)
  | other (shown : Shown)
  deriving DecidableEq, Inhabited

def CallClause.shown : CallClause → Shown
  | .order ks => ⟨"ORDER BY " ++ commas (ks.map Shown.text), "OrderBy(" ++ outlineShown ks ++ ")"⟩
  | .other s => s

/-- The parts of a call besides its name and arguments. `subquery` is the query that is the only
    argument, `parameters` the first of two lists of arguments, `clauses` what follows the
    arguments inside the parentheses, and the rest follows the parentheses. -/
structure CallForm where
  duplicates : Option Bool := none
  bare : Bool := false
  subquery : Option Shown := none
  parameters : Option Shown := none
  clauses : List CallClause := []
  group : List Shown := []
  nulls : Option Shown := none
  window : Option Shown := none
  deriving DecidableEq, Inhabited

/-- A term of query text. `star` and `argument` stand only among the arguments of a call: all
    columns, and an argument that is not given by its position alone. -/
inductive Term where
  | name (id : Ident)
  | path (ids : List Ident)
  | value (v : Value)
  | nested (t : Term)
  | sign (op : SignOp) (t : Term)
  | binary (left : Term) (op : InfixOp) (right : Term)
  | call (fn : List Ident) (args : List Term) (form : CallForm)
  | case (operand : Option Term) (branches : List (Term × Term)) (otherwise : Option Term)
  | cast (form : CastForm) (t : Term) (type : TypeName) (format : Option Shown)
  | isNull (t : Term) (negated : Bool)
  | between (t low high : Term) (negated : Bool)
  | like (t pattern : Term) (negated any : Bool) (escape : Option String)
  | inList (t : Term) (list : List Term) (negated : Bool)
  | star
  | argument (text outline : String)
  | subquery (query : Shown)
  | other (text outline : String)
  deriving Inhabited

namespace Term

/-- The word that negates a predicate, with a blank after it. -/
def notWord (negated : Bool) : String :=
  if negated then "NOT " else ""

/-- The end of a LIKE with an escape character. -/
def escapeText : Option String → String
  | some c => " ESCAPE '" ++ c ++ "'"
  | none => ""

def castText (form : CastForm) (t type : String) (format : Option Shown) : String :=
  let inside := t ++ " AS " ++ type ++ (match format with
    | some f => " FORMAT " ++ f.text
    | none => "")
  match form with
  | .cast => "CAST(" ++ inside ++ ")"
  | .tryCast => "TRY_CAST(" ++ inside ++ ")"
  | .safeCast => "SAFE_CAST(" ++ inside ++ ")"
  | .doubleColon => t ++ "::" ++ type

def CastForm.outline : CastForm → String
  | .cast => "Cast"
  | .tryCast => "TryCast"
  | .safeCast => "SafeCast"
  | .doubleColon => "DoubleColon"

/-- The word for the treatment of duplicates among arguments. -/
def duplicatesText : Option Bool → String
  | some true => "DISTINCT "
  | some false => "ALL "
  | none => ""

/-- A list of arguments from their texts. -/
def listText (duplicates : Option Bool) (args : List String) (clauses : List CallClause) : String :=
  let gap := if args.isEmpty || clauses.isEmpty then "" else " "
  "(" ++ duplicatesText duplicates ++ commas args ++ gap ++
    " ".intercalate (clauses.map (·.shown.text)) ++ ")"

/-- A list of arguments from their outlines. -/
def listOutline (duplicates : Option Bool) (args : List String) (clauses : List CallClause) :
    String :=
  "List(" ++ outlineNode "FunctionArgumentList"
    [("duplicate_treatment", outlineOption (duplicates.map fun d => if d then "Distinct" else "All")),
     ("args", outlineList args), ("clauses", outlineShown (clauses.map CallClause.shown))] ++ ")"

/-- A call from the texts of its arguments. -/
def callText (fn : List Ident) (args : List String) (f : CallForm) : String :=
  let list := match f.subquery with
    | some q => "(" ++ q.text ++ ")"
    | none => if f.bare then "" else listText f.duplicates args f.clauses
  let after := fun (lead : String) (s : Option Shown) => s.elim "" fun s => lead ++ s.text
  let group :=
    if f.group.isEmpty then ""
    else " WITHIN GROUP (ORDER BY " ++ commas (f.group.map Shown.text) ++ ")"
  pathText fn ++ after "" f.parameters ++ list ++ group ++ after " " f.nulls ++ after " OVER " f.window

/-- A call from the outlines of its arguments. -/
def callOutline (fn : List Ident) (args : List String) (f : CallForm) : String :=
  let list :=
    if f.bare then "None"
    else match f.subquery with
      | some q => "Subquery(" ++ q.outline ++ ")"
      | none => listOutline f.duplicates args f.clauses
  "Function(" ++ outlineNode "Function"
    [("name", outlinePath fn), ("parameters", f.parameters.elim "None" Shown.outline), ("args", list),
     ("filter", "None"), ("null_treatment", outlineOption (f.nulls.map Shown.outline)),
     ("over", outlineOption (f.window.map Shown.outline)), ("within_group", outlineShown f.group)] ++ ")"

mutual

/-- The canonical text of a term. -/
def text : Term → String
  | name i => i.text
  | path is => pathText is
  | value v => v.text
  | nested t => "(" ++ text t ++ ")"
  | sign op t =>
    match op with
    | .factorial => text t ++ op.text
    | .not => op.text ++ " " ++ text t
    | _ => op.text ++ text t
  | binary l op r => text l ++ " " ++ op.text ++ " " ++ text r
  | call fn as f => callText fn (texts as) f
  | case o bs e => "CASE" ++ optionText " " o ++ branchesText bs ++ optionText " ELSE " e ++ " END"
  | cast f t ty fmt => castText f (text t) ty.text fmt
  | isNull t n => text t ++ " IS " ++ notWord n ++ "NULL"
  | between t lo hi n => text t ++ " " ++ notWord n ++ "BETWEEN " ++ text lo ++ " AND " ++ text hi
  | like t p n any esc =>
    text t ++ " " ++ notWord n ++ "LIKE " ++ (if any then "ANY " else "") ++ text p ++ escapeText esc
  | inList t ts n => text t ++ " " ++ notWord n ++ "IN (" ++ commas (texts ts) ++ ")"
  | star => "*"
  | argument s _ => s
  | subquery q => "(" ++ q.text ++ ")"
  | other s _ => s

/-- The canonical texts of a list of terms. -/
def texts : List Term → List String
  | [] => []
  | t :: ts => text t :: texts ts

def branchesText : List (Term × Term) → String
  | [] => ""
  | (w, t) :: bs => " WHEN " ++ text w ++ " THEN " ++ text t ++ branchesText bs

/-- A part of a case that may be missing, with the word that leads it in. -/
def optionText (lead : String) : Option Term → String
  | none => ""
  | some t => lead ++ text t

end

mutual

/-- A term by the names of its nodes. -/
def outline : Term → String
  | name i => "Identifier(" ++ i.outline ++ ")"
  | path is => "CompoundIdentifier(" ++ outlineList (is.map Ident.outline) ++ ")"
  | value v => "Value(" ++ v.outline ++ ")"
  | nested t => "Nested(" ++ outline t ++ ")"
  | sign op t => outlineNode "UnaryOp" [("op", op.outline), ("expr", outline t)]
  | binary l op r =>
    outlineNode "BinaryOp" [("left", outline l), ("op", op.outline), ("right", outline r)]
  | call fn as f => callOutline fn (outlineArgs as) f
  | case o bs e =>
    outlineNode "Case"
      [("operand", outlineOptional o), ("conditions", outlineList (outlineWhens bs)),
       ("results", outlineList (outlineThens bs)), ("else_result", outlineOptional e)]
  | cast f t ty fmt =>
    outlineNode "Cast"
      [("kind", CastForm.outline f), ("expr", outline t), ("data_type", ty.outline),
       ("format", outlineOption (fmt.map Shown.outline))]
  | isNull t n => (if n then "IsNotNull(" else "IsNull(") ++ outline t ++ ")"
  | between t lo hi n =>
    outlineNode "Between"
      [("expr", outline t), ("negated", outlineBool n), ("low", outline lo), ("high", outline hi)]
  | like t p n any esc =>
    outlineNode "Like"
      [("negated", outlineBool n), ("any", outlineBool any), ("expr", outline t), ("pattern", outline p),
       ("escape_char", outlineOption (esc.map Text.quoted))]
  | inList t ts n =>
    outlineNode "InList"
      [("expr", outline t), ("list", outlineList (outlines ts)), ("negated", outlineBool n)]
  | star => "Wildcard"
  | argument _ o => o
  | subquery q => "Subquery(" ++ q.outline ++ ")"
  | other _ o => o

def outlines : List Term → List String
  | [] => []
  | t :: ts => outline t :: outlines ts

/-- The arguments of a call. -/
def outlineArgs : List Term → List String
  | [] => []
  | star :: ts => "Unnamed(Wildcard)" :: outlineArgs ts
  | argument _ o :: ts => o :: outlineArgs ts
  | t :: ts => ("Unnamed(Expr(" ++ outline t ++ "))") :: outlineArgs ts

def outlineWhens : List (Term × Term) → List String
  | [] => []
  | (w, _) :: bs => outline w :: outlineWhens bs

def outlineThens : List (Term × Term) → List String
  | [] => []
  | (_, t) :: bs => outline t :: outlineThens bs

def outlineOptional : Option Term → String
  | none => "None"
  | some t => "Some(" ++ outline t ++ ")"

end

/-- A form that is a node with named parts. -/
def form (text name : String) (parts : List (String × String)) : Term :=
  other text (outlineNode name parts)

/-- A term as it is shown. -/
def shown (t : Term) : Shown :=
  ⟨text t, outline t⟩

end Term

/-! ## Relations -/

/-- A name for a relation, perhaps with names for its columns. -/
structure Alias where
  name : Ident
  columns : List Ident := []
  deriving DecidableEq, Inhabited

def Alias.text (a : Alias) : String :=
  if a.columns.isEmpty then a.name.text
  else a.name.text ++ " (" ++ commas (a.columns.map Ident.text) ++ ")"

def Alias.outline (a : Alias) : String :=
  outlineNode "TableAlias"
    [("name", a.name.outline), ("columns", outlineList (a.columns.map Ident.outline))]

/-- What may follow the name of a relation. -/
structure TableOptions where
  partitions : List Ident := []
  args : Option Shown := none
  ordinality : Bool := false
  hints : List Shown := []
  deriving DecidableEq, Inhabited

/-- What stands for a relation, without its alias: a name with what follows it, or any other form by
    what is shown before and after the alias. -/
inductive FactorForm where
  | table (name : List Ident) (options : TableOptions)
  | other (head tail : Shown) (nested : Bool)
  deriving DecidableEq, Inhabited

/-- A clause that may be missing, after the words that lead it in. -/
def clause (lead : String) : Option String → String
  | some s => lead ++ s
  | none => ""

/-- A clause with a list that is missing if the list is empty. -/
def listClause (lead : String) (items : List String) : String :=
  if items.isEmpty then "" else lead ++ commas items

/-- What is shown of a node before its alias. -/
def headOf (text name : String) (parts : List (String × String)) : Shown :=
  ⟨text, name ++ " \x7b " ++ String.join (parts.map fun (k, v) => k ++ ": " ++ v ++ ", ")⟩

/-- What is shown of a node after its alias. -/
def tailOf (text : String) (parts : List (String × String)) : Shown :=
  ⟨text, String.join (parts.map fun (k, v) => ", " ++ k ++ ": " ++ v) ++ " \x7d"⟩

/-- What is shown before the alias. -/
def FactorForm.head : FactorForm → Shown
  | .table name o =>
    headOf (pathText name ++ listClause "PARTITION (" (o.partitions.map Ident.text) ++
      (if o.partitions.isEmpty then "" else ")") ++ clause "" (o.args.map Shown.text) ++
      (if o.ordinality then " WITH ORDINALITY" else "")) "Table" [("name", outlinePath name)]
  | .other head _ _ => head

/-- What is shown after the alias. -/
def FactorForm.tail : FactorForm → Shown
  | .table _ o =>
    tailOf (if o.hints.isEmpty then "" else " WITH (" ++ commas (o.hints.map Shown.text) ++ ")")
      [("args", outlineOption (o.args.map Shown.outline)), ("with_hints", outlineShown o.hints),
       ("version", "None"), ("with_ordinality", outlineBool o.ordinality),
       ("partitions", outlineList (o.partitions.map Ident.outline))]
  | .other _ tail _ => tail

/-- A relation and its alias. -/
structure Factor where
  form : FactorForm
  aliasName : Option Alias := none
  deriving DecidableEq, Inhabited

/-- The name of a relation that has a plain one. -/
def Factor.table (f : Factor) : Option (List Ident) :=
  match f.form with
  | .table name _ => some name
  | .other _ _ _ => none

/-- The relation is a join in parentheses. -/
def Factor.nested (f : Factor) : Bool :=
  match f.form with
  | .table _ _ => false
  | .other _ _ nested => nested

/-- A relation that is a node with named parts before and after its alias. -/
def Factor.ofNode (text name : String) (before : List (String × String)) (aliasName : Option Alias)
    (tail : Shown := tailOf "" []) : Factor :=
  ⟨.other (headOf text name before) tail false, aliasName⟩

def Factor.text (f : Factor) : String :=
  f.form.head.text ++ (match f.aliasName with
    | some a => " AS " ++ a.text
    | none => "") ++ f.form.tail.text

def Factor.outline (f : Factor) : String :=
  f.form.head.outline ++ "alias: " ++ outlineOption (f.aliasName.map Alias.outline) ++
    f.form.tail.outline

/-- What two joined relations have to satisfy. -/
inductive Constraint where
  | on (t : Term)
  | using (columns : List Ident)
  | natural
  | none
  deriving Inhabited

def Constraint.lead : Constraint → String
  | .natural => "NATURAL "
  | _ => ""

def Constraint.text : Constraint → String
  | .on t => " ON " ++ t.text
  | .using cs => " USING(" ++ commas (cs.map Ident.text) ++ ")"
  | _ => ""

def Constraint.outline : Constraint → String
  | .on t => "On(" ++ t.outline ++ ")"
  | .using cs => "Using(" ++ outlineList (cs.map Ident.outline) ++ ")"
  | .natural => "Natural"
  | .none => "None"

inductive JoinKind where
  | inner
  | left
  | right
  | full
  | leftSemi
  | rightSemi
  | leftAnti
  | rightAnti
  | cross
  | crossApply
  | outerApply
  | asOf (condition : Term)
  deriving Inhabited

/-- A relation that is joined to those before it. -/
structure Join where
  kind : JoinKind
  constraint : Constraint
  factor : Factor
  global : Bool
  deriving Inhabited

/-- The words of a join. -/
def JoinKind.words : JoinKind → String
  | .inner => "JOIN"
  | .left => "LEFT JOIN"
  | .right => "RIGHT JOIN"
  | .full => "FULL JOIN"
  | .leftSemi => "LEFT SEMI JOIN"
  | .rightSemi => "RIGHT SEMI JOIN"
  | .leftAnti => "LEFT ANTI JOIN"
  | .rightAnti => "RIGHT ANTI JOIN"
  | .cross => "CROSS JOIN"
  | .crossApply => "CROSS APPLY"
  | .outerApply => "OUTER APPLY"
  | .asOf _ => "ASOF JOIN"

def Join.text (j : Join) : String :=
  let condition := match j.kind with
    | .asOf c => " MATCH_CONDITION (" ++ c.text ++ ")"
    | _ => ""
  (if j.global then " GLOBAL " else " ") ++ j.constraint.lead ++ j.kind.words ++ " " ++ j.factor.text ++
    condition ++ j.constraint.text

/-- The operator of a join by the names of its nodes. -/
def Join.outline (j : Join) : String :=
  let with_ := fun name => name ++ "(" ++ j.constraint.outline ++ ")"
  match j.kind with
  | .inner => with_ "Inner"
  | .left => with_ "LeftOuter"
  | .right => with_ "RightOuter"
  | .full => with_ "FullOuter"
  | .leftSemi => with_ "LeftSemi"
  | .rightSemi => with_ "RightSemi"
  | .leftAnti => with_ "LeftAnti"
  | .rightAnti => with_ "RightAnti"
  | .cross => "CrossJoin"
  | .crossApply => "CrossApply"
  | .outerApply => "OuterApply"
  | .asOf c =>
    outlineNode "AsOf" [("match_condition", c.outline), ("constraint", j.constraint.outline)]

/-- A relation with those that are joined to it. -/
structure Joined where
  factor : Factor
  joins : List Join
  deriving Inhabited

def Joined.text (s : Joined) : String :=
  s.factor.text ++ String.join (s.joins.map Join.text)

def Joined.outline (s : Joined) : String :=
  let join := fun (j : Join) =>
    outlineNode "Join"
      [("relation", j.factor.outline), ("global", outlineBool j.global), ("join_operator", j.outline)]
  outlineNode "TableWithJoins"
    [("relation", s.factor.outline), ("joins", outlineList (s.joins.map join))]

/-! ## Queries -/

/-- A clause that may be missing, after a blank. -/
def shownClause (s : Option Shown) : String :=
  clause " " (s.map Shown.text)

/-- The outline of a form that may be missing. -/
def outlineShown? (s : Option Shown) : String :=
  outlineOption (s.map Shown.outline)

/-- What may follow a star: which columns it stands for, and what becomes of them. -/
structure StarOptions where
  ilike : Option Shown := none
  exclude : Option Shown := none
  except : Option Shown := none
  replace : Option Shown := none
  rename : Option Shown := none
  deriving DecidableEq, Inhabited

def StarOptions.text (o : StarOptions) : String :=
  String.join ([o.ilike, o.exclude, o.except, o.replace, o.rename].map shownClause)

def StarOptions.outline (o : StarOptions) : String :=
  outlineNode "WildcardAdditionalOptions"
    [("opt_ilike", outlineShown? o.ilike), ("opt_exclude", outlineShown? o.exclude),
     ("opt_except", outlineShown? o.except), ("opt_replace", outlineShown? o.replace),
     ("opt_rename", outlineShown? o.rename)]

/-- An item of a select list. -/
inductive Item where
  | expr (t : Term) (aliasName : Option Ident)
  | all (options : StarOptions)
  | allOf (path : List Ident) (options : StarOptions)
  deriving Inhabited

def Item.text : Item → String
  | .expr t none => t.text
  | .expr t (some a) => t.text ++ " AS " ++ a.text
  | .all o => "*" ++ o.text
  | .allOf p o => pathText p ++ ".*" ++ o.text

def Item.outline : Item → String
  | .expr t none => "UnnamedExpr(" ++ t.outline ++ ")"
  | .expr t (some a) => outlineNode "ExprWithAlias" [("expr", t.outline), ("alias", a.outline)]
  | .all o => "Wildcard(" ++ o.outline ++ ")"
  | .allOf p o => "QualifiedWildcard(" ++ outlinePath p ++ ", " ++ o.outline ++ ")"

/-- What rows are grouped by. -/
inductive Grouping where
  | all (modifiers : List Shown)
  | keys (terms : List Term) (modifiers : List Shown)
  deriving Inhabited

def Grouping.text : Grouping → String
  | .all ms => String.join (" GROUP BY ALL" :: ms.map (" " ++ ·.text))
  | .keys [] _ => ""
  | .keys ts ms => String.join ((" GROUP BY " ++ commas (ts.map Term.text)) :: ms.map (" " ++ ·.text))

/-- The outlines of a list of terms. -/
def outlineTerms (ts : List Term) : String :=
  outlineList (ts.map Term.outline)

/-- The outline of a term that may be missing. -/
def outlineTerm? (t : Option Term) : String :=
  outlineOption (t.map Term.outline)

def Grouping.outline : Grouping → String
  | .all ms => "All(" ++ outlineShown ms ++ ")"
  | .keys ts ms => "Expressions(" ++ outlineTerms ts ++ ", " ++ outlineShown ms ++ ")"

/-- A select with all its clauses. -/
structure Select where
  distinct : Option Shown := none
  top : Option Shown := none
  items : List Item
  into : Option Shown := none
  sources : List Joined := []
  lateralViews : List Shown := []
  prewhere : Option Term := none
  filter : Option Term := none
  grouping : Grouping := .keys [] []
  clusterBy : List Term := []
  distributeBy : List Term := []
  sortBy : List Term := []
  having : Option Term := none
  windows : List Shown := []
  qualify : Option Term := none
  windowsFirst : Bool := false
  connectBy : Option Shown := none
  deriving Inhabited

def Select.text (s : Select) : String :=
  let windows := listClause " WINDOW " (s.windows.map Shown.text)
  let qualify := clause " QUALIFY " (s.qualify.map Term.text)
  "SELECT" ++ shownClause s.distinct ++ shownClause s.top ++ " " ++ commas (s.items.map Item.text) ++
    shownClause s.into ++ listClause " FROM " (s.sources.map Joined.text) ++
    String.join (s.lateralViews.map Shown.text) ++
    clause " PREWHERE " (s.prewhere.map Term.text) ++ clause " WHERE " (s.filter.map Term.text) ++
    s.grouping.text ++ listClause " CLUSTER BY " (s.clusterBy.map Term.text) ++
    listClause " DISTRIBUTE BY " (s.distributeBy.map Term.text) ++
    listClause " SORT BY " (s.sortBy.map Term.text) ++ clause " HAVING " (s.having.map Term.text) ++
    (if s.windowsFirst then windows ++ qualify else qualify ++ windows) ++ shownClause s.connectBy

def Select.outline (s : Select) : String :=
  outlineNode "Select"
    [("distinct", outlineShown? s.distinct), ("top", outlineShown? s.top),
     ("top_before_distinct", "false"), ("projection", outlineList (s.items.map Item.outline)),
     ("into", outlineShown? s.into), ("from", outlineList (s.sources.map Joined.outline)),
     ("lateral_views", outlineShown s.lateralViews), ("prewhere", outlineTerm? s.prewhere),
     ("selection", outlineTerm? s.filter), ("group_by", s.grouping.outline),
     ("cluster_by", outlineTerms s.clusterBy), ("distribute_by", outlineTerms s.distributeBy),
     ("sort_by", outlineTerms s.sortBy), ("having", outlineTerm? s.having),
     ("named_window", outlineShown s.windows), ("qualify", outlineTerm? s.qualify),
     ("window_before_qualify", outlineBool s.windowsFirst), ("value_table_mode", "None"),
     ("connect_by", outlineShown? s.connectBy)]

/-- What a query selects from: one select, or any other body. -/
inductive Body where
  | select (s : Select)
  | other (shown : Shown)
  deriving Inhabited

def Body.text : Body → String
  | .select s => s.text
  | .other s => s.text

def Body.outline : Body → String
  | .select s => "Select(" ++ s.outline ++ ")"
  | .other s => s.outline

/-- A query with all its clauses. -/
structure Query where
  ctes : Option Shown := none
  body : Body
  orderBy : List Shown := []
  interpolate : Option Shown := none
  limit : Option Term := none
  offset : Option Shown := none
  limitBy : List Term := []
  settings : List Shown := []
  fetch : Option Shown := none
  locks : List Shown := []
  forClause : Option Shown := none
  format : Option Shown := none
  deriving Inhabited

def Query.text (q : Query) : String :=
  (match q.ctes with
    | some c => c.text ++ " "
    | none => "") ++ q.body.text ++ listClause " ORDER BY " (q.orderBy.map Shown.text) ++
    shownClause q.interpolate ++ clause " LIMIT " (q.limit.map Term.text) ++ shownClause q.offset ++
    listClause " BY " (q.limitBy.map Term.text) ++
    listClause " SETTINGS " (q.settings.map Shown.text) ++ shownClause q.fetch ++
    String.join (q.locks.map (" " ++ ·.text)) ++ shownClause q.forClause ++ shownClause q.format

def Query.outline (q : Query) : String :=
  let order :=
    if q.orderBy.isEmpty then "None"
    else "Some(" ++ outlineNode "OrderBy"
      [("exprs", outlineShown q.orderBy), ("interpolate", outlineShown? q.interpolate)] ++ ")"
  let settings := if q.settings.isEmpty then "None" else "Some(" ++ outlineShown q.settings ++ ")"
  outlineNode "Query"
    [("with", outlineShown? q.ctes), ("body", q.body.outline), ("order_by", order),
     ("limit", outlineTerm? q.limit), ("limit_by", outlineTerms q.limitBy),
     ("offset", outlineShown? q.offset), ("fetch", outlineShown? q.fetch),
     ("locks", outlineShown q.locks), ("for_clause", outlineShown? q.forClause),
     ("settings", settings), ("format_clause", outlineShown? q.format)]

/-- A query as it is shown. -/
def Query.shown (q : Query) : Shown :=
  ⟨q.text, q.outline⟩

/-- A statement: a query, or any other one by its canonical text. -/
inductive Sentence where
  | query (q : Query)
  | other (text : String)
  deriving Inhabited

def Sentence.text : Sentence → String
  | .query q => q.text
  | .other t => t

end StreamSql.Grammar
