/-
  What a statement says once its names are resolved against a catalog: the relations it reads, the
  select list with `*` written out and a name for each column, the conditions, and where the result
  goes. Every column is spelled as its relation spells it.

  This is the planner's `Analyzer`: `relation`, `selectList` and `target` are its
  `analyze_relation`, `analyze_select` and `analyze_sink`, and `resolve` is `resolve_columns`.
-/
import StreamSql.Catalog
import StreamSql.Config
import StreamSql.Expr.Traverse

namespace StreamSql

/-- A relation of the catalog that a statement reads. -/
structure Source where
  name : String
  aliasName : Option String
  columns : List Column
  deriving DecidableEq, Inhabited

/-- The name that qualifies the columns of a source. -/
def Source.qualifier (s : Source) : String :=
  s.aliasName.getD s.name

def Source.schema (s : Source) : Schema :=
  .ofRelation s.qualifier s.columns

/-- How the two sources of a statement are joined. -/
structure JoinInfo where
  type : JoinType
  criteria : Expr
  deriving Inhabited

/-- Where the result of a statement goes: into a new relation or into an existing one. -/
inductive Sink where
  | create (kind : SinkKind) (name : String) (properties : List (String × String))
  | insert (name : String)
  deriving Inhabited

/-- A statement with its names resolved: the expressions of the select list, and the names of the
    columns of the result. -/
structure Analysis where
  sources : List Source := []
  input : Schema := .empty
  exprs : List Expr := []
  names : List String := []
  filter : Option Expr := none
  groupBy : List Expr := []
  having : Option Expr := none
  window : Option Window := none
  limit : Option Nat := none
  join : Option JoinInfo := none
  sink : Option Sink := none
  deriving Inhabited

namespace Analysis

/-! ## Columns -/

/-- A column as the schema spells it; a column without a qualifier stays without one. -/
def spell (schema : Schema) (e : Expr) : Except Error (Option Expr) :=
  match e with
  | .column l c => do
    let (f, _) ← schema.resolve c (l.getD .unknown)
    let qualifier := match c.qualifier, f.qualifier with
      | some _, some q => some q
      | written, _ => written
    return some (.column l ⟨qualifier, f.name⟩)
  | _ => return none

/-- An expression with all its columns resolved. -/
def resolve (limit : Nat) (schema : Schema) (e : Expr) : Except Error Expr :=
  e.replace limit (spell schema)

/-! ## Relations -/

def source (catalog : Catalog) (t : TableRef) : Except Error Source :=
  match catalog.lookup t.name with
  | some columns => .ok ⟨t.name, t.aliasName, columns⟩
  | none => .error (.unknownRelation t.name (t.location.getD .unknown))

/-- The sources of a relation, the columns they offer, and how they are joined. -/
def relation (catalog : Catalog) (config : Config) :
    Relation → Except Error (List Source × Schema × Option JoinInfo)
  | .table t => do
    let s ← source catalog t
    return ([s], s.schema, none)
  | .join type left right criteria => do
    let l ← source catalog left
    let r ← source catalog right
    if Text.sameName l.qualifier r.qualifier then
      throw (.planning (.repeatedRelation l.qualifier))
    let input := l.schema.join r.schema
    let criteria ← resolve config.maxDepth input criteria
    return ([l, r], input, some ⟨type, criteria⟩)

/-! ## The select list -/

/-- The name of a column of the result that comes from a field: with its qualifier if two
    relations are joined. -/
def fieldName (joined : Bool) (f : Field) : String :=
  match f.qualifier, joined with
  | some q, true => q ++ "_" ++ f.name
  | _, _ => f.name

/-- A field as `*` writes it out. -/
def expandField (joined : Bool) (f : Field) : Expr × String :=
  if joined then
    let q := f.qualifier.getD ""
    (.qualifiedCol q f.name, q ++ "_" ++ f.name)
  else (.col f.name, f.name)

/-- The columns of the result that come from a select item; `place` is the number of columns
    before. -/
def selectItem (config : Config) (schema : Schema) (joined : Bool) (place : Nat) :
    SelectItem → Except Error (List (Expr × String))
  | .expr e aliasName => do
    let e ← resolve config.maxDepth schema e
    match aliasName, e with
    | some a, _ => return [(e, a)]
    | none, .column l c => do
      let (f, _) ← schema.resolve c (l.getD .unknown)
      return [(e, fieldName joined f)]
    | none, _ => return [(e, config.columnName place)]
  | .all none _ => return schema.fields.map (expandField joined)
  | .all (some q) l => do
    if !schema.hasQualifier q then throw (.unknownRelation q (l.getD .unknown))
    return (schema.fields.filter fun f => Text.sameName q (f.qualifier.getD "")).map
      (expandField joined)

/-- The first name that has come before, without regard to the case of letters. -/
def repeatedName? : List String → List String → Option String
  | _, [] => none
  | seen, n :: ns =>
    let key := Text.upper n
    if key ∈ seen then some n else repeatedName? (key :: seen) ns

/-- The expressions of a select list and the names of its columns, with those of one more item. -/
def addItem (config : Config) (schema : Schema) (joined : Bool) (done : List Expr × List String)
    (item : SelectItem) : Except Error (List Expr × List String) := do
  let columns ← selectItem config schema joined done.1.length item
  return (done.1 ++ columns.map (·.1), done.2 ++ columns.map (·.2))

/-- The expressions of a select list, and the names of the columns of the result. -/
def selectList (config : Config) (schema : Schema) (joined : Bool) (items : List SelectItem) :
    Except Error (List Expr × List String) := do
  let (exprs, names) ← items.foldlM (addItem config schema joined) ([], [])
  match repeatedName? [] names with
  | some n => throw (.planning (.repeatedName n))
  | none => return (exprs, names)

/-! ## The statement -/

/-- Where the result of a statement goes. A relation to create must be new, one to write into must
    be there. -/
def target (catalog : Catalog) : Statement → Except Error (Option Sink)
  | .query _ => return none
  | .create kind name ps _ =>
    if (catalog.lookup name).isSome then .error (.planning (.targetExists kind name))
    else return some (.create kind name ps)
  | .insert name _ =>
    if (catalog.lookup name).isSome then return some (.insert name)
    else .error (.unknownRelation name .unknown)

/-- A statement with its names resolved. -/
def ofStatement (catalog : Catalog) (config : Config) (s : Statement) : Except Error Analysis := do
  let q := s.body
  let (sources, input, join) ← relation catalog config q.source
  let (exprs, names) ← selectList config input join.isSome q.select
  let filter ← q.filter.mapM (resolve config.maxDepth input)
  let groupBy ← q.groupBy.mapM (resolve config.maxDepth input)
  let having ← q.having.mapM (resolve config.maxDepth input)
  let sink ← target catalog s
  return {
    sources, input, exprs, names, filter, groupBy, having, window := q.window, limit := q.limit, join,
    sink }

end Analysis

end StreamSql
