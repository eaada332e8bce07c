/-
  The relations that a statement may read and write, by name: `MemoryCatalog` of the planner, with
  `register`, `register_def`, `relation_names` and `from_json_str`. Names differ only by more than
  the case of letters; a relation that is registered again takes the place of the one before.
-/
import StreamSql.Json.Parse
import StreamSql.Schema

namespace StreamSql

/-- Relations by their names in small letters. -/
structure Catalog where
  entries : List (String × List Column)
  deriving DecidableEq, Inhabited

/-- A relation as a catalog document describes it: its name, and the name and SQL type of each
    column. -/
structure RelationDef where
  name : String
  columns : List (String × String)
  deriving DecidableEq, Inhabited

namespace RelationDef

/-- A column of a catalog document. -/
def column? (j : Json) : Option (String × String) := do
  match ← j.record? ["name", "type"] with
  | [some n, some t] => return (← n.string?, ← t.string?)
  | _ => none

/-- A relation of a catalog document. -/
def ofJson? (j : Json) : Option RelationDef := do
  match ← j.record? ["name", "columns"] with
  | [some n, some cs] => return ⟨← n.string?, ← cs.list? column?⟩
  | _ => none

/-- The columns that the document describes; all of them may be null. -/
def toColumns (d : RelationDef) : Except Error (List Column) :=
  d.columns.mapM fun (name, type) =>
    match DataType.ofSqlName? type with
    | some t => .ok ⟨name, t, true⟩
    | none => .error (.invalidConfig (.columnType type))

end RelationDef

namespace Catalog

/-- The catalog without relations. -/
def empty : Catalog := ⟨[]⟩

/-- The columns of the relation of this name. -/
def lookup (c : Catalog) (name : String) : Option (List Column) :=
  c.entries.lookup (Text.lower name)

/-- The catalog with a relation of this name, and whether it took the place of another one. -/
def register (c : Catalog) (name : String) (columns : List Column) : Catalog × Bool :=
  let key := Text.lower name
  (⟨(key, columns) :: c.entries.filter fun e => e.1 != key⟩, (c.entries.lookup key).isSome)

/-- The catalog with a relation of this name. -/
def withRelation (c : Catalog) (name : String) (columns : List Column) : Catalog :=
  (c.register name columns).1

/-- The names of the relations in the order of their characters. -/
def names (c : Catalog) : List String :=
  (c.entries.map (·.1)).mergeSort fun a b => decide (a ≤ b)

/-- The catalog with a relation that a document describes. -/
def define (c : Catalog) (d : RelationDef) : Except Error Catalog := do
  return (c.register d.name (← d.toColumns)).1

/-- The catalog of a document. -/
def ofJson (j : Json) : Except Error Catalog :=
  match j.list? RelationDef.ofJson? with
  | some ds => ds.foldlM define empty
  | none => .error (.invalidConfig .malformed)

/-- The catalog that a text holds. -/
def parse (text : String) : Except Error Catalog :=
  match Json.parse? text with
  | some j => ofJson j
  | none => .error (.invalidConfig .malformed)

end Catalog

end StreamSql
