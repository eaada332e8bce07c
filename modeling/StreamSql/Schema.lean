/-
  The columns that an expression can name: `PlanSchema` and `PlanField` of the planner, with
  `from_relation`, `join` and `resolve`. A field of a schema remembers the relation it comes from;
  a computed column has none. Names are looked up without regard to the case of letters, and a name
  that fits several fields is ambiguous.
-/
import StreamSql.Error

namespace StreamSql

/-- A column of a relation in a catalog. -/
structure Column where
  name : String
  type : DataType
  nullable : Bool := true
  deriving DecidableEq, Inhabited

/-- A column of a schema. -/
structure Field where
  qualifier : Option String
  name : String
  type : DataType
  deriving DecidableEq, Inhabited

/-- The name of a field with its qualifier. -/
def Field.text (f : Field) : String :=
  match f.qualifier with
  | some q => q ++ "." ++ f.name
  | none => f.name

/-- The field belongs to the relation of this name. -/
def Field.isOf (qualifier : String) (f : Field) : Bool :=
  f.qualifier.any (Text.sameName · qualifier)

/-- The field is what the column names. -/
def Field.answers (c : ColumnRef) (f : Field) : Bool :=
  Text.sameName f.name c.name && c.qualifier.all (f.isOf ·)

/-- The columns of the rows at some point of a plan, in order. -/
structure Schema where
  fields : List Field
  deriving DecidableEq, Inhabited

namespace Schema

/-- The schema without columns. -/
def empty : Schema := ⟨[]⟩

/-- The columns of a relation, all with the same qualifier. -/
def ofRelation (qualifier : String) (columns : List Column) : Schema :=
  ⟨columns.map fun c => ⟨some qualifier, c.name, c.type⟩⟩

/-- The columns of the left side, then those of the right side. -/
def join (left right : Schema) : Schema :=
  ⟨left.fields ++ right.fields⟩

def width (s : Schema) : Nat :=
  s.fields.length

/-- Some column belongs to the relation of this name. -/
def hasQualifier (s : Schema) (qualifier : String) : Bool :=
  s.fields.any (·.isOf qualifier)

/-- The fields that a column may mean, each with its place. -/
def candidates (s : Schema) (c : ColumnRef) : List (Field × Nat) :=
  s.fields.zipIdx.filter fun (f, _) => f.answers c

/-- The field that a column names, with its place. -/
def resolve (s : Schema) (c : ColumnRef) (l : Location) : Except Error (Field × Nat) :=
  match c.qualifier.filter fun q => !s.hasQualifier q with
  | some q => .error (.unknownRelation q l)
  | none =>
    match s.candidates c with
    | [] => .error (.unknownColumn c.text l)
    | [found] => .ok found
    | several => .error (.ambiguousColumn c.text (several.map fun (f, _) => f.text) l)

/-- The columns of a relation with this schema. -/
def toColumns (s : Schema) : List Column :=
  s.fields.map fun f => ⟨f.name, f.type, true⟩

end Schema

end StreamSql
