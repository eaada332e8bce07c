/-
  Statements, the planner's `Statement` and `Query`: a query, a query whose result a new stream or
  table takes, and a query whose result is written into an existing one.
-/
import StreamSql.Expr.Basic
import StreamSql.Window

namespace StreamSql

/-- An item of a select list: an expression with an optional name, or all columns, perhaps those of
    one relation only. -/
inductive SelectItem where
  | expr (e : Expr) (aliasName : Option String)
  | all (qualifier : Option String) (location : Option Location)
  deriving Inhabited

/-- A relation that a query reads. -/
structure TableRef where
  name : String
  aliasName : Option String := none
  location : Option Location := none
  deriving DecidableEq, Inhabited

/-- The name that qualifies the columns of the relation. -/
def TableRef.qualifier (t : TableRef) : String :=
  t.aliasName.getD t.name

inductive JoinType where
  | inner
  | left
  | outer
  deriving DecidableEq, Inhabited

/-- The relations a query reads: one, or two that are joined. -/
inductive Relation where
  | table (t : TableRef)
  | join (type : JoinType) (left right : TableRef) (criteria : Expr)
  deriving Inhabited

/-- A query. -/
structure Query where
  select : List SelectItem
  source : Relation
  window : Option Window := none
  filter : Option Expr := none
  groupBy : List Expr := []
  having : Option Expr := none
  limit : Option Nat := none
  deriving Inhabited

/-- What a created relation is. -/
inductive SinkKind where
  | stream
  | table
  deriving DecidableEq, Inhabited

/-- A statement. -/
inductive Statement where
  | query (q : Query)
  | create (kind : SinkKind) (name : String) (properties : List (String × String)) (q : Query)
  | insert (target : String) (q : Query)
  deriving Inhabited

/-- The query of a statement. -/
def Statement.body : Statement → Query
  | .query q => q
  | .create _ _ _ q => q
  | .insert _ q => q

/-- A statement and the text it was read from. -/
structure Prepared where
  text : String
  statement : Statement
  deriving Inhabited

def JoinType.text : JoinType → String
  | .inner => "Inner"
  | .left => "Left"
  | .outer => "Outer"

end StreamSql
