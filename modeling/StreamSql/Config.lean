/-
  Settings of the planner, its `PlannerConfig`: the limit on nesting, the names of generated columns
  (`column_alias`, `aggregate_column_name`), and whether constants are folded. They are read from a
  document by `from_json_str` and checked by `validate`.
-/
import StreamSql.Error
import StreamSql.Json.Parse

namespace StreamSql

/-- The settings of a planner. -/
structure Config where
  maxDepth : Nat := 128
  columnPrefix : String := "KSQL_COL_"
  aggregatePrefix : String := "KSQL_AGG_VARIABLE_"
  foldConstants : Bool := false
  deriving DecidableEq, Inhabited

namespace Config

/-- The name of the select item at a place that has no name of its own. -/
def columnName (c : Config) (index : Nat) : String :=
  c.columnPrefix ++ toString index

/-- The name of the column that holds the result of an aggregate call. -/
def aggregateName (c : Config) (index : Nat) : String :=
  c.aggregatePrefix ++ toString index

/-- Settings that can be used: some depth, and two different names to generate from. -/
def validate (c : Config) : Except Error Config :=
  if c.maxDepth = 0 then .error (.invalidConfig .zeroDepth)
  else if c.columnPrefix = "" ∨ c.aggregatePrefix = "" then .error (.invalidConfig .emptyPrefix)
  else if c.columnPrefix = c.aggregatePrefix then .error (.invalidConfig .equalPrefixes)
  else .ok c

/-- A setting that may be left out. -/
def setting {α : Type} (read : Json → Option α) (default : α) : Option Json → Option α
  | none => some default
  | some j => read j

/-- The settings of a document, not yet validated. -/
def read? (j : Json) : Option Config := do
  match ← j.record? ["max_expression_depth", "column_alias_prefix", "aggregate_column_prefix",
      "fold_constants"] with
  | [depth, column, aggregate, folds] =>
    let c : Config := {}
    return {
      maxDepth := ← setting (Json.nat? 64) c.maxDepth depth
      columnPrefix := ← setting Json.string? c.columnPrefix column
      aggregatePrefix := ← setting Json.string? c.aggregatePrefix aggregate
      foldConstants := ← setting Json.bool? c.foldConstants folds }
  | _ => none

/-- The settings of a document; what it leaves out keeps its default. -/
def ofJson (j : Json) : Except Error Config :=
  match read? j with
  | some c => c.validate
  | none => .error (.invalidConfig .malformed)

/-- The settings that a text holds. -/
def parse (text : String) : Except Error Config :=
  match Json.parse? text with
  | some j => ofJson j
  | none => .error (.invalidConfig .malformed)

def toJson (c : Config) : Json :=
  .object [("max_expression_depth", .ofNat c.maxDepth), ("column_alias_prefix", .string c.columnPrefix),
    ("aggregate_column_prefix", .string c.aggregatePrefix), ("fold_constants", .bool c.foldConstants)]

end Config

end StreamSql
