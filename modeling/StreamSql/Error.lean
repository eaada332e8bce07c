/-
  Errors as causes: the `RillError` of all stages. Each cause keeps what it is about (the
  expression, the types, the token that was found) and `Error.message` is the only place where it is
  put into words. A cause named `other` holds words that come from outside the library.

  `Error.inStatement` (`in_statement`) ties an error to the text of its statement, once: an error that
  already has a statement keeps it.
-/
import StreamSql.Expr.Text
import StreamSql.Statement
import StreamSql.Token.Scan

namespace StreamSql

/-- Why a script is not a list of statements. `grammar` stands for every fault of the query text
    itself; the library has no wording for it. -/
inductive ParseFault where
  | scan (e : ScanError)
  | grammar
  | noStatement
  | statementCount (found : Nat)
  | missingAs (name : String)
  | missingInto
  | missingTarget
  | propertiesStart
  | propertyName
  | propertyEquals (key : String)
  | propertyValue (key : String) (found : Option Token)
  | propertySeparator
  | windowSymbol (expected : Symbol) (found : Option Token)
  | windowWord (expected : String) (found : Option Token)
  | durationAmount (digits : String)
  | missingDuration (found : Option Token)
  | missingUnit
  | unknownUnit (unit : String)
  | durationRange
  | durationZero
  | advanceExceedsSize
  | secondWindow
  | badNumber (digits : String)
  | other (text : String)
  deriving Inhabited

namespace ParseFault

def text : ParseFault → String
  | .scan e => e.message
  | .grammar => "the query text does not follow the grammar"
  | .noStatement => "no SQL statement found"
  | .statementCount n => "expected exactly one query in statement, found " ++ toString n
  | .missingAs name => "expected AS after CREATE STREAM " ++ name
  | .missingInto => "expected INTO after INSERT"
  | .missingTarget => "expected target name after INSERT INTO"
  | .propertiesStart => "expected '(' after WITH"
  | .propertyName => "expected property name in WITH (...)"
  | .propertyEquals key => "expected '=' after property " ++ key
  | .propertyValue key found =>
    "unsupported value for property " ++ key ++ ": " ++ Token.describe? found
  | .propertySeparator => "expected ',' or ')' in WITH (...)"
  | .windowSymbol s found =>
    "expected '" ++ s.text ++ "' in WINDOW clause, found " ++ Token.describe? found
  | .windowWord w found => "expected " ++ w ++ " in WINDOW clause, found " ++ Token.describe? found
  | .durationAmount digits => "bad window duration: " ++ digits
  | .missingDuration found => "expected window duration, found " ++ Token.describe? found
  | .missingUnit => "expected time unit in WINDOW clause"
  | .unknownUnit unit => "unknown time unit: " ++ unit
  | .durationRange => "window duration out of range"
  | .durationZero => "window duration must be > 0"
  | .advanceExceedsSize => "HOPPING window ADVANCE BY must not exceed SIZE"
  | .secondWindow => "only one WINDOW clause is allowed"
  | .badNumber digits => "bad number: " ++ digits
  | .other s => s

end ParseFault

/-- Why a statement cannot be planned. -/
inductive PlanningFault where
  | predicateType (clause : String) (found : DataType) (e : Expr)
  | operandTypes (op : ArithOp) (left right : DataType)
  | unaryType (op : UnaryOp) (found : DataType)
  | notBoolean (place : String) (found : DataType)
  | notComparable (left right : DataType)
  | caseTypes (left right : DataType)
  | notString (side : String) (found : DataType)
  | strayWildcard
  | wildcardArgument (function : String)
  | argumentCount (function : String) (least : Nat) (most : Option Nat) (found : Nat)
  | stringArgument (function : String) (found : DataType)
  | numericArgument (function : String) (found : DataType)
  | nullIfArguments (found : Nat)
  | limitRange (digits : String)
  | limitForm (text : String)
  | repeatedRelation (qualifier : String)
  | repeatedName (name : String)
  | targetExists (kind : SinkKind) (name : String)
  | sourceCount (found : Nat)
  | aggregateInFilter (e : Expr)
  | aggregateInGroupBy (e : Expr)
  | havingWithoutGroups
  | windowWithoutGroups (w : Window)
  | joinKeyTypes (leftKey : Expr) (left : DataType) (rightKey : Expr) (right : DataType)
  | selectWidth (exprs names : Nat)
  | insertWidth (produced : Nat) (target : String) (expected : Nat)
  | insertType (column : String) (produced expected : DataType)
  | noAggregateColumn (call : Expr)
  | other (text : String)
  deriving Inhabited

/-- The word for a kind of sink. -/
def SinkKind.text : SinkKind → String
  | .stream => "stream"
  | .table => "table"

namespace PlanningFault

/-- How many arguments a function takes, in words. -/
def arity (least : Nat) : Option Nat → String
  | some most => if most = least then toString most else toString least ++ ".." ++ toString most
  | none => "at least " ++ toString least

def text : PlanningFault → String
  | .predicateType clause t e =>
    clause ++ " predicate must be boolean, got " ++ t.text ++ ": " ++ e.text
  | .operandTypes op l r =>
    "arithmetic '" ++ op.symbol ++ "' requires numeric operands, got " ++ l.text ++ " and " ++ r.text
  | .unaryType op t => "unary " ++ op.symbol ++ " requires a numeric operand, got " ++ t.text
  | .notBoolean place t => place ++ " requires boolean operands, got " ++ t.text
  | .notComparable l r => "cannot compare types " ++ l.text ++ " and " ++ r.text
  | .caseTypes l r => "CASE branch type mismatch: cannot unify " ++ l.text ++ " and " ++ r.text
  | .notString side t => "LIKE " ++ side ++ " must be a string, got " ++ t.text
  | .strayWildcard => "'*' is only valid as a function argument"
  | .wildcardArgument f => f ++ "() does not accept '*'"
  | .argumentCount f least most n =>
    f ++ "() expects " ++ arity least most ++ " argument(s), got " ++ toString n
  | .stringArgument f t => f ++ "() requires a string argument, got " ++ t.text
  | .numericArgument f t => f ++ "() requires numeric input, got " ++ t.text
  | .nullIfArguments n => "NULLIF expects 2 arguments, got " ++ toString n
  | .limitRange digits => "LIMIT must be a non-negative integer, got " ++ digits
  | .limitForm s => "LIMIT must be a literal integer, got " ++ s
  | .repeatedRelation q => "relation '" ++ q ++ "' appears twice in the join; alias one side"
  | .repeatedName n => "duplicate output column name '" ++ n ++ "'; use AS to rename"
  | .targetExists kind name =>
    "cannot create " ++ kind.text ++ ": relation '" ++ name ++ "' already exists"
  | .sourceCount n => "unexpected relation shape: " ++ toString n ++ " source(s)"
  | .aggregateInFilter e => "aggregate functions are not allowed in WHERE: " ++ e.text
  | .aggregateInGroupBy e => "aggregate functions are not allowed in GROUP BY: " ++ e.text
  | .havingWithoutGroups => "HAVING requires GROUP BY or aggregate functions"
  | .windowWithoutGroups w => "WINDOW " ++ w.text ++ " requires GROUP BY or aggregate functions"
  | .joinKeyTypes lk l rk r =>
    "join key types are not comparable: " ++ lk.text ++ " is " ++ l.text ++ ", " ++ rk.text ++ " is " ++
      r.text
  | .selectWidth es ns =>
    "select list has " ++ toString es ++ " expressions but " ++ toString ns ++ " names"
  | .insertWidth produced target expected =>
    "INSERT column count mismatch: query produces " ++ toString produced ++ ", '" ++ target ++ "' has " ++
      toString expected
  | .insertType column produced expected =>
    "INSERT type mismatch for column '" ++ column ++ "': " ++ produced.text ++
      " cannot be written to " ++ expected.text
  | .noAggregateColumn call => "aggregate call " ++ call.text ++ " has no intermediate column"
  | .other s => s

end PlanningFault

/-- A form that can be read and that the planner leaves out. -/
inductive Feature where
  | withClause
  | offset
  | setOperation
  | distinct
  | groupByAll
  | sourceList
  | sourceForm
  | qualifierDepth (name : String)
  | unaryOperator (op : String)
  | binaryOperator (op : String)
  | overClause
  | argumentForm
  | subqueryArgument
  | castType (type : String)
  | literal (text : String)
  | expression (text : String)
  | statement (text : String)
  | other (text : String)
  deriving Inhabited

def Feature.text : Feature → String
  | .withClause => "WITH clauses are not supported"
  | .offset => "OFFSET is not supported"
  | .setOperation => "only simple SELECT is supported (no UNION/EXCEPT/INTERSECT)"
  | .distinct => "SELECT DISTINCT is not supported"
  | .groupByAll => "GROUP BY ALL is not supported"
  | .sourceList => "exactly one FROM relation is required"
  | .sourceForm => "only simple stream/table names are supported in FROM"
  | .qualifierDepth name => "column references take at most one qualifier: " ++ name
  | .unaryOperator op => "unsupported unary operator: " ++ op
  | .binaryOperator op => "unsupported binary operator: " ++ op
  | .overClause => "OVER (...) window functions are not supported; use WINDOW"
  | .argumentForm => "only positional function arguments are supported"
  | .subqueryArgument => "subquery function arguments are not supported"
  | .castType t => "unsupported CAST target type: " ++ t
  | .literal s => "unsupported SQL literal: " ++ s
  | .expression s => "unsupported SQL expression: " ++ s
  | .statement s =>
    "only SELECT, CREATE STREAM/TABLE AS SELECT and INSERT INTO ... SELECT are supported: " ++ s
  | .other s => s

/-- Why a join is not an equality between a column of each side. -/
inductive JoinFault where
  | several
  | operator (outline : String)
  | noCriteria
  | criteriaForm (e : Expr)
  | keyForm (e : Expr)
  | sameSide (e : Expr)
  | other (text : String)
  deriving Inhabited

def JoinFault.text : JoinFault → String
  | .several => "only a single join between two relations is supported"
  | .operator outline => "join operator " ++ outline ++ " is not supported"
  | .noCriteria => "joins require an ON clause"
  | .criteriaForm e =>
    "join criteria must be a single equality between two columns, got " ++ e.text
  | .keyForm e => "join keys must be column references, got " ++ e.text
  | .sameSide e => "join keys must refer to different sides of the join, got " ++ e.text
  | .other s => s

/-- Why a configuration or a catalog is refused. `malformed` stands for every fault of the document
    itself; the library has no wording for it. -/
inductive ConfigFault where
  | malformed
  | zeroDepth
  | emptyPrefix
  | equalPrefixes
  | columnType (name : String)
  | other (text : String)
  deriving Inhabited

def ConfigFault.text : ConfigFault → String
  | .malformed => "the document has a different form"
  | .zeroDepth => "max_expression_depth must be > 0"
  | .emptyPrefix => "generated column prefixes must not be empty"
  | .equalPrefixes => "column_alias_prefix and aggregate_column_prefix must differ"
  | .columnType name => "unsupported column type '" ++ name ++ "'"
  | .other s => s

/-- Why a script cannot be compiled. -/
inductive Error where
  | parse (fault : ParseFault)
  | unknownRelation (name : String) (location : Location)
  | unknownColumn (name : String) (location : Location)
  | ambiguousColumn (name : String) (candidates : List String) (location : Location)
  | unknownFunction (name : String) (location : Location)
  | unsupportedJoin (fault : JoinFault)
  | notGrouped (column : String) (location : Location)
  | tooDeep (limit : Nat)
  | planning (fault : PlanningFault)
  | unsupported (feature : Feature)
  | invalidConfig (fault : ConfigFault)
  | unreadable
  | within (statement : String) (cause : Error)
  deriving Inhabited

namespace Error

/-- An error in words. -/
def message : Error → String
  | parse f => "parse error: " ++ f.text
  | unknownRelation n l => "unknown relation '" ++ n ++ "' at " ++ l.text
  | unknownColumn n l => "unknown column '" ++ n ++ "' at " ++ l.text
  | ambiguousColumn n cs l =>
    "ambiguous column '" ++ n ++ "' at " ++ l.text ++ ": candidates " ++ Text.quotedList cs
  | unknownFunction n l => "unknown function '" ++ n ++ "' at " ++ l.text
  | unsupportedJoin f => "unsupported join: " ++ f.text
  | notGrouped c l => "non-aggregate column '" ++ c ++ "' at " ++ l.text ++ " is not part of GROUP BY"
  | tooDeep limit => "expression nesting exceeds the maximum depth of " ++ toString limit
  | planning f => "planning error: " ++ f.text
  | unsupported f => "unsupported: " ++ f.text
  | invalidConfig f => "invalid configuration: " ++ f.text
  | unreadable => "io error: the document cannot be read"
  | within s e => e.message ++ "\n  in statement: " ++ s

/-- Tie an error to the text of its statement. An error that has a statement keeps it. -/
def inStatement (text : String) : Error → Error
  | within s e => within s e
  | e => within text e

/-- The error without the statements around it. -/
def cause : Error → Error
  | within _ e => e.cause
  | e => e

/-- The text of the statement that the error is tied to. -/
def statement? : Error → Option String
  | within s _ => some s
  | _ => none

/-- The position that the error points at. -/
def location? (e : Error) : Option Location :=
  match e.cause with
  | unknownRelation _ l | unknownColumn _ l | ambiguousColumn _ _ l | unknownFunction _ l
  | notGrouped _ l => some l
  | _ => none

end Error

end StreamSql
