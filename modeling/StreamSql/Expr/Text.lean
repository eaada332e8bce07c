/-
  The canonical text of an `Expression` and of a `Literal`, as they are displayed: every operator in
  parentheses, strings in single quotes with a quote inside written twice, doubles by their shortest
  digits. Aggregate calls are told apart by it, and plans are explained with it.
-/
import StreamSql.Expr.Basic

namespace StreamSql

/-- A single quote inside a string is written twice. -/
def Literal.escape : List Char → List Char
  | [] => []
  | c :: r => if c = '\x27' then '\x27' :: '\x27' :: escape r else c :: escape r

/-- The text of a constant. -/
def Literal.text : Literal → String
  | .null => "NULL"
  | .boolean b => if b then "true" else "false"
  | .integer i => toString i.toInt
  | .bigint i => toString i.toInt
  | .double d => d.text
  | .string s => "'" ++ String.ofList (escape s.toList) ++ "'"

def ArithOp.symbol : ArithOp → String
  | .add => "+"
  | .subtract => "-"
  | .multiply => "*"
  | .divide => "/"
  | .modulo => "%"

def CompareOp.symbol : CompareOp → String
  | .eq => "="
  | .ne => "<>"
  | .lt => "<"
  | .le => "<="
  | .gt => ">"
  | .ge => ">="

def LogicOp.symbol : LogicOp → String
  | .and => "AND"
  | .or => "OR"

/-- What a unary operator writes before its operand. -/
def UnaryOp.symbol : UnaryOp → String
  | .minus => "-"
  | .plus => "+"
  | .not => "NOT "

/-- A column with its qualifier. -/
def ColumnRef.text (c : ColumnRef) : String :=
  match c.qualifier with
  | some q => q ++ "." ++ c.name
  | none => c.name

namespace Expr

/-- The word that negates a predicate. -/
def notWord (negated : Bool) : String :=
  if negated then " NOT" else ""

mutual

/-- The canonical text of an expression. -/
def text : Expr → String
  | literal _ v => v.text
  | column _ c => c.text
  | wildcard _ => "*"
  | call _ n as d =>
    n ++ "(" ++ (if d then "DISTINCT " else "") ++ ", ".intercalate (texts as) ++ ")"
  | unary _ op e => "(" ++ op.symbol ++ text e ++ ")"
  | arith _ a op b => "(" ++ text a ++ " " ++ op.symbol ++ " " ++ text b ++ ")"
  | compare _ a op b => "(" ++ text a ++ " " ++ op.symbol ++ " " ++ text b ++ ")"
  | logic _ a op b => "(" ++ text a ++ " " ++ op.symbol ++ " " ++ text b ++ ")"
  | nullIf _ a b => "NULLIF(" ++ text a ++ ", " ++ text b ++ ")"
  | case _ o bs e => "CASE" ++ optionText " " o ++ branchesText bs ++ optionText " ELSE " e ++ " END"
  | cast _ e t => "CAST(" ++ text e ++ " AS " ++ t.sqlName ++ ")"
  | isNull _ e n => "(" ++ text e ++ " IS" ++ notWord n ++ " NULL)"
  | between _ e lo hi n =>
    "(" ++ text e ++ notWord n ++ " BETWEEN " ++ text lo ++ " AND " ++ text hi ++ ")"
  | like _ e p n => "(" ++ text e ++ notWord n ++ " LIKE " ++ text p ++ ")"
  | inList _ e es n =>
    "(" ++ text e ++ notWord n ++ " IN (" ++ ", ".intercalate (texts es) ++ "))"

/-- The canonical texts of a list of expressions. -/
def texts : List Expr → List String
  | [] => []
  | e :: es => text e :: texts es

/-- The branches of a case. -/
def branchesText : List (Expr × Expr) → String
  | [] => ""
  | (w, t) :: bs => " WHEN " ++ text w ++ " THEN " ++ text t ++ branchesText bs

/-- A part of a case that may be missing, with the word that leads it in. -/
def optionText (lead : String) : Option Expr → String
  | none => ""
  | some e => lead ++ text e

end

end Expr

end StreamSql
