/-
  Expressions of a query, the planner's `Expression` and `ExpressionKind`: literals, columns, calls
  and operators. A node remembers where it was read; a node that was not read from a script has no
  position.

  Equality of expressions (`Expr.same`) and the hash that goes with it leave positions out and
  compare doubles by their bits.
-/
import StreamSql.DataType
import StreamSql.Double
import StreamSql.Location

namespace StreamSql

/-- A constant. -/
inductive Literal where
  | null
  | boolean (value : Bool)
  | integer (value : Int32)
  | bigint (value : Int64)
  | double (value : Double)
  | string (value : String)
  deriving DecidableEq, Inhabited

/-- The type of a constant. -/
def Literal.dataType : Literal → DataType
  | .null => .null
  | .boolean _ => .boolean
  | .integer _ => .int32
  | .bigint _ => .int64
  | .double _ => .float64
  | .string _ => .utf8

def Literal.isNull : Literal → Bool
  | .null => true
  | _ => false

inductive UnaryOp where
  | minus
  | plus
  | not
  deriving DecidableEq, Inhabited

inductive ArithOp where
  | add
  | subtract
  | multiply
  | divide
  | modulo
  deriving DecidableEq, Inhabited

inductive CompareOp where
  | eq
  | ne
  | lt
  | le
  | gt
  | ge
  deriving DecidableEq, Inhabited

inductive LogicOp where
  | and
  | or
  deriving DecidableEq, Inhabited

/-- A column by its name, perhaps with the relation or alias it belongs to. -/
structure ColumnRef where
  qualifier : Option String
  name : String
  deriving DecidableEq, Inhabited

/-- An expression. `wildcard` is the `*` of `COUNT(*)`; `case` without an operand tests its branches
    as conditions, with an operand it compares the operand with them. -/
inductive Expr where
  | literal (loc : Option Location) (value : Literal)
  | column (loc : Option Location) (ref : ColumnRef)
  | wildcard (loc : Option Location)
  | call (loc : Option Location) (name : String) (args : List Expr) (distinct : Bool)
  | unary (loc : Option Location) (op : UnaryOp) (operand : Expr)
  | arith (loc : Option Location) (left : Expr) (op : ArithOp) (right : Expr)
  | compare (loc : Option Location) (left : Expr) (op : CompareOp) (right : Expr)
  | logic (loc : Option Location) (left : Expr) (op : LogicOp) (right : Expr)
  | nullIf (loc : Option Location) (first second : Expr)
  | case (loc : Option Location) (operand : Option Expr) (branches : List (Expr × Expr))
      (otherwise : Option Expr)
  | cast (loc : Option Location) (operand : Expr) (type : DataType)
  | isNull (loc : Option Location) (operand : Expr) (negated : Bool)
  | between (loc : Option Location) (operand low high : Expr) (negated : Bool)
  | like (loc : Option Location) (operand pattern : Expr) (negated : Bool)
  | inList (loc : Option Location) (operand : Expr) (list : List Expr) (negated : Bool)
  deriving Inhabited

namespace Expr

/-- Where the node was read, if it was. -/
def loc? : Expr → Option Location
  | literal l _ | column l _ | wildcard l | call l _ _ _ | unary l _ _ | arith l _ _ _
  | compare l _ _ _ | logic l _ _ _ | nullIf l _ _ | case l _ _ _ | cast l _ _ | isNull l _ _
  | between l _ _ _ _ | like l _ _ _ | inList l _ _ _ => l

/-- Where the node was read, for diagnostics. -/
def location (e : Expr) : Location :=
  e.loc?.getD .unknown

/-- The node at another position; its children stay where they are. -/
def withLoc (l : Option Location) : Expr → Expr
  | literal _ v => literal l v
  | column _ c => column l c
  | wildcard _ => wildcard l
  | call _ n as d => call l n as d
  | unary _ op e => unary l op e
  | arith _ a op b => arith l a op b
  | compare _ a op b => compare l a op b
  | logic _ a op b => logic l a op b
  | nullIf _ a b => nullIf l a b
  | case _ o bs e => case l o bs e
  | cast _ e t => cast l e t
  | isNull _ e n => isNull l e n
  | between _ e lo hi n => between l e lo hi n
  | like _ e p n => like l e p n
  | inList _ e es n => inList l e es n

/-! ## Building expressions without a position -/

def lit (v : Literal) : Expr := literal none v

def null : Expr := lit .null

def col (name : String) : Expr := column none ⟨none, name⟩

def qualifiedCol (qualifier name : String) : Expr := column none ⟨some qualifier, name⟩

/-- A call of a function; function names are kept in capitals. -/
def apply (name : String) (args : List Expr) : Expr :=
  call none (Text.upper name) args false

/-- A case that tests its branches in turn. -/
def searchedCase (branches : List (Expr × Expr)) (otherwise : Option Expr) : Expr :=
  case none none branches otherwise

/-! ## Views -/

def column? : Expr → Option ColumnRef
  | column _ c => some c
  | _ => none

def literal? : Expr → Option Literal
  | literal _ v => some v
  | _ => none

def functionName? : Expr → Option String
  | call _ n _ _ => some n
  | _ => none

def isWildcard : Expr → Bool
  | wildcard _ => true
  | _ => false

/-! ## Equality without positions -/

mutual

/-- The same expression, positions left out. -/
def same : Expr → Expr → Bool
  | literal _ v, literal _ w => v == w
  | column _ c, column _ d => c == d
  | wildcard _, wildcard _ => true
  | call _ n as d, call _ n' as' d' => n == n' && sameList as as' && d == d'
  | unary _ op e, unary _ op' e' => op == op' && same e e'
  | arith _ a op b, arith _ a' op' b' => op == op' && same a a' && same b b'
  | compare _ a op b, compare _ a' op' b' => op == op' && same a a' && same b b'
  | logic _ a op b, logic _ a' op' b' => op == op' && same a a' && same b b'
  | nullIf _ a b, nullIf _ a' b' => same a a' && same b b'
  | case _ o bs e, case _ o' bs' e' => sameOption o o' && sameBranches bs bs' && sameOption e e'
  | cast _ e t, cast _ e' t' => same e e' && t == t'
  | isNull _ e n, isNull _ e' n' => same e e' && n == n'
  | between _ e lo hi n, between _ e' lo' hi' n' =>
    same e e' && same lo lo' && same hi hi' && n == n'
  | like _ e p n, like _ e' p' n' => same e e' && same p p' && n == n'
  | inList _ e es n, inList _ e' es' n' => same e e' && sameList es es' && n == n'
  | _, _ => false

/-- The same expressions in the same order. -/
def sameList : List Expr → List Expr → Bool
  | [], [] => true
  | e :: es, e' :: es' => same e e' && sameList es es'
  | _, _ => false

/-- The same branches in the same order. -/
def sameBranches : List (Expr × Expr) → List (Expr × Expr) → Bool
  | [], [] => true
  | (w, t) :: bs, (w', t') :: bs' => same w w' && same t t' && sameBranches bs bs'
  | _, _ => false

def sameOption : Option Expr → Option Expr → Bool
  | none, none => true
  | some e, some e' => same e e'
  | _, _ => false

end

/-! ## Hash -/

/-- The hash of a constant. -/
def hashLiteral : Literal → UInt64
  | .null => 1
  | .boolean b => mixHash 2 (hash b)
  | .integer i => mixHash 3 (hash i.toInt)
  | .bigint i => mixHash 4 (hash i.toInt)
  | .double d => mixHash 5 (hash d.bits)
  | .string s => mixHash 6 (hash s)

def hashColumn (c : ColumnRef) : UInt64 :=
  mixHash (hash c.qualifier) (hash c.name)

/-- The hash of a node with the given tag from the hashes of its parts. -/
def hashNode (tag : UInt64) (parts : List UInt64) : UInt64 :=
  parts.foldl mixHash tag

mutual

/-- A hash that agrees with `same`. -/
def hashOf : Expr → UInt64
  | literal _ v => hashNode 11 [hashLiteral v]
  | column _ c => hashNode 12 [hashColumn c]
  | wildcard _ => 13
  | call _ n as d => hashNode 14 [hash n, hashList as, hash d]
  | unary _ op e => hashNode 15 [op.ctorIdx.toUInt64, hashOf e]
  | arith _ a op b => hashNode 16 [hashOf a, op.ctorIdx.toUInt64, hashOf b]
  | compare _ a op b => hashNode 17 [hashOf a, op.ctorIdx.toUInt64, hashOf b]
  | logic _ a op b => hashNode 18 [hashOf a, op.ctorIdx.toUInt64, hashOf b]
  | nullIf _ a b => hashNode 19 [hashOf a, hashOf b]
  | case _ o bs e => hashNode 20 [hashOption o, hashBranches bs, hashOption e]
  | cast _ e t => hashNode 21 [hashOf e, hash t]
  | isNull _ e n => hashNode 22 [hashOf e, hash n]
  | between _ e lo hi n => hashNode 23 [hashOf e, hashOf lo, hashOf hi, hash n]
  | like _ e p n => hashNode 24 [hashOf e, hashOf p, hash n]
  | inList _ e es n => hashNode 25 [hashOf e, hashList es, hash n]

def hashList : List Expr → UInt64
  | [] => 7
  | e :: es => mixHash (hashOf e) (hashList es)

def hashBranches : List (Expr × Expr) → UInt64
  | [] => 8
  | (w, t) :: bs => mixHash (mixHash (hashOf w) (hashOf t)) (hashBranches bs)

def hashOption : Option Expr → UInt64
  | none => 9
  | some e => mixHash 10 (hashOf e)

end

end Expr

end StreamSql
