/-
  The functions that a statement may call, by name without regard to the case of letters: how many
  arguments each takes, whether it aggregates rows, and the type of its result. A `Signature` is a
  `FunctionSignature` of the planner with `resolve_return_type` and `check_string_arg`; `Registry`
  is its `BuiltinFunctionRegistry`.
-/
import StreamSql.Error

namespace StreamSql

inductive FunctionKind where
  | scalar
  | aggregate
  deriving DecidableEq, Inhabited

/-- The type of a result: always the same, the type of the first argument, or that of the first
    argument as a 64-bit number. -/
inductive ReturnType where
  | fixed (type : DataType)
  | firstArg
  | widened
  deriving DecidableEq, Inhabited

/-- A function. `wildcard` allows a lone `*` as the argument; `maxArgs` is missing if there is no
    most. -/
structure Signature where
  name : String
  kind : FunctionKind
  minArgs : Nat
  maxArgs : Option Nat
  wildcard : Bool := false
  returns : ReturnType
  deriving DecidableEq, Inhabited

namespace Signature

/-- A function of the values of a row. -/
def scalar (name : String) (minArgs : Nat) (maxArgs : Option Nat) (returns : ReturnType) : Signature where
  name := Text.upper name
  kind := .scalar
  minArgs := minArgs
  maxArgs := maxArgs
  returns := returns

/-- A function of one argument over the rows of a group. -/
def aggregate (name : String) (returns : ReturnType) : Signature where
  name := Text.upper name
  kind := .aggregate
  minArgs := 1
  maxArgs := some 1
  returns := returns

def withWildcard (s : Signature) : Signature :=
  { s with wildcard := true }

def isAggregate (s : Signature) : Bool :=
  s.kind == .aggregate

/-- The number of arguments is one that the function takes. -/
def takes (s : Signature) (n : Nat) : Bool :=
  s.minArgs ≤ n && s.maxArgs.all (n ≤ ·)

/-- The type of the result for arguments of these types; a `*` counts as NULL. -/
def resultType (s : Signature) (args : List DataType) : Except Error DataType :=
  if !s.takes args.length then
    .error (.planning (.argumentCount s.name s.minArgs s.maxArgs args.length))
  else
    match s.returns, args.head? with
    | .fixed t, _ => .ok t
    | .firstArg, first => .ok (first.getD .null)
    | .widened, none | .widened, some .null => .ok .null
    | .widened, some .float32 | .widened, some .float64 => .ok .float64
    | .widened, some t =>
      if t.isNumeric then .ok .int64 else .error (.planning (.numericArgument s.name t))

/-- The functions whose first argument is a string. -/
def stringFunctions : List String :=
  ["UCASE", "LCASE", "TRIM", "LEN", "SUBSTRING"]

/-- A function of strings refuses a first argument of another type. -/
def checkString (s : Signature) (args : List DataType) : Except Error Unit :=
  match args with
  | t :: _ =>
    if s.name ∈ stringFunctions ∧ !t.isString ∧ t ≠ .null then
      .error (.planning (.stringArgument s.name t))
    else .ok ()
  | [] => .ok ()

end Signature

/-- Functions by their names in capitals. -/
structure Registry where
  entries : List (String × Signature)
  deriving DecidableEq, Inhabited

namespace Registry

/-- The registry without functions. -/
def empty : Registry := ⟨[]⟩

def lookup (r : Registry) (name : String) : Option Signature :=
  r.entries.lookup (Text.upper name)

/-- The registry without the function of this name, and whether it had one. -/
def deregister (r : Registry) (name : String) : Registry × Bool :=
  let key := Text.upper name
  (⟨r.entries.filter fun e => e.1 != key⟩, (r.entries.lookup key).isSome)

/-- The registry with a function, and whether it took the place of another one. -/
def register (r : Registry) (s : Signature) : Registry × Bool :=
  let (others, replaced) := r.deregister s.name
  (⟨(Text.upper s.name, s) :: others.entries⟩, replaced)

/-- The functions that are always there. -/
def builtin : Registry :=
  [ (Signature.aggregate "COUNT" (.fixed .int64)).withWildcard,
    Signature.aggregate "SUM" .widened,
    Signature.aggregate "MIN" .firstArg,
    Signature.aggregate "MAX" .firstArg,
    Signature.aggregate "AVG" (.fixed .float64),
    Signature.scalar "ABS" 1 (some 1) .firstArg,
    Signature.scalar "CEIL" 1 (some 1) .firstArg,
    Signature.scalar "FLOOR" 1 (some 1) .firstArg,
    Signature.scalar "ROUND" 1 (some 2) .widened,
    Signature.scalar "RANDOM" 0 (some 0) (.fixed .float64),
    Signature.scalar "UCASE" 1 (some 1) (.fixed .utf8),
    Signature.scalar "LCASE" 1 (some 1) (.fixed .utf8),
    Signature.scalar "TRIM" 1 (some 1) (.fixed .utf8),
    Signature.scalar "LEN" 1 (some 1) (.fixed .int32),
    Signature.scalar "CONCAT" 1 none (.fixed .utf8),
    Signature.scalar "SUBSTRING" 2 (some 3) (.fixed .utf8),
    Signature.scalar "IFNULL" 2 (some 2) .firstArg,
    Signature.scalar "COALESCE" 1 none .firstArg ].foldl (fun r s => (r.register s).1) empty

end Registry

end StreamSql
