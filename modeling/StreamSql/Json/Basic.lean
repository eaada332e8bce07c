/-
  Documents of values, as the `serde_json` library reads and writes them: what configurations and
  catalogs are written in, and what statements and plans are turned into to be kept. An object keeps
  its members in order, also when a key comes twice.
-/
import StreamSql.Double

namespace StreamSql

/-- A document. `broken` is a scalar that is written correctly and has no value: a string with
    half of a pair of code units, or a number beyond the doubles. -/
inductive Json where
  | null
  | bool (value : Bool)
  | int (value : Int)
  | double (value : Double)
  | string (value : String)
  | array (items : List Json)
  | object (members : List (String × Json))
  | broken
  deriving Inhabited

namespace Json

mutual

/-- How many arrays and objects of a document are inside each other. -/
def nesting : Json → Nat
  | array items => nestingList items + 1
  | object members => nestingMembers members + 1
  | _ => 0

def nestingList : List Json → Nat
  | [] => 0
  | j :: js => max (nesting j) (nestingList js)

def nestingMembers : List (String × Json) → Nat
  | [] => 0
  | (_, j) :: ms => max (nesting j) (nestingMembers ms)

end

/-! ## Reading scalars -/

def bool? : Json → Option Bool
  | bool b => some b
  | _ => none

def int? : Json → Option Int
  | int i => some i
  | _ => none

/-- A natural number below `2 ^ bits`. -/
def nat? (bits : Nat) : Json → Option Nat
  | int i => if 0 ≤ i ∧ i.toNat < 1 <<< bits then some i.toNat else none
  | _ => none

def string? : Json → Option String
  | string s => some s
  | _ => none

def array? : Json → Option (List Json)
  | array items => some items
  | _ => none

/-! ## Reading members -/

/-- The value of a key, the first one if there are several. -/
def get? (key : String) : Json → Option Json
  | object members => members.lookup key
  | _ => none

/-- The value of a key unless it is missing or null. -/
def given? (key : String) (j : Json) : Option Json :=
  match j.get? key with
  | some null => none
  | v => v

/-- The members of an object that has a single one: a tag and what it holds. -/
def tagged? : Json → Option (String × Json)
  | object [m] => some m
  | _ => none

/-- The values of a key, in order. -/
def valuesOf (key : String) (members : List (String × Json)) : List Json :=
  members.filterMap fun (k, v) => if k = key then some v else none

/-- The values of the named fields of a record. An object may have them in any order, with unknown
    keys between them, and none of them twice; an array gives them in the order of the names and
    may stop early. -/
def record? (names : List String) : Json → Option (List (Option Json))
  | object members =>
    names.mapM fun n =>
      match valuesOf n members with
      | [] => some none
      | [v] => some (some v)
      | _ => none
  | array items =>
    if items.length ≤ names.length then
      some (items.map some ++ List.replicate (names.length - items.length) none)
    else none
  | _ => none

/-- A value that may be null. -/
def optional? {α : Type} (read : Json → Option α) : Json → Option (Option α)
  | null => some none
  | j => (read j).map some

/-- A list of values. -/
def list? {α : Type} (read : Json → Option α) (j : Json) : Option (List α) := do
  (← j.array?).mapM read

/-- A pair of values. -/
def pair? {α β : Type} (first : Json → Option α) (second : Json → Option β) :
    Json → Option (α × β)
  | array [a, b] => do return (← first a, ← second b)
  | _ => none

/-! ## Writing -/

/-- A value that may be missing, written as null. -/
def ofOption {α : Type} (write : α → Json) : Option α → Json
  | none => null
  | some a => write a

def ofList {α : Type} (write : α → Json) (items : List α) : Json :=
  array (items.map write)

def ofNat (n : Nat) : Json := int n

/-- A tag and what it holds. -/
def tagged (tag : String) (content : Json) : Json :=
  object [(tag, content)]

end Json

end StreamSql
