/-
  The envelope of a statement: what is done with the rows of its query (`split_envelope` of the
  parser). A list of tokens that is no envelope stays whole, so that the grammar can say what is
  wrong with it.
-/
import StreamSql.Error
import StreamSql.Script.Reading

namespace StreamSql

/-- What is done with the rows of a query. -/
inductive Envelope where
  | query
  | create (kind : SinkKind) (name : String) (properties : List (String × String))
  | insert (target : String)
  deriving DecidableEq, Inhabited

namespace Envelope

/-- A query in its envelope. -/
def statement (q : Query) : Envelope → Statement
  | .query => .query q
  | .create kind name properties => .create kind name properties q
  | .insert target => .insert target q

open Token (take? takeKeyword? takeSymbol? takeWord?)

/-- The value of a property. -/
def propertyValue (key : String) (ts : List Token) : Except ParseFault (String × List Token) :=
  match take? ts with
  | some (.string s, r) => .ok (s, r)
  | some (.number d _, r) => .ok (d, r)
  | some (.word v _, r) => .ok (v, r)
  | found => .error (.propertyValue key (found.map Prod.fst))

/-- One property: a word, an equals sign and a value. -/
def property (ts : List Token) : Except ParseFault ((String × String) × List Token) :=
  match takeWord? ts with
  | none => .error .propertyName
  | some (key, r) =>
    match takeSymbol? .eq r with
    | none => .error (.propertyEquals key)
    | some r => do
      let (value, r) ← propertyValue key r
      return ((key, value), r)

/-- Properties with commas between them up to the closing parenthesis, at most `n`. -/
def properties : Nat → List Token → Except ParseFault (List (String × String) × List Token)
  | 0, _ => .error .propertySeparator
  | n + 1, ts => do
    let (p, r) ← property ts
    match takeSymbol? .comma r with
    | some r => do
      let (ps, r) ← properties n r
      return (p :: ps, r)
    | none =>
      match takeSymbol? .rParen r with
      | some r => return ([p], r)
      | none => .error .propertySeparator

/-- The properties in parentheses after the word WITH, or none without it. -/
def withProperties (ts : List Token) : Except ParseFault (List (String × String) × List Token) :=
  match takeKeyword? "WITH" ts with
  | none => .ok ([], ts)
  | some r =>
    match takeSymbol? .lParen r with
    | none => .error .propertiesStart
    | some r => properties (r.length + 1) r

/-- Takes the kind of a created relation. -/
def takeKind? (ts : List Token) : Option (SinkKind × List Token) :=
  match takeKeyword? "STREAM" ts with
  | some r => some (.stream, r)
  | none => (takeKeyword? "TABLE" ts).map (.table, ·)

/-- The envelope that creates a relation, given the whole list and what follows the word CREATE. A
    table without the word AS is left to the grammar. -/
def splitCreate (whole ts : List Token) : Except ParseFault (Envelope × List Token) :=
  match takeKind? ts with
  | none => .ok (.query, whole)
  | some (kind, r) =>
    match takeWord? r with
    | none => .ok (.query, whole)
    | some (name, r) => do
      let (ps, r) ← withProperties r
      match takeKeyword? "AS" r with
      | some body => return (.create kind name ps, body)
      | none =>
        match kind with
        | .table => return (.query, whole)
        | .stream => .error (.missingAs name)

/-- The envelope that writes into a relation, given what follows the word INSERT. -/
def splitInsert (ts : List Token) : Except ParseFault (Envelope × List Token) :=
  match takeKeyword? "INTO" ts with
  | none => .error .missingInto
  | some r =>
    match takeWord? r with
    | none => .error .missingTarget
    | some (target, body) => .ok (.insert target, body)

/-- Splits the tokens of a statement into its envelope and its body. -/
def split (ts : List Token) : Except ParseFault (Envelope × List Token) :=
  match takeKeyword? "CREATE" ts with
  | some r => splitCreate ts r
  | none =>
    match takeKeyword? "INSERT" ts with
    | some r => splitInsert r
    | none => .ok (.query, ts)

end Envelope

end StreamSql
