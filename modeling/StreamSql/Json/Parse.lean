/-
  Reading a document from text (`from_str` of the `serde_json` library). White space is the four
  characters of the format; numbers have no leading zeros, strings no control characters, lists no
  trailing comma, and nothing follows the document.

  An integer that fits into 64 bits with or without a sign stays an integer; every other number,
  minus zero included, is a double.
-/
import StreamSql.Json.Basic
import StreamSql.Token.Scan

namespace StreamSql.Json

/-- White space of the format. -/
def isSpace (c : Char) : Bool :=
  c = ' ' || c = '\t' || c = '\n' || c = '\x0d'

def skipSpace (cs : List Char) : List Char :=
  cs.dropWhile isSpace

/-- The text after the given start. -/
def expect (lead : List Char) (cs : List Char) : Option (List Char) :=
  if lead.isPrefixOf cs then some (cs.drop lead.length) else none

/-! ## Strings -/

/-- The code unit of four base sixteen digits. -/
def codeUnit? (cs : List Char) : Option (Nat × List Char) := do
  let ds := cs.take 4
  if ds.length = 4 ∧ ds.all Scan.isHexDigit then
    return (← Scan.digitsValue? 16 ds, cs.drop 4)
  else none

/-- The character of an escape by a single letter. -/
def shortEscape? : Char → Option Char
  | '\x22' => some '\x22'
  | '\\' => some '\\'
  | '/' => some '/'
  | 'b' => some '\x08'
  | 'f' => some '\x0c'
  | 'n' => some '\n'
  | 'r' => some '\x0d'
  | 't' => some '\t'
  | _ => none

/-- The character that a code unit stands for, together with the next one if it is the first half
    of a pair; no character if a half stands alone. -/
def unitChar (u : Nat) (cs : List Char) : Option Char × List Char :=
  if 0xd800 ≤ u ∧ u < 0xdc00 then
    match expect ['\\', 'u'] cs with
    | some r =>
      match codeUnit? r with
      | some (v, r') =>
        if 0xdc00 ≤ v ∧ v < 0xe000 then
          (Scan.charOf? (0x10000 + (u - 0xd800) * 0x400 + (v - 0xdc00)), r')
        else (none, cs)
      | none => (none, cs)
    | none => (none, cs)
  else (Scan.charOf? u, cs)

/-- The content of a string up to its closing quote; the content is missing if it has no value. The
    first argument bounds the number of characters. -/
def stringBody : Nat → List Char → Option (Option (List Char) × List Char)
  | 0, _ => none
  | n + 1, cs =>
    match cs with
    | [] => none
    | '\x22' :: r => some (some [], r)
    | '\\' :: 'u' :: r => do
      let (u, r) ← codeUnit? r
      let (c, r) := unitChar u r
      let (s, r) ← stringBody n r
      return (do return (← c) :: (← s), r)
    | '\\' :: c :: r => do
      let c ← shortEscape? c
      let (s, r) ← stringBody n r
      return (s.map (c :: ·), r)
    | c :: r =>
      if c.toNat < 32 || c = '\\' then none
      else do
        let (s, r) ← stringBody n r
        return (s.map (c :: ·), r)

/-! ## Numbers -/

/-- The digits at the start of a text, at least one. -/
def digits? (cs : List Char) : Option (List Char × List Char) :=
  match cs.takeWhile Char.isDigit with
  | [] => none
  | ds => some (ds, cs.dropWhile Char.isDigit)

/-- The whole part of a number: a zero, or digits that start with another one. -/
def whole? : List Char → Option (List Char × List Char)
  | '0' :: r =>
    match r with
    | c :: _ => if c.isDigit then none else some (['0'], r)
    | [] => some (['0'], r)
  | cs => digits? cs

/-- A fraction, if there is one. -/
def fraction? : List Char → Option (List Char × List Char)
  | '.' :: r => do
    let (ds, r) ← digits? r
    return ('.' :: ds, r)
  | cs => some ([], cs)

/-- An exponent, if there is one. -/
def exponent? : List Char → Option (List Char × List Char)
  | c :: r =>
    if c = 'e' || c = 'E' then do
      let (sign, r) := match r with
        | '+' :: r' => (['+'], r')
        | '-' :: r' => (['-'], r')
        | _ => ([], r)
      let (ds, r) ← digits? r
      return (c :: sign ++ ds, r)
    else some ([], c :: r)
  | [] => some ([], [])

/-- The value of a number that is written with a fraction or an exponent, or is too large. -/
def ofDigits (cs : List Char) : Json :=
  match Double.ofText? (String.ofList cs) with
  | some d => if d.isFinite then double d else broken
  | none => broken

/-- A number. -/
def number? (cs : List Char) : Option (Json × List Char) := do
  let (sign, r) := match cs with
    | '-' :: r => (['-'], r)
    | _ => ([], cs)
  let (ds, r) ← whole? r
  let (f, r) ← fraction? r
  let (e, r) ← exponent? r
  let plain := f.isEmpty && e.isEmpty
  let n := Double.digitsValue ds
  if plain && sign.isEmpty && n < UInt64.size then return (int n, r)
  else if plain && !sign.isEmpty && 0 < n && Int64.minValue.toInt ≤ -n then return (int (-n), r)
  else return (ofDigits (sign ++ ds ++ f ++ e), r)

/-! ## Documents -/

mutual

/-- A value at the start of a text. The first argument bounds the number of steps. -/
def value? : Nat → List Char → Option (Json × List Char)
  | 0, _ => none
  | n + 1, cs =>
    match skipSpace cs with
    | '\x7b' :: r =>
      match skipSpace r with
      | '\x7d' :: r => some (object [], r)
      | r => do
        let (ms, r) ← members? n r
        return (object ms, r)
    | '[' :: r =>
      match skipSpace r with
      | ']' :: r => some (array [], r)
      | r => do
        let (js, r) ← items? n r
        return (array js, r)
    | '\x22' :: r => do
      let (s, r) ← stringBody n r
      match s with
      | some s => return (string (String.ofList s), r)
      | none => return (broken, r)
    | 't' :: r => (expect ['r', 'u', 'e'] r).map (bool true, ·)
    | 'f' :: r => (expect ['a', 'l', 's', 'e'] r).map (bool false, ·)
    | 'n' :: r => (expect ['u', 'l', 'l'] r).map (null, ·)
    | cs => number? cs

/-- The items of a list up to its closing bracket. -/
def items? : Nat → List Char → Option (List Json × List Char)
  | 0, _ => none
  | n + 1, cs => do
    let (j, r) ← value? n cs
    match skipSpace r with
    | ',' :: r => do
      let (js, r) ← items? n r
      return (j :: js, r)
    | ']' :: r => return ([j], r)
    | _ => none

/-- The members of an object up to its closing brace. -/
def members? : Nat → List Char → Option (List (String × Json) × List Char)
  | 0, _ => none
  | n + 1, cs =>
    match skipSpace cs with
    | '\x22' :: r => do
      let (k, r) ← stringBody n r
      let k ← k
      match skipSpace r with
      | ':' :: r => do
        let (j, r) ← value? n r
        match skipSpace r with
        | ',' :: r => do
          let (ms, r) ← members? n r
          return ((String.ofList k, j) :: ms, r)
        | '\x7d' :: r => return ([(String.ofList k, j)], r)
        | _ => none
      | _ => none
    | _ => none

end

/-- The document that a text holds. -/
def parse? (text : String) : Option Json := do
  let cs := text.toList
  let (j, r) ← value? (2 * cs.length + 2) cs
  if (skipSpace r).isEmpty then some j else none

end StreamSql.Json
