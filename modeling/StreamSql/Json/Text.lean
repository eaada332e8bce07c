/-
  Documents as text, without blanks (`to_string` of the `serde_json` library). Characters below the
  space are escaped, and so are quotes and backslashes; all others stand for themselves.
-/
import StreamSql.Json.Basic

namespace StreamSql.Json

/-- A number in four hexadecimal digits. -/
def fourDigits (n : Nat) : String :=
  let digits := Nat.toDigits 16 n
  String.ofList (List.replicate (4 - digits.length) '0' ++ digits)

/-- A character of a string. -/
def escaped (c : Char) : String :=
  match c with
  | '\x22' => "\\\""
  | '\\' => "\\\\"
  | '\n' => "\\n"
  | '\r' => "\\r"
  | '\t' => "\\t"
  | _ => if c.toNat < 32 then "\\u" ++ fourDigits c.toNat else c.toString

/-- A string with its quotes. -/
def stringText (s : String) : String :=
  "\"" ++ String.join (s.toList.map escaped) ++ "\""

mutual

/-- A document as text. Numbers that no document can hold are written as null. -/
def text : Json → String
  | null => "null"
  | bool b => if b then "true" else "false"
  | int i => toString i
  | double d => if d.isFinite then d.text else "null"
  | string s => stringText s
  | array items => "[" ++ ",".intercalate (texts items) ++ "]"
  | object members => "\x7b" ++ ",".intercalate (memberTexts members) ++ "\x7d"
  | broken => "null"

def texts : List Json → List String
  | [] => []
  | j :: js => text j :: texts js

def memberTexts : List (String × Json) → List String
  | [] => []
  | (k, j) :: ms => (stringText k ++ ":" ++ text j) :: memberTexts ms

end

end StreamSql.Json
