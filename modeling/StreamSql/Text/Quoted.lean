/-
  Quoted text as diagnostics show it: between double quotes, with a backslash before a double quote
  and a backslash, short names for the common control characters, and the code point in braces for
  every other character that has no shape of its own.
-/
import StreamSql.Text.Printable

namespace StreamSql.Text

/-- The code point of a character in base sixteen between braces. -/
def codePoint (c : Char) : String :=
  "\\u\x7b" ++ String.ofList (Nat.toDigits 16 c.toNat) ++ "\x7d"

/-- A character of quoted text; `delimiter` is the quote that has to be marked. -/
def quotedChar (delimiter c : Char) : String :=
  if c = '\x00' then "\\0"
  else if c = '\t' then "\\t"
  else if c = '\n' then "\\n"
  else if c = '\x0d' then "\\r"
  else if c = '\\' || c = delimiter then "\\" ++ c.toString
  else if isPrintable c then c.toString
  else codePoint c

/-- The text between double quotes. -/
def quoted (s : String) : String :=
  "\"" ++ String.join (s.toList.map (quotedChar '\x22')) ++ "\""

/-- A single character between single quotes. -/
def quotedLetter (c : Char) : String :=
  "'" ++ quotedChar '\x27' c ++ "'"

/-- A list of texts, each quoted, in square brackets. -/
def quotedList (items : List String) : String :=
  "[" ++ ", ".intercalate (items.map quoted) ++ "]"

end StreamSql.Text
