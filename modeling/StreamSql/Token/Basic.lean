/-
  The tokens of SQL text, `Token` of the `sqlparser` library. `Token.text` writes a token back; the
  content of a quoted token is written as it was understood, so a quote that was doubled in the
  source comes out single.
-/
import StreamSql.Location
import StreamSql.Text.Case
import StreamSql.Text.Quoted
import StreamSql.Token.Keyword

namespace StreamSql

/-- Operators and punctuation. -/
inductive Symbol where
  | comma
  | doubleEq
  | eq
  | neq
  | lt
  | gt
  | ltEq
  | gtEq
  | spaceship
  | plus
  | minus
  | mul
  | div
  | intDiv
  | mod
  | concat
  | lParen
  | rParen
  | period
  | colon
  | doubleColon
  | assign
  | semicolon
  | backslash
  | lBracket
  | rBracket
  | ampersand
  | pipe
  | caret
  | lBrace
  | rBrace
  | rArrow
  | sharp
  | tilde
  | tildeStar
  | bangTilde
  | bangTildeStar
  | doubleTilde
  | doubleTildeStar
  | bangDoubleTilde
  | bangDoubleTildeStar
  | shiftLeft
  | shiftRight
  | overlap
  | bang
  | doubleBang
  | atSign
  | caretAt
  | squareRoot
  | cubeRoot
  | arrow
  | longArrow
  | hashArrow
  | hashLongArrow
  | atArrow
  | arrowAt
  | hashMinus
  | atQuestion
  | atAt
  deriving DecidableEq, Inhabited

namespace Symbol

/-- A symbol as it is written. -/
def text : Symbol → String
  | .comma => ","
  | .doubleEq => "=="
  | .eq => "="
  | .neq => "<>"
  | .lt => "<"
  | .gt => ">"
  | .ltEq => "<="
  | .gtEq => ">="
  | .spaceship => "<=>"
  | .plus => "+"
  | .minus => "-"
  | .mul => "*"
  | .div => "/"
  | .intDiv => "//"
  | .mod => "%"
  | .concat => "||"
  | .lParen => "("
  | .rParen => ")"
  | .period => "."
  | .colon => ":"
  | .doubleColon => "::"
  | .assign => ":="
  | .semicolon => ";"
  | .backslash => "\\"
  | .lBracket => "["
  | .rBracket => "]"
  | .ampersand => "&"
  | .pipe => "|"
  | .caret => "^"
  | .lBrace => "\x7b"
  | .rBrace => "\x7d"
  | .rArrow => "=>"
  | .sharp => "#"
  | .tilde => "~"
  | .tildeStar => "~*"
  | .bangTilde => "!~"
  | .bangTildeStar => "!~*"
  | .doubleTilde => "~~"
  | .doubleTildeStar => "~~*"
  | .bangDoubleTilde => "!~~"
  | .bangDoubleTildeStar => "!~~*"
  | .shiftLeft => "<<"
  | .shiftRight => ">>"
  | .overlap => "&&"
  | .bang => "!"
  | .doubleBang => "!!"
  | .atSign => "@"
  | .caretAt => "^@"
  | .squareRoot => "|/"
  | .cubeRoot => "||/"
  | .arrow => "->"
  | .longArrow => "->>"
  | .hashArrow => "#>"
  | .hashLongArrow => "#>>"
  | .atArrow => "@>"
  | .arrowAt => "<@"
  | .hashMinus => "#-"
  | .atQuestion => "@?"
  | .atAt => "@@"

/-- The name of a symbol in diagnostics. -/
def name : Symbol → String
  | .comma => "Comma"
  | .doubleEq => "DoubleEq"
  | .eq => "Eq"
  | .neq => "Neq"
  | .lt => "Lt"
  | .gt => "Gt"
  | .ltEq => "LtEq"
  | .gtEq => "GtEq"
  | .spaceship => "Spaceship"
  | .plus => "Plus"
  | .minus => "Minus"
  | .mul => "Mul"
  | .div => "Div"
  | .intDiv => "DuckIntDiv"
  | .mod => "Mod"
  | .concat => "StringConcat"
  | .lParen => "LParen"
  | .rParen => "RParen"
  | .period => "Period"
  | .colon => "Colon"
  | .doubleColon => "DoubleColon"
  | .assign => "Assignment"
  | .semicolon => "SemiColon"
  | .backslash => "Backslash"
  | .lBracket => "LBracket"
  | .rBracket => "RBracket"
  | .ampersand => "Ampersand"
  | .pipe => "Pipe"
  | .caret => "Caret"
  | .lBrace => "LBrace"
  | .rBrace => "RBrace"
  | .rArrow => "RArrow"
  | .sharp => "Sharp"
  | .tilde => "Tilde"
  | .tildeStar => "TildeAsterisk"
  | .bangTilde => "ExclamationMarkTilde"
  | .bangTildeStar => "ExclamationMarkTildeAsterisk"
  | .doubleTilde => "DoubleTilde"
  | .doubleTildeStar => "DoubleTildeAsterisk"
  | .bangDoubleTilde => "ExclamationMarkDoubleTilde"
  | .bangDoubleTildeStar => "ExclamationMarkDoubleTildeAsterisk"
  | .shiftLeft => "ShiftLeft"
  | .shiftRight => "ShiftRight"
  | .overlap => "Overlap"
  | .bang => "ExclamationMark"
  | .doubleBang => "DoubleExclamationMark"
  | .atSign => "AtSign"
  | .caretAt => "CaretAt"
  | .squareRoot => "PGSquareRoot"
  | .cubeRoot => "PGCubeRoot"
  | .arrow => "Arrow"
  | .longArrow => "LongArrow"
  | .hashArrow => "HashArrow"
  | .hashLongArrow => "HashLongArrow"
  | .atArrow => "AtArrow"
  | .arrowAt => "ArrowAt"
  | .hashMinus => "HashMinus"
  | .atQuestion => "AtQuestion"
  | .atAt => "AtAt"

/-- Every spelling of a symbol, the longer ones first, so that the first one that fits is the
    longest. The inequality sign has two spellings. -/
def spellings : List (String × Symbol) :=
  [("!~~*", .bangDoubleTildeStar), ("<=>", .spaceship), ("!~*", .bangTildeStar),
   ("~~*", .doubleTildeStar), ("!~~", .bangDoubleTilde), ("||/", .cubeRoot), ("->>", .longArrow),
   ("#>>", .hashLongArrow), ("==", .doubleEq), ("<>", .neq), ("<=", .ltEq), (">=", .gtEq),
   ("//", .intDiv), ("||", .concat), ("::", .doubleColon), (":=", .assign), ("=>", .rArrow),
   ("~*", .tildeStar), ("!~", .bangTilde), ("~~", .doubleTilde), ("<<", .shiftLeft),
   (">>", .shiftRight), ("&&", .overlap), ("!!", .doubleBang), ("^@", .caretAt),
   ("|/", .squareRoot), ("->", .arrow), ("#>", .hashArrow), ("@>", .atArrow), ("<@", .arrowAt),
   ("#-", .hashMinus), ("@?", .atQuestion), ("@@", .atAt), ("!=", .neq), (",", .comma),
   ("=", .eq), ("<", .lt), (">", .gt), ("+", .plus), ("-", .minus), ("*", .mul), ("/", .div),
   ("%", .mod), ("(", .lParen), (")", .rParen), (".", .period), (":", .colon), (";", .semicolon),
   ("\\", .backslash), ("[", .lBracket), ("]", .rBracket), ("&", .ampersand), ("|", .pipe),
   ("^", .caret), ("\x7b", .lBrace), ("\x7d", .rBrace), ("#", .sharp), ("~", .tilde),
   ("!", .bang), ("@", .atSign)]

end Symbol

/-- What separates tokens. -/
inductive Gap where
  | space
  | tab
  | newline
  | lineComment (text : String)
  | blockComment (text : String)
  deriving DecidableEq, Inhabited

/-- A piece of SQL text. `number` keeps the digits as written and whether the mark `L` followed
    them. -/
inductive Token where
  | word (value : String) (quote : Option Char)
  | number (digits : String) (long : Bool)
  | string (value : String)
  | national (value : String)
  | hex (digits : String)
  | escaped (value : String)
  | unicode (value : String)
  | bytes (quote : Char) (value : String)
  | raw (quote : Char) (triple : Bool) (value : String)
  | dollar (tag : Option String) (value : String)
  | placeholder (text : String)
  | symbol (s : Symbol)
  | char (c : Char)
  | gap (g : Gap)
  deriving DecidableEq, Inhabited

/-- A token and where it starts. -/
structure Lexeme where
  token : Token
  position : Position
  deriving DecidableEq, Inhabited

/-- A gap as it is written back. -/
def Gap.text : Gap → String
  | .space => " "
  | .tab => "\t"
  | .newline => "\n"
  | .lineComment s => "--" ++ s
  | .blockComment s => "/*" ++ s ++ "*/"

/-- The name of a gap in diagnostics. -/
def Gap.describe : Gap → String
  | .space => "Space"
  | .tab => "Tab"
  | .newline => "Newline"
  | .lineComment s =>
    "SingleLineComment \x7b comment: " ++ Text.quoted s ++ ", prefix: \"--\" \x7d"
  | .blockComment s => "MultiLineComment(" ++ Text.quoted s ++ ")"

namespace Token

/-- The text between two quotes. -/
def between (quote : Char) (s : String) : String :=
  quote.toString ++ s ++ quote.toString

/-- Dollar quotes with their tag. -/
def dollarText (tag : Option String) (s : String) : String :=
  let mark := "$" ++ tag.getD "" ++ "$"
  mark ++ s ++ mark

/-- A token written back. -/
def text : Token → String
  | .word v none => v
  | .word v (some q) => between q v
  | .number d long => if long then d ++ "L" else d
  | .string s => between '\x27' s
  | .national s => "N" ++ between '\x27' s
  | .hex d => "X" ++ between '\x27' d
  | .escaped s => "E" ++ between '\x27' s
  | .unicode s => "U&" ++ between '\x27' s
  | .bytes q s => "B" ++ between q s
  | .raw q triple s =>
    let mark := if triple then String.ofList [q, q, q] else q.toString
    "R" ++ mark ++ s ++ mark
  | .dollar tag s => dollarText tag s
  | .placeholder s => s
  | .symbol s => s.text
  | .char c => c.toString
  | .gap g => g.text

/-- The keyword that a word is, in capitals. A quoted word is none. -/
def keyword? : Token → Option String
  | .word v none =>
    let k := Keyword.capitals v
    if Keyword.all.contains k then some k else none
  | _ => none

/-- The name of a quoted token's kind by the quote it has. -/
def quoteKind (single double : String) (quote : Char) : String :=
  if quote = '\x27' then single else double

/-- A token as diagnostics describe it. -/
def describe (t : Token) : String :=
  match t with
  | .word v q =>
    let style := match q with
      | some c => "Some(" ++ Text.quotedLetter c ++ ")"
      | none => "None"
    "Word(Word \x7b value: " ++ Text.quoted v ++ ", quote_style: " ++ style ++ ", keyword: " ++
      (keyword? t).getD "NoKeyword" ++ " \x7d)"
  | .number d long =>
    "Number(" ++ Text.quoted d ++ ", " ++ (if long then "true" else "false") ++ ")"
  | .string s => "SingleQuotedString(" ++ Text.quoted s ++ ")"
  | .national s => "NationalStringLiteral(" ++ Text.quoted s ++ ")"
  | .hex d => "HexStringLiteral(" ++ Text.quoted d ++ ")"
  | .escaped s => "EscapedStringLiteral(" ++ Text.quoted s ++ ")"
  | .unicode s => "UnicodeStringLiteral(" ++ Text.quoted s ++ ")"
  | .bytes q s =>
    quoteKind "SingleQuotedByteStringLiteral(" "DoubleQuotedByteStringLiteral(" q ++
      Text.quoted s ++ ")"
  | .raw q triple s =>
    (if triple then "Triple" else "") ++
      quoteKind "SingleQuotedRawStringLiteral(" "DoubleQuotedRawStringLiteral(" q ++
      Text.quoted s ++ ")"
  | .dollar tag s =>
    let mark := match tag with
      | some n => "Some(" ++ Text.quoted n ++ ")"
      | none => "None"
    "DollarQuotedString(DollarQuotedString \x7b value: " ++ Text.quoted s ++ ", tag: " ++ mark ++
      " \x7d)"
  | .placeholder s => "Placeholder(" ++ Text.quoted s ++ ")"
  | .symbol s => s.name
  | .char c => "Char(" ++ Text.quotedLetter c ++ ")"
  | .gap g => "Whitespace(" ++ g.describe ++ ")"

/-- A token that may be missing, as diagnostics describe it. -/
def describe? : Option Token → String
  | some t => "Some(" ++ t.describe ++ ")"
  | none => "None"

def isGap : Token → Bool
  | .gap _ => true
  | _ => false

/-- The token is the given word without quotes, in any case of the letters a to z. -/
def isWord (word : String) : Token → Bool
  | .word v none => Text.sameName v word
  | _ => false

/-- Tokens written back one after the other. -/
def render (ts : List Token) : String :=
  String.join (ts.map text)

end Token

end StreamSql
