/-
  Reading a statement's tokens from the front, as the parser's `Cursor` does. Gaps before a token
  are skipped; gaps after it stay with the rest.
-/
import StreamSql.Token.Basic

namespace StreamSql

namespace Token

/-- The tokens from the next one that is no gap. -/
def significant : List Token → List Token :=
  List.dropWhile isGap

/-- The next token that is no gap. -/
def peek? (ts : List Token) : Option Token :=
  (significant ts).head?

/-- Takes the next token that is no gap. -/
def take? (ts : List Token) : Option (Token × List Token) :=
  match significant ts with
  | t :: r => some (t, r)
  | [] => none

/-- Takes the word without quotes, in any case of its letters. -/
def takeKeyword? (word : String) (ts : List Token) : Option (List Token) :=
  match significant ts with
  | t :: r => if t.isWord word then some r else none
  | [] => none

/-- Takes the symbol. -/
def takeSymbol? (s : Symbol) (ts : List Token) : Option (List Token) :=
  match significant ts with
  | t :: r => if t = .symbol s then some r else none
  | [] => none

/-- Takes a word. -/
def takeWord? (ts : List Token) : Option (String × List Token) :=
  match significant ts with
  | .word v _ :: r => some (v, r)
  | _ => none

end Token

end StreamSql
