/-
  A script is a list of statements with semicolons between them (`parse_sql` of the parser). Each is
  split into its envelope, its window clause and its query (`parse_statement`). The query is written
  back as text and read again, because only then do the grammar's tokens stand as they would alone;
  the words and their positions are those of the script. They are found by the places of the tokens
  in the statement, not by the tokens that the query is written from.
-/
import StreamSql.Grammar.Sentence
import StreamSql.Script.Envelope
import StreamSql.Script.WindowClause
import StreamSql.Text.Blank

namespace StreamSql.Script

/-- A word of a query and where it starts in the script. -/
structure Word where
  value : String
  location : Location
  deriving DecidableEq, Inhabited

/-- A statement of a script in its parts. -/
structure Entry where
  text : String
  envelope : Envelope
  window : Option Window
  words : List Word
  query : Grammar.Query
  deriving Inhabited

/-- The parts of the tokens between semicolons. -/
def chunks : List Lexeme → List (List Lexeme)
  | [] => [[]]
  | l :: r =>
    if l.token = .symbol .semicolon then [] :: chunks r
    else match chunks r with
      | c :: cs => (l :: c) :: cs
      | [] => [[l]]

/-- The word that a token of the script is. -/
def wordOf? (l : Lexeme) : Option Word :=
  match l.token with
  | .word v _ => some ⟨v, l.position.narrow⟩
  | _ => none

/-- The statements in a text, with so many levels for nesting. -/
def sentences (limit : Nat) (text : String) : Except Error (List Grammar.Sentence) :=
  match Lexeme.scan text with
  | .error _ => .error (.parse .grammar)
  | .ok ls =>
    match Grammar.Sentence.parseAll limit ((ls.map Lexeme.token).filter (!·.isGap)) with
    | .ok ss => .ok ss
    | .error .unexpected => .error (.parse .grammar)
    | .error .tooDeep => .error (.tooDeep limit)

/-- The only query in a text. -/
def onlyQuery (limit : Nat) (text : String) : Except Error Grammar.Query := do
  match ← sentences limit text with
  | [.query q] => return q
  | [s] => .error (.unsupported (.statement s.text))
  | ss => .error (.parse (.statementCount ss.length))

/-- The fault of a part as an error. -/
def orFail {α : Type} : Except ParseFault α → Except Error α
  | .ok a => .ok a
  | .error f => .error (.parse f)

/-- The words of a body, without those at the places of its window clause. -/
def wordsOutside (clause : Option WindowClause) (located : List Lexeme) : List Word :=
  (located.zipIdx.filter fun p => !clause.any fun c => c.start ≤ p.2 && p.2 < c.stop).filterMap
    fun p => wordOf? p.1

/-- Splits the tokens of a statement into its parts. -/
def Entry.parse (limit : Nat) (located : List Lexeme) : Except Error Entry := do
  let tokens := located.map Lexeme.token
  let (envelope, body) ← orFail (Envelope.split tokens)
  let bodyStart := tokens.length - body.length
  let (clause, remaining) ← orFail (WindowClause.extract body)
  let words := wordsOutside clause (located.drop bodyStart)
  let query ← onlyQuery limit (Token.render remaining)
  return { text := Text.trim (Token.render tokens), envelope, window := clause.map WindowClause.window,
           words, query }

/-- The statements of a script in their parts. -/
def parse (limit : Nat) (sql : String) : Except Error (List Entry) :=
  match Lexeme.scan sql with
  | .error e => .error (.parse (.scan e))
  | .ok ls => do
    let filled := (chunks ls).filter (!·.all (·.token.isGap))
    let entries ← filled.mapM (Entry.parse limit)
    if entries.isEmpty then .error (.parse .noStatement) else return entries

end StreamSql.Script
