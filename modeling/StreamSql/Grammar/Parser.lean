/-
  Parsers of token lists. A parser takes tokens from the front of the list and gives a result, or
  it fails and says why. The pieces here are those that every form of the language is put together
  from: the `Parser` of the `sqlparser` library in its generic dialect, with its counter of recursion.
-/
import StreamSql.Grammar.Tree

namespace StreamSql.Grammar

/-- Why tokens could not be parsed: they have no such form, or they nest too deeply. -/
inductive Fault where
  | unexpected
  | tooDeep
  deriving DecidableEq, Inhabited

/-- A parser of tokens without gaps. -/
abbrev Parser := StateT (List Token) (Except Fault)

/-- Fails because the tokens have no such form. -/
def unexpected {α : Type} : Parser α :=
  throw .unexpected

/-- Fails because the tokens nest too deeply. -/
def tooDeep {α : Type} : Parser α :=
  throw .tooDeep

/-! ## Single tokens -/

/-- The next token, which stays. -/
def peek? : Parser (Option Token) := do
  return (← get).head?

/-- Takes the next token. -/
def next : Parser Token := do
  match ← get with
  | t :: r => set r; return t
  | [] => unexpected

/-- Takes the next token if there is one. -/
def next? : Parser (Option Token) := do
  match ← get with
  | t :: r => set r; return some t
  | [] => return none

/-- The token is the keyword, in any case of its letters. -/
def isKeyword (k : String) : Token → Bool
  | .word v none => Keyword.capitals v == k
  | _ => false

/-- The word in capitals, unless it is quoted. -/
def capitalsOf? : Token → Option String
  | .word v none => some (Keyword.capitals v)
  | _ => none

/-- The next tokens begin with the keywords. -/
def beginWith : List String → List Token → Bool
  | [], _ => true
  | k :: ks, t :: ts => isKeyword k t && beginWith ks ts
  | _ :: _, [] => false

/-- The next tokens are the keywords; they stay. -/
def atKeywords (ks : List String) : Parser Bool := do
  return beginWith ks (← get)

/-- Takes the keywords if all of them come next. -/
def keywords (ks : List String) : Parser Bool := do
  let ts ← get
  if beginWith ks ts then
    set (ts.drop ks.length)
    return true
  else return false

/-- Takes the keyword if it comes next. -/
def keyword (k : String) : Parser Bool :=
  keywords [k]

/-- Takes the first of the keywords that comes next. -/
def oneOf : List String → Parser (Option String)
  | [] => return none
  | k :: ks => do
    if ← keyword k then return some k else oneOf ks

def expectKeywords (ks : List String) : Parser Unit := do
  unless ← keywords ks do unexpected

def expectKeyword (k : String) : Parser Unit :=
  expectKeywords [k]

def expectOneOf (ks : List String) : Parser String := do
  match ← oneOf ks with
  | some k => return k
  | none => unexpected

/-- The next token is the symbol; it stays. -/
def atSymbol (s : Symbol) : Parser Bool := do
  return (← get).head? == some (.symbol s)

/-- Takes the symbol if it comes next. -/
def symbol (s : Symbol) : Parser Bool := do
  match ← get with
  | t :: r => if t = .symbol s then do set r; return true else return false
  | [] => return false

def expectSymbol (s : Symbol) : Parser Unit := do
  unless ← symbol s do unexpected

/-! ## Combinations -/

/-- The result of a parser, or nothing and no token taken if the tokens do not have its form.
    Nesting too deeply still fails. -/
def attempt {α : Type} (p : Parser α) : Parser (Option α) := fun ts =>
  match p ts with
  | .ok (a, r) => .ok (some a, r)
  | .error .unexpected => .ok (none, ts)
  | .error .tooDeep => .error .tooDeep

/-- The result of a parser. Nesting too deeply fails like any other form that is not there. -/
def shallowly {α : Type} (p : Parser α) : Parser α := fun ts =>
  match p ts with
  | .ok r => .ok r
  | .error _ => .error .unexpected

/-- The result of a parser if a test of the next tokens succeeds. -/
def whenever {α : Type} (test : Parser Bool) (p : Parser α) : Parser (Option α) := do
  if ← test then return some (← p) else return none

/-- What a parser finds each time the test succeeds, at most `n` times. -/
def repeatWhile {α : Type} (test : Parser Bool) (p : Parser α) : Nat → Parser (List α)
  | 0 => return []
  | n + 1 => do
    if ← test then
      let a ← p
      return a :: (← repeatWhile test p n)
    else return []

/-- What a parser finds as often as the test succeeds. Every successful test takes a token. -/
def whileSome {α : Type} (test : Parser Bool) (p : Parser α) : Parser (List α) := do
  repeatWhile test p ((← get).length + 1)

/-- What a parser finds until it finds nothing, at most `n` times. -/
def manyUpTo {α : Type} (p : Parser (Option α)) : Nat → Parser (List α)
  | 0 => return []
  | n + 1 => do
    match ← p with
    | some a => return a :: (← manyUpTo p n)
    | none => return []

/-- What a parser finds until it finds nothing. It takes a token for everything that it finds. -/
def many {α : Type} (p : Parser (Option α)) : Parser (List α) := do
  manyUpTo p ((← get).length + 1)

/-- One or more with commas between them. -/
def commaSeparated {α : Type} (p : Parser α) : Parser (List α) := do
  let a ← p
  return a :: (← whileSome (symbol .comma) p)

/-- What stands between parentheses. -/
def parenthesized {α : Type} (p : Parser α) : Parser α := do
  expectSymbol .lParen
  let a ← p
  expectSymbol .rParen
  return a

/-- None or more with commas between them, up to the closing symbol, which stays. -/
def listUntil {α : Type} (close : Symbol) (p : Parser α) : Parser (List α) := do
  if ← atSymbol close then return [] else commaSeparated p

/-! ## Names and constants -/

/-- A word or a text in single quotes as a name. -/
def ident? : Token → Option Ident
  | .word v q => some ⟨v, q⟩
  | .string s => some ⟨s, some '\x27'⟩
  | _ => none

/-- A name. -/
def ident : Parser Ident := do
  match ident? (← next) with
  | some i => return i
  | none => unexpected

/-- More names, a period before each. -/
def periods : Parser (List Ident) :=
  whileSome (symbol .period) ident

/-- Names with periods between them. -/
def path : Parser (List Ident) := do
  let i ← ident
  return i :: (← periods)

/-- The next token as a name, or nothing if it is none. It is taken in either case. -/
def taken? : Parser (Option Ident) := do
  return (← next?).bind ident?

/-- At most `n` names with periods between them, or nothing after the first token that should be a
    name and is none. The tokens up to there are taken. -/
def takenNames? : Nat → Parser (Option (List Ident))
  | 0 => return none
  | n + 1 => do
    match ← taken? with
    | some i => if ← symbol .period then return (← takenNames? n).map (i :: ·) else return some [i]
    | none => return none

/-- Names with periods between them, or nothing, with the tokens taken in either case. -/
def takenPath? : Parser (Option (List Ident)) := do
  takenNames? ((← get).length + 1)

/-- A text constant, for which a word that is no keyword may stand too. -/
def textConstant : Parser String := do
  let t ← next
  match t with
  | .word v _ => if t.keyword?.isNone then return v else unexpected
  | .string s | .escaped s | .unicode s => return s
  | _ => unexpected

/-- A character of a text with backslashes as it is written back. -/
def backslashed (c : Char) : String :=
  match c with
  | '\x27' => "\\'"
  | '\\' => "\\\\"
  | '\n' => "\\n"
  | '\t' => "\\t"
  | '\r' => "\\r"
  | _ => c.toString

/-- A number in capital hexadecimal digits, at least so many. -/
def hexadecimal (width n : Nat) : String :=
  let digits := (Nat.toDigits 16 n).map Char.toUpper
  String.ofList (List.replicate (width - digits.length) '0' ++ digits)

/-- A character of a text with code points as it is written back. -/
def codePointed (c : Char) : String :=
  if c = '\x27' then "''"
  else if c = '\\' then "\\\\"
  else if c.toNat < 128 then c.toString
  else if c.toNat < 65536 then "\\" ++ hexadecimal 4 c.toNat
  else "\\+" ++ hexadecimal 6 c.toNat

/-- A constant that is one token. -/
def constant? : Token → Option Value
  | .number d long => some (.number d long)
  | .string s => some (.string s)
  | t@(.escaped s) => some (.other ("E'" ++ String.join (s.toList.map backslashed) ++ "'") t.describe)
  | t@(.unicode s) => some (.other ("U&'" ++ String.join (s.toList.map codePointed) ++ "'") t.describe)
  | t@(.national _) | t@(.hex _) | t@(.bytes _ _) | t@(.raw _ _ _)
  | t@(.dollar _ _) | t@(.placeholder _) => some (.other t.text t.describe)
  | _ => none

/-- A whole number of at most 64 bits. -/
def natural : Parser Nat := do
  match ← next with
  | .number d _ =>
    let n := d.toList.foldl (fun n c => 10 * n + (c.toNat - 48)) 0
    if d.toList.all Char.isDigit && n < UInt64.size then return n else unexpected
  | _ => unexpected

/-- A constant: one token, one of the words for truth values and nothing, or a named place. -/
def value : Parser Value := do
  let t ← next
  match t with
  | .word _ none =>
    match capitalsOf? t with
    | some "TRUE" => return .boolean true
    | some "FALSE" => return .boolean false
    | some "NULL" => return .null
    | _ => unexpected
  | .word v (some '\x22') =>
      return .other (inQuotes '\x22' v) ("DoubleQuotedString(" ++ Text.quoted v ++ ")")
  | .symbol .colon | .symbol .atSign =>
    let mark ← match ← next with
      | .word v _ => pure (t.text ++ v)
      | .number d false => pure (t.text ++ d)
      | _ => unexpected
    return .other mark ("Placeholder(" ++ Text.quoted mark ++ ")")
  | _ =>
    match constant? t with
    | some v => return v
    | none => unexpected

/-- A number, or a named place for one. -/
def numberValue : Parser Value := do
  match ← peek? with
  | some (.number _ _) | some (.placeholder _) | some (.symbol .colon) | some (.symbol .atSign) => value
  | _ => unexpected

/-! ## Forms that nest -/

/-- The parsers of the forms that contain each other: a term whose operators bind tighter than a
    power, a term without operators around it, a query, the body of a query whose operators bind
    tighter than a power, and a relation with its joins. Each stands for the form one level
    further in. `prior` says whether the terms stand in a hierarchy, where PRIOR is an operator, and
    `hierarchy` are terms with commas between them where it is. -/
structure Forms where
  term : Nat → Parser Term
  operand : Parser Term
  query : Parser Query
  body : Nat → Parser Body
  joined : Parser Joined
  prior : Bool
  hierarchy : Parser (List Term)

/-- Any term. -/
def Forms.expr (f : Forms) : Parser Term :=
  f.term 0

/-- Terms with commas between them. -/
def Forms.exprs (f : Forms) : Parser (List Term) :=
  commaSeparated f.expr

end StreamSql.Grammar
