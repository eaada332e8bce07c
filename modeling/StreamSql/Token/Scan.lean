/-
  From SQL text to tokens: the `Tokenizer` of the `sqlparser` library in its generic dialect. Every
  character advances the column, a line feed starts a line, and a carriage return with or without a
  line feed is one gap. Words start with a letter, an underscore, `#` or `@`; the longest symbol
  wins; comments between `/*` and `*/` nest.
-/
import StreamSql.Text.Blank
import StreamSql.Text.Letter
import StreamSql.Text.Numeral
import StreamSql.Token.Basic

namespace StreamSql

/-- Why text cannot be cut into tokens. -/
inductive ScanFault where
  | openString
  | openName (quote : Char)
  | openComment
  | openEscaped
  | openUnicode
  | unfinishedCode
  | badCodeDigit (c : Char)
  | badCode (n : Nat)
  | openDollar
  | openDollarTag
  deriving DecidableEq, Inhabited

/-- A fault and the position it is reported at. -/
structure ScanError where
  fault : ScanFault
  position : Position
  deriving DecidableEq, Inhabited

def ScanFault.text : ScanFault → String
  | .openString => "Unterminated string literal"
  | .openName q => "Expected close delimiter '" ++ q.toString ++ "' before EOF."
  | .openComment => "Unexpected EOF while in a multi-line comment"
  | .openEscaped => "Unterminated encoded string literal"
  | .openUnicode => "Unterminated unicode encoded string literal"
  | .unfinishedCode => "Unexpected EOF while parsing hex digit in escaped unicode string."
  | .badCodeDigit c => "Invalid hex digit in escaped unicode string: " ++ c.toString
  | .badCode n => "Invalid unicode character: " ++ String.ofList (Nat.toDigits 16 n)
  | .openDollar => "Unterminated dollar-quoted string"
  | .openDollarTag => "Unterminated dollar-quoted, expected $"

def ScanError.message (e : ScanError) : String :=
  e.fault.text ++ " at Line: " ++ toString e.position.line ++ ", Column: " ++
    toString e.position.column

/-- What is left of a text, and where that starts. -/
structure Cursor where
  rest : List Char
  position : Position
  deriving DecidableEq, Inhabited

namespace Cursor

/-- The start of a text. -/
def start (cs : List Char) : Cursor := ⟨cs, ⟨1, 1⟩⟩

/-- Go over the first `n` characters. -/
def skip : Nat → Cursor → Cursor
  | 0, c => c
  | _ + 1, ⟨[], l⟩ => ⟨[], l⟩
  | n + 1, ⟨c :: r, l⟩ => skip n ⟨r, l.after c⟩

/-- The longest start of the text whose characters pass the test, and the cursor after it. -/
def span (p : Char → Bool) (c : Cursor) : List Char × Cursor :=
  let taken := c.rest.takeWhile p
  (taken, ⟨c.rest.dropWhile p, taken.foldl Position.after c.position⟩)

def fail {α : Type} (c : Cursor) (fault : ScanFault) : Except ScanError α :=
  .error ⟨fault, c.position⟩

end Cursor

namespace Scan

/-- A word can start with this character. -/
def isWordStart (c : Char) : Bool :=
  Text.isLetter c || c = '_' || c = '#' || c = '@'

/-- A word can go on with this character. -/
def isWordPart (c : Char) : Bool :=
  Text.isLetter c || c.isDigit || c = '@' || c = '$' || c = '#' || c = '_'

def isHexDigit (c : Char) : Bool :=
  c.isDigit || ('a' ≤ c && c ≤ 'f') || ('A' ≤ c && c ≤ 'F')

/-- The value of a digit of a base up to sixteen. -/
def digitValue? (base : Nat) (c : Char) : Option Nat :=
  let v :=
    if c.isDigit then c.toNat - 48
    else if 'a' ≤ c && c ≤ 'f' then c.toNat - 87
    else if 'A' ≤ c && c ≤ 'F' then c.toNat - 55
    else 16
  if v < base then some v else none

/-- The number that digits of a base spell, with an optional plus sign before them. -/
def digitsValue? (base : Nat) (ds : List Char) : Option Nat :=
  let ds := match ds with
    | '+' :: d :: r => d :: r
    | _ => ds
  if ds.isEmpty then none
  else ds.foldl (fun n c => do return base * (← n) + (← digitValue? base c)) (some 0)

/-- The character with a code point. -/
def charOf? (n : Nat) : Option Char :=
  if h : n.isValidChar then some (Char.ofNatAux n h) else none

/-! ## Quoted text -/

/-- The character that a backslash before `c` stands for. -/
def unescape (c : Char) : Char :=
  match c with
  | '0' => '\x00'
  | 'a' => '\x07'
  | 'b' => '\x08'
  | 'f' => '\x0c'
  | 'n' => '\n'
  | 'r' => '\x0d'
  | 't' => '\t'
  | 'Z' => '\x1a'
  | _ => c

/-- The content of quoted text up to the closing quote, a doubled quote standing for one. With
    `escapes`, a backslash changes the meaning of the character after it. -/
def quotedBody (quote : Char) (escapes : Bool) :
    List Char → Position → Option (List Char × Cursor)
  | [], _ => none
  | c :: r, l =>
    if c = quote then
      match r with
      | d :: r' =>
        if d = quote then
          (quotedBody quote escapes r' ((l.after c).after d)).map fun (s, k) => (c :: s, k)
        else some ([], ⟨d :: r', l.after c⟩)
      | [] => some ([], ⟨[], l.after c⟩)
    else if escapes && c = '\\' then
      match r with
      | d :: r' =>
        (quotedBody quote escapes r' ((l.after c).after d)).map fun (s, k) => (unescape d :: s, k)
      | [] => none
    else (quotedBody quote escapes r (l.after c)).map fun (s, k) => (c :: s, k)

/-- Quoted text whose opening quote is the next character. -/
def quoted (quote : Char) (escapes : Bool) (fault : ScanFault) (c : Cursor) :
    Except ScanError (String × Cursor) :=
  let inside := c.skip 1
  match quotedBody quote escapes inside.rest inside.position with
  | some (s, k) => .ok (String.ofList s, k)
  | none => c.fail fault

/-- The content of text between triple quotes. `seen` counts the quotes just before. -/
def tripleBody (quote : Char) : Nat → List Char → Position → Option (List Char × Cursor)
  | _, [], _ => none
  | seen, c :: r, l =>
    if c = quote then
      if seen = 2 then some ([], ⟨r, l.after c⟩)
      else (tripleBody quote (seen + 1) r (l.after c)).map fun (s, k) => (c :: s, k)
    else (tripleBody quote 0 r (l.after c)).map fun (s, k) => (c :: s, k)

/-- Text between one or three quotes in which a backslash is an ordinary character. -/
def raw (quote : Char) (c : Cursor) : Except ScanError (Token × Cursor) :=
  match (c.rest.takeWhile (· = quote)).length with
  | 0 => c.fail .openString
  | 1 =>
    let inside := c.skip 1
    match quotedBody quote false inside.rest inside.position with
    | some (s, k) => .ok (.raw quote false (String.ofList s), k)
    | none => inside.fail .openString
  | 2 => .ok (.raw quote false "", c.skip 2)
  | _ =>
    let inside := c.skip 3
    match tripleBody quote 0 inside.rest inside.position with
    | some (s, k) => .ok (.raw quote true (String.ofList (s.take (s.length - 2))), k)
    | none => inside.fail .openString

/-- The character of a byte that was written in a base; only the low eight bits count, and only
    characters below 128 can be written so. -/
def byteChar? (base : Nat) (ds : List Char) : Option Char := do
  let n ← digitsValue? base ds
  if n < UInt32.size then
    let b := n % 256
    if b ≤ 127 then charOf? b else none
  else none

/-- What stands after a backslash in escaped text: the character it means and how many characters
    spell it. The null character cannot be written. -/
def escapeCode? (cs : List Char) : Option (Char × Nat) := do
  let (c, n) ← match cs with
    | [] => none
    | 'b' :: _ => some ('\x08', 1)
    | 'f' :: _ => some ('\x0c', 1)
    | 'n' :: _ => some ('\n', 1)
    | 'r' :: _ => some ('\x0d', 1)
    | 't' :: _ => some ('\t', 1)
    | 'u' :: r => codePoint 4 r
    | 'U' :: r => codePoint 8 r
    | 'x' :: r =>
      let ds := (r.take 2).takeWhile isHexDigit
      if ds.isEmpty then some ('x', 1) else (byteChar? 16 ds).map (·, ds.length + 1)
    | c :: r =>
      if (digitValue? 8 c).isSome then
        let ds := c :: (r.take 2).takeWhile fun d => (digitValue? 8 d).isSome
        (byteChar? 8 ds).map (·, ds.length)
      else some (c, 1)
  if c = '\x00' then none else some (c, n)
where
  /-- A code point of a fixed number of digits. -/
  codePoint (width : Nat) (r : List Char) : Option (Char × Nat) := do
    let ds := r.take width
    if ds.length = width then
      let n ← digitsValue? 16 ds
      let c ← charOf? n
      return (c, width + 1)
    else none

/-- The content of escaped text up to the closing quote. The first argument bounds the number of
    characters. -/
def escapedBody : Nat → Cursor → Option (List Char × Cursor)
  | 0, _ => none
  | n + 1, k =>
    match k.rest with
    | [] => none
    | c :: r =>
      if c = '\x27' then
        match r with
        | '\x27' :: _ => (escapedBody n (k.skip 2)).map fun (s, k') => ('\x27' :: s, k')
        | _ => some ([], k.skip 1)
      else if c = '\\' then do
        let (d, width) ← escapeCode? r
        let (s, k') ← escapedBody n (k.skip (width + 1))
        return (d :: s, k')
      else (escapedBody n (k.skip 1)).map fun (s, k') => (c :: s, k')

/-- The character that a fixed number of base sixteen digits stand for. -/
def codeChar : Nat → Nat → Cursor → Except ScanError (Char × Cursor)
  | 0, value, k =>
    match charOf? value with
    | some c => .ok (c, k)
    | none => k.fail (.badCode value)
  | n + 1, value, k =>
    match k.rest with
    | [] => k.fail .unfinishedCode
    | c :: _ =>
      match digitValue? 16 c with
      | some d => codeChar n (value * 16 + d) (k.skip 1)
      | none => (k.skip 1).fail (.badCodeDigit c)

/-- The content of text whose backslashes lead in code points. The first argument bounds the
    number of characters. -/
def unicodeBody : Nat → Cursor → Except ScanError (List Char × Cursor)
  | 0, k => k.fail .openUnicode
  | n + 1, k =>
    match k.rest with
    | [] => k.fail .openUnicode
    | '\x27' :: '\x27' :: _ => do
      let (s, k') ← unicodeBody n (k.skip 2)
      return ('\x27' :: s, k')
    | '\x27' :: _ => .ok ([], k.skip 1)
    | '\\' :: '\\' :: _ => do
      let (s, k') ← unicodeBody n (k.skip 2)
      return ('\\' :: s, k')
    | '\\' :: '+' :: _ => do
      let (c, k₁) ← codeChar 6 0 (k.skip 2)
      let (s, k') ← unicodeBody n k₁
      return (c :: s, k')
    | '\\' :: _ => do
      let (c, k₁) ← codeChar 4 0 (k.skip 1)
      let (s, k') ← unicodeBody n k₁
      return (c :: s, k')
    | c :: _ => do
      let (s, k') ← unicodeBody n (k.skip 1)
      return (c :: s, k')

/-! ## Dollar quotes -/

/-- The content of text between double dollar signs. `lone` holds after a dollar sign, which
    belongs to the content unless another one follows. -/
def dollarBody : Bool → List Char → Position → Except ScanError (List Char × Cursor)
  | _, [], l => .error ⟨.openDollar, l⟩
  | lone, c :: r, l =>
    if lone then
      if c = '$' then .ok ([], ⟨r, l.after c⟩)
      else do
        let (s, k) ← dollarBody false r (l.after c)
        return ('$' :: c :: s, k)
    else if c = '$' then dollarBody true r (l.after c)
    else do
      let (s, k) ← dollarBody false r (l.after c)
      return (c :: s, k)

/-- How many characters of `tag` the text starts with. -/
def commonLength : List Char → List Char → Nat
  | t :: ts, c :: cs => if t = c then commonLength ts cs + 1 else 0
  | _, _ => 0

/-- The content of text between dollar quotes with a tag. The first argument bounds the number of
    characters. -/
def taggedBody (tag : List Char) : Nat → Cursor → Except ScanError (List Char × Cursor)
  | 0, k => k.fail .openDollarTag
  | n + 1, k =>
    let (s, k₁) := k.span (· ≠ '$')
    match k₁.rest with
    | [] => k₁.fail .openDollarTag
    | _ :: r =>
      let m := commonLength tag r
      if m = tag.length then
        let k₂ := k₁.skip (m + 1)
        match k₂.rest with
        | '$' :: _ => .ok (s, k₂.skip 1)
        | _ => do
          let (s', k') ← taggedBody tag n k₂
          return (s ++ '$' :: tag ++ s', k')
      else
        let tried := r.take (m + 1)
        let k₂ := k₁.skip (tried.length + 1)
        if tried.length = m + 1 then do
          let (s', k') ← taggedBody tag n k₂
          return (s ++ '$' :: tried ++ s', k')
        else k₂.fail .openDollarTag

/-- What a dollar sign leads in: quoted text or a placeholder. -/
def dollar (c : Cursor) : Except ScanError (Token × Cursor) :=
  match c.rest with
  | '$' :: '$' :: r => do
    let (s, k) ← dollarBody false r (c.skip 2).position
    return (.dollar none (String.ofList s), k)
  | _ =>
    let (tag, k) := (c.skip 1).span fun x => Text.isLetter x || Text.isNumeral x || x = '_'
    match k.rest with
    | '$' :: r => do
      let (s, k') ← taggedBody tag (r.length + 1) (k.skip 1)
      return (.dollar (if tag.isEmpty then none else some (String.ofList tag)) (String.ofList s), k')
    | _ => .ok (.placeholder (String.ofList ('$' :: tag)), k)

/-! ## Numbers, words, comments, symbols -/

/-- The exponent that a text starts with: the mark, an optional sign and digits. -/
def exponent : List Char → List Char
  | e :: r =>
    if e = 'e' || e = 'E' then
      let (sign, ds) := match r with
        | s :: r' => if s = '+' || s = '-' then ([s], r') else ([], r)
        | [] => ([], r)
      let ds := ds.takeWhile Char.isDigit
      if ds.isEmpty then [] else e :: sign ++ ds
    else []
  | [] => []

/-- A number, or the period that stands alone. -/
def number (c : Cursor) : Token × Cursor :=
  let (whole, k) := c.span Char.isDigit
  match k.rest with
  | 'x' :: _ =>
    if whole = ['0'] then
      let (ds, k') := (k.skip 1).span isHexDigit
      (.hex (String.ofList ds), k')
    else finish whole k
  | '.' :: _ =>
    let (fraction, k') := (k.skip 1).span Char.isDigit
    if whole.isEmpty && fraction.isEmpty then (.symbol .period, k')
    else finish (whole ++ '.' :: fraction) k'
  | _ => finish whole k
where
  /-- The exponent and the mark of a long number. -/
  finish (digits : List Char) (k : Cursor) : Token × Cursor :=
    let e := exponent k.rest
    let k := k.skip e.length
    match k.rest with
    | 'L' :: _ => (.number (String.ofList (digits ++ e)) true, k.skip 1)
    | _ => (.number (String.ofList (digits ++ e)) false, k)

/-- A word whose first `n` characters are taken as they are. -/
def word (n : Nat) (c : Cursor) : Token × Cursor :=
  let (tail, k) := (c.skip n).span isWordPart
  (.word (String.ofList (c.rest.take n ++ tail)) none, k)

/-- A comment to the end of the line, the line feed included. -/
def lineComment (c : Cursor) : Token × Cursor :=
  let (s, k) := (c.skip 2).span (· ≠ '\n')
  match k.rest with
  | _ :: _ => (.gap (.lineComment (String.ofList (s ++ ['\n']))), k.skip 1)
  | [] => (.gap (.lineComment (String.ofList s)), k)

/-- The content of a comment with `depth` more comments open around it; `last` is the character
    before. -/
def commentBody : Nat → Char → List Char → Position → Except ScanError (List Char × Cursor)
  | _, _, [], l => .error ⟨.openComment, l⟩
  | depth, last, c :: r, l =>
    if last = '*' && c = '/' then
      match depth with
      | 0 => .ok ([], ⟨r, l.after c⟩)
      | d + 1 => do
        let (s, k) ← commentBody d c r (l.after c)
        return (c :: s, k)
    else do
      let depth := if last = '/' && c = '*' then depth + 1 else depth
      let (s, k) ← commentBody depth c r (l.after c)
      return (c :: s, k)

/-- A comment between `/*` and `*/`. -/
def blockComment (c : Cursor) : Except ScanError (Token × Cursor) := do
  let inside := c.skip 2
  let (s, k) ← commentBody 0 ' ' inside.rest inside.position
  return (.gap (.blockComment (String.ofList s.dropLast)), k)

/-- The longest symbol that a text starts with, and how many characters it has. -/
def symbol? (cs : List Char) : Option (Symbol × Nat) :=
  Symbol.spellings.findSome? fun (spelling, s) =>
    if spelling.toList.isPrefixOf cs then some (s, spelling.length) else none

/-! ## The next token -/

/-- The token that starts with the character `a` before the text `r`. -/
def token (a : Char) (r : List Char) (l : Position) : Except ScanError (Token × Cursor) :=
  let c : Cursor := ⟨a :: r, l⟩
  match a, r with
  | ' ', _ => .ok (.gap .space, c.skip 1)
  | '\t', _ => .ok (.gap .tab, c.skip 1)
  | '\n', _ => .ok (.gap .newline, c.skip 1)
  | '\x0d', '\n' :: _ => .ok (.gap .newline, c.skip 2)
  | '\x0d', _ => .ok (.gap .newline, c.skip 1)
  | '\x27', _ => do
    let (s, k) ← quoted '\x27' false .openString c
    return (.string s, k)
  | '-', '-' :: _ => .ok (lineComment c)
  | '/', '*' :: _ => blockComment c
  | '$', _ => dollar c
  | '?', _ =>
    let (ds, k) := (c.skip 1).span Text.isNumeral
    .ok (.placeholder (String.ofList ('?' :: ds)), k)
  | _, _ =>
    if a = '\x22' || a = '\x60' then do
      let (s, k) ← quoted a false (.openName a) c
      return (.word s (some a), k)
    else if a.isDigit || a = '.' then .ok (number c)
    else if a = '#' || a = '@' then .ok (marked a r c)
    else if isWordStart a then lettered a r c
    else match symbol? c.rest with
      | some (s, n) => .ok (.symbol s, c.skip n)
      | none => .ok (if Text.isBlank a then .gap .space else .char a, c.skip 1)
where
  /-- A word that starts with `#` or `@`, whatever the next character is, unless a symbol stands
      there. -/
  marked (a : Char) (r : List Char) (c : Cursor) : Token × Cursor :=
    match symbol? c.rest with
    | some (.sharp, _) =>
      match r with
      | [] | ' ' :: _ => (.symbol .sharp, c.skip 1)
      | _ => word 2 c
    | some (.atSign, _) =>
      match r with
      | [] | ' ' :: _ => (.symbol .atSign, c.skip 1)
      | _ => word 2 c
    | some (.atAt, _) =>
      match r.drop 1 with
      | [] | ' ' :: _ => (.symbol .atAt, c.skip 2)
      | _ => word 3 c
    | some (s, n) => (.symbol s, c.skip n)
    | none => (.char a, c.skip 1)
  /-- A word, or quoted text that a letter leads in. -/
  lettered (a : Char) (r : List Char) (c : Cursor) : Except ScanError (Token × Cursor) :=
    match a.toUpper, r with
    | 'N', '\x27' :: _ => do
      let (s, k) ← quoted '\x27' true .openString (c.skip 1)
      return (.national s, k)
    | 'X', '\x27' :: _ => do
      let (s, k) ← quoted '\x27' true .openString (c.skip 1)
      return (.hex s, k)
    | 'B', '\x27' :: _ => do
      let (s, k) ← quoted '\x27' false .openString (c.skip 1)
      return (.bytes '\x27' s, k)
    | 'B', '\x22' :: _ => do
      let (s, k) ← quoted '\x22' false .openString (c.skip 1)
      return (.bytes '\x22' s, k)
    | 'R', '\x27' :: _ => raw '\x27' (c.skip 1)
    | 'R', '\x22' :: _ => raw '\x22' (c.skip 1)
    | 'E', '\x27' :: r' =>
      match escapedBody (r'.length + 1) (c.skip 2) with
      | some (s, k) => .ok (.escaped (String.ofList s), k)
      | none => c.fail .openEscaped
    | 'U', '&' :: '\x27' :: r' => do
      let (s, k) ← unicodeBody (r'.length + 1) (c.skip 3)
      return (.unicode (String.ofList s), k)
    | _, _ => .ok (word 1 c)

/-- The tokens of a text. The first argument bounds their number. -/
def lexemes : Nat → Cursor → Except ScanError (List Lexeme)
  | 0, _ => .ok []
  | n + 1, c =>
    match c.rest with
    | [] => .ok []
    | a :: r => do
      let (t, k) ← token a r c.position
      let ts ← lexemes n k
      return ⟨t, c.position⟩ :: ts

end Scan

/-- The tokens of a text with their positions. -/
def Lexeme.scan (text : String) : Except ScanError (List Lexeme) :=
  let cs := text.toList
  Scan.lexemes cs.length (.start cs)

end StreamSql
