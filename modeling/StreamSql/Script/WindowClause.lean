/-
  The streaming window clause. It is taken out of a statement's body before the grammar sees it
  (`extract_window` of the parser). The word WINDOW begins such a clause only if a kind of streaming
  window follows.
-/
import StreamSql.Error
import StreamSql.Script.Reading

namespace StreamSql

/-- A window clause that was taken out of a body: its first place there, and the one after it. -/
structure WindowClause where
  window : Window
  start : Nat
  stop : Nat
  deriving DecidableEq, Inhabited

namespace WindowClause

open Token (peek? take? takeKeyword? takeSymbol? takeWord?)

/-! ## Finding the clause -/

/-- The words for the kinds of streaming windows. -/
def kinds : List String :=
  ["TUMBLING", "HOPPING", "SESSION"]

/-- The next token names a kind of streaming window. -/
def namesKind (ts : List Token) : Bool :=
  match peek? ts with
  | some t => kinds.any (t.isWord ·)
  | none => false

/-- The place of the word WINDOW that begins the first clause. -/
def find? : List Token → Option Nat
  | [] => none
  | t :: r =>
    if t.isWord "WINDOW" && namesKind r then some 0 else (find? r).map (· + 1)

/-! ## Durations -/

/-- A time unit of a window clause. -/
inductive ClockUnit where
  | millisecond
  | second
  | minute
  | hour
  | day
  deriving DecidableEq, Inhabited

/-- A word without the letters S at its end. -/
def dropPlural (word : String) : String :=
  String.ofList (word.toList.reverse.dropWhile (· = 'S')).reverse

/-- The unit that a word in capitals names, in the singular or the plural. -/
def ClockUnit.ofName? (word : String) : Option ClockUnit :=
  match dropPlural word with
  | "MILLISECOND" => some .millisecond
  | "SECOND" => some .second
  | "MINUTE" => some .minute
  | "HOUR" => some .hour
  | "DAY" => some .day
  | _ => none

/-- Whole seconds, as many as 64 bits hold. -/
def wholeSeconds (n : Nat) : Except ParseFault Duration :=
  if n < UInt64.size then .ok (.ofSeconds n) else .error .durationRange

/-- So many of a unit. -/
def ClockUnit.times (amount : Nat) : ClockUnit → Except ParseFault Duration
  | .millisecond => .ok (.ofMillis amount)
  | .second => wholeSeconds amount
  | .minute => wholeSeconds (amount * 60)
  | .hour => wholeSeconds (amount * 3600)
  | .day => wholeSeconds (amount * 86400)

/-- A number without the sign that it may have. -/
def withoutPlus (digits : String) : List Char :=
  match digits.toList with
  | '+' :: cs => cs
  | cs => cs

/-- A whole number of at most 64 bits. -/
def amount? (digits : String) : Option Nat :=
  let cs := withoutPlus digits
  let n := cs.foldl (fun n c => 10 * n + (c.toNat - 48)) 0
  if cs.all Char.isDigit && !cs.isEmpty && n < UInt64.size then some n else none

/-- An amount and a unit. -/
def duration (ts : List Token) : Except ParseFault (Duration × List Token) :=
  match take? ts with
  | some (.number digits _, r) =>
    match amount? digits with
    | none => .error (.durationAmount digits)
    | some amount =>
      match takeWord? r with
      | none => .error .missingUnit
      | some (word, r) =>
        let name := Text.upper word
        match ClockUnit.ofName? name with
        | none => .error (.unknownUnit name)
        | some unit => do
          let d ← unit.times amount
          if d.nanos = 0 then .error .durationZero else return (d, r)
  | found => .error (.missingDuration (found.map Prod.fst))

/-! ## The clause -/

def expectSymbol (s : Symbol) (ts : List Token) : Except ParseFault (List Token) :=
  match takeSymbol? s ts with
  | some r => .ok r
  | none => .error (.windowSymbol s (peek? ts))

def expectWord (word : String) (ts : List Token) : Except ParseFault (List Token) :=
  match takeKeyword? word ts with
  | some r => .ok r
  | none => .error (.windowWord word (peek? ts))

/-- The size of a window after its kind. -/
def size (ts : List Token) : Except ParseFault (Duration × List Token) := do
  let r ← expectSymbol .lParen ts
  let r ← expectWord "SIZE" r
  duration r

/-- A window after the word WINDOW, up to its closing parenthesis. Nothing if no kind comes next. -/
def window? (ts : List Token) : Except ParseFault (Option (Window × List Token)) :=
  match takeKeyword? "TUMBLING" ts with
  | some r => do
    let (size, r) ← size r
    return some (.tumbling size, r)
  | none =>
    match takeKeyword? "HOPPING" ts with
    | some r => do
      let (size, r) ← size r
      let r ← expectSymbol .comma r
      let r ← expectWord "ADVANCE" r
      let r ← expectWord "BY" r
      let (advance, r) ← duration r
      if size.nanos < advance.nanos then .error .advanceExceedsSize
      else return some (.hopping size advance, r)
    | none =>
      match takeKeyword? "SESSION" ts with
      | some r => do
        let r ← expectSymbol .lParen r
        let (gap, r) ← duration r
        return some (.session gap, r)
      | none => return none

/-- Takes the streaming window clause out of a statement's body, if it has one, and leaves the
    tokens around it. Two are an error. -/
def extract (body : List Token) : Except ParseFault (Option WindowClause × List Token) :=
  match find? body with
  | none => .ok (none, body)
  | some start => do
    match ← window? (body.drop (start + 1)) with
    | none => return (none, body)
    | some (window, r) =>
      let after ← expectSymbol .rParen r
      let remaining := body.take start ++ after
      if (find? remaining).isSome then .error .secondWindow
      else return (some ⟨window, start, body.length - after.length⟩, remaining)

end WindowClause

end StreamSql
