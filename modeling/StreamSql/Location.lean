/-
  Positions. The scanner counts lines and columns of a script from one (`Position`). What is kept
  with a node of a syntax tree and named in diagnostics is a `NodeLocation`, two numbers of 32 bits
  (`Location`), where line zero stands for a position that is not known.
-/
namespace StreamSql

/-- A line and a column as diagnostics name them. -/
structure Location where
  line : UInt32
  column : UInt32
  deriving DecidableEq, Inhabited, Hashable

namespace Location

/-- The position of what was not read from a script. -/
def unknown : Location := ⟨0, 0⟩

def isKnown (l : Location) : Bool :=
  0 < l.line

/-- The position in words. -/
def text (l : Location) : String :=
  if l.isKnown then "line " ++ toString l.line ++ ":" ++ toString l.column
  else "unknown location"

end Location

/-- A line and a column of a script. -/
structure Position where
  line : Nat
  column : Nat
  deriving DecidableEq, Inhabited

namespace Position

/-- The position after a character that stands here. -/
def after (p : Position) (c : Char) : Position :=
  if c = '\n' then ⟨p.line + 1, 1⟩ else ⟨p.line, p.column + 1⟩

/-- The position in 32 bits each; higher bits are lost. -/
def narrow (p : Position) : Location :=
  ⟨.ofNat p.line, .ofNat p.column⟩

end Position

end StreamSql
