/-
  Streaming windows, the planner's `WindowExpression`: how the rows of a stream are cut into groups
  by time. A duration is a number of nanoseconds; the clause can write milliseconds and coarser
  units.
-/
namespace StreamSql

/-- A length of time in nanoseconds. -/
structure Duration where
  nanos : Nat
  deriving DecidableEq, Inhabited, Hashable

namespace Duration

def ofMillis (n : Nat) : Duration := ⟨n * 1000000⟩

def ofSeconds (n : Nat) : Duration := ⟨n * 1000000000⟩

/-- The whole seconds of a duration. -/
def seconds (d : Duration) : Nat := d.nanos / 1000000000

/-- The whole milliseconds of a duration. -/
def millis (d : Duration) : Nat := d.nanos / 1000000

/-- What is left of a duration after its whole seconds, in nanoseconds. -/
def subsecond (d : Duration) : Nat := d.nanos % 1000000000

/-- A duration in the unit that a window shows it in: milliseconds if it has any beyond its whole
    seconds or no whole second at all, otherwise seconds. -/
def text (d : Duration) : String :=
  if d.subsecond / 1000000 ≠ 0 || d.seconds = 0 then toString d.millis ++ " MILLISECONDS"
  else toString d.seconds ++ " SECONDS"

end Duration

/-- A streaming window. -/
inductive Window where
  | tumbling (size : Duration)
  | hopping (size advance : Duration)
  | session (gap : Duration)
  deriving DecidableEq, Inhabited, Hashable

/-- A window as its clause would be written. -/
def Window.text : Window → String
  | .tumbling size => "TUMBLING (SIZE " ++ size.text ++ ")"
  | .hopping size advance =>
    "HOPPING (SIZE " ++ size.text ++ ", ADVANCE BY " ++ advance.text ++ ")"
  | .session gap => "SESSION (" ++ gap.text ++ ")"

end StreamSql
