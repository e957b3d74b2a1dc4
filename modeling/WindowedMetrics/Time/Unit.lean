/-
Units of time for reported values, and their names.
-/
import WindowedMetrics.Text.Ascii
import WindowedMetrics.Text.Blank

namespace WindowedMetrics

/-- A unit in which times are reported. -/
inductive TimeUnit
  | nanoseconds
  | microseconds
  | milliseconds
  | seconds
deriving Repr, DecidableEq, Inhabited

namespace TimeUnit

/-- Nanoseconds in one unit. -/
def sizeInNanos : TimeUnit → Float
  | nanoseconds => 1.0
  | microseconds => 1e3
  | milliseconds => 1e6
  | seconds => 1e9

/-- Nanoseconds expressed in the unit. -/
def express (unit : TimeUnit) (nanos : Float) : Float :=
  nanos / unit.sizeInNanos

/-- An amount of the unit in nanoseconds. -/
def inNanos (unit : TimeUnit) (amount : Float) : Float :=
  amount * unit.sizeInNanos

/-- The short name, which is also the default unit text of timers. -/
def symbol : TimeUnit → String
  | nanoseconds => "ns"
  | microseconds => "us"
  | milliseconds => "ms"
  | seconds => "s"

/-- The name inside displayed settings. -/
def name : TimeUnit → String
  | nanoseconds => "Nanoseconds"
  | microseconds => "Microseconds"
  | milliseconds => "Milliseconds"
  | seconds => "Seconds"

/-- Reads a unit by its symbol or full name, in any case and with blanks
around it.  The error quotes the text that was looked up. -/
def read (text : String) : Except String TimeUnit :=
  match lowerAscii (trim text) with
  | "ns" | "nanoseconds" => .ok nanoseconds
  | "us" | "microseconds" => .ok microseconds
  | "ms" | "milliseconds" => .ok milliseconds
  | "s" | "seconds" => .ok seconds
  | other => .error s!"unknown time unit `{other}`"

end TimeUnit

end WindowedMetrics
