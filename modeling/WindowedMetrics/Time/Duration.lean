/-
Lengths of time with nanosecond resolution, and their text.
-/
import WindowedMetrics.Number.Layout

namespace WindowedMetrics

/-- A length of time in nanoseconds. -/
structure Duration where
  nanos : Nat
deriving Repr, DecidableEq, Inhabited

namespace Duration

/-- The longest whole number of seconds that a duration is built from. -/
def maxSeconds : Nat := UInt64.size - 1

def ofNanos (n : Nat) : Duration := ⟨n⟩

def ofMicros (n : Nat) : Duration := ⟨n * 1000⟩

def ofMillis (n : Nat) : Duration := ⟨n * 1000000⟩

def ofSeconds (n : Nat) : Duration := ⟨n * 1000000000⟩

/-- Whole seconds. -/
def seconds (d : Duration) : Nat := d.nanos / 1000000000

/-- Nanoseconds past the last whole second. -/
def subsecond (d : Duration) : Nat := d.nanos % 1000000000

/-- Whole milliseconds, rounded down. -/
def millis (d : Duration) : Nat := d.nanos / 1000000

/-- `nanos / unit` in full: the whole part, and the fraction without its
trailing zeros. -/
def inUnit (nanos unit : Nat) (symbol : String) : String :=
  let digits := Nat.toDigits 10 (unit + nanos % unit)
  let fraction := ((digits.drop 1).reverse.dropWhile (· = '0')).reverse
  digitText (nanos / unit) ++
    (if fraction.isEmpty then "" else "." ++ String.ofList fraction) ++ symbol

/-- The text of a duration, in the largest unit that it fills. -/
def text (d : Duration) : String :=
  if 1000000000 ≤ d.nanos then inUnit d.nanos 1000000000 "s"
  else if 1000000 ≤ d.nanos then inUnit d.nanos 1000000 "ms"
  else if 1000 ≤ d.nanos then inUnit d.nanos 1000 "µs"
  else inUnit d.nanos 1 "ns"

end Duration

end WindowedMetrics
