/-
Log-linear counts.  Small values have a counter each; from then on every
doubling of the value doubles the width of the counters, so that all values
keep the same number of significant digits.
-/
import WindowedMetrics.Number.Dyadic

namespace WindowedMetrics

/-- The shape of a log-linear count: values from 1 to `highest` with `digits`
significant decimal digits. -/
structure LogLinearGrid where
  digits : Nat
  highest : Nat
  digits_le : digits ≤ 5 := by omega
  two_le_highest : 2 ≤ highest := by omega
  highest_le : highest ≤ 1 <<< 62 := by omega
deriving DecidableEq

namespace LogLinearGrid

/-- The layout for the wanted range and digits, cut to what is supported. -/
def of (highest digits : Nat) : LogLinearGrid where
  digits := min digits 5
  highest := max 2 (min highest (1 <<< 62))

/-- The logarithm of `half`. -/
def halfMagnitude (l : LogLinearGrid) : Nat :=
  (2 * Nat.pow 10 l.digits - 1).log2

/-- Half the number of counters of one width; a power of two that reaches
`10^digits`. -/
def half (l : LogLinearGrid) : Nat :=
  1 <<< l.halfMagnitude

/-- The number of counters.  The first width has `2 * half` counters, and
every further one that the range needs adds `half`. -/
def size (l : LogLinearGrid) : Nat :=
  (l.highest.log2 - l.halfMagnitude + 2) * l.half

/-- The trackable value nearest to `value`. -/
def clamp (l : LogLinearGrid) (value : Nat) : Nat :=
  max 1 (min value l.highest)

/-- The counter that a value falls into. -/
def indexOf (l : LogLinearGrid) (value : Nat) : Nat :=
  let value := l.clamp value
  let mask := 2 * l.half - 1
  let width := (value ||| mask).log2 - l.halfMagnitude
  (width + 1) * l.half + value >>> width - l.half

/-- The least value of a counter. -/
def valueAt (l : LogLinearGrid) (index : Nat) : Nat :=
  let row := index / l.half
  let column := index % l.half
  if row = 0 then column
  else (column + l.half) <<< (row - 1)

/-- The largest value of a counter. -/
def highestAt (l : LogLinearGrid) (index : Nat) : Nat :=
  l.valueAt (index + 1) - 1

example : (of 0 0).size = 3 := by decide
example : (of 3600000000 3).indexOf 5000 = 2048 + 1024 + 226 := by
  decide +kernel

end LogLinearGrid

/-- How many values fell into each counter: the counters in use with their
counts, the highest index first, so that rising values find theirs at once. -/
structure LogLinearTally where
  grid : LogLinearGrid
  counters : List (Nat × Nat)

namespace LogLinearTally

/-- No values. -/
def empty (grid : LogLinearGrid) : LogLinearTally := ⟨grid, []⟩

/-- Adds `amount` to one of several counters in descending order. -/
def addAt (index amount : Nat) : List (Nat × Nat) → List (Nat × Nat)
  | [] => [(index, amount)]
  | (i, n) :: rest =>
      if i < index then (index, amount) :: (i, n) :: rest
      else if index = i then (i, n + amount) :: rest
      else (i, n) :: addAt index amount rest

/-- Counts one value, cut to the trackable range. -/
def record (c : LogLinearTally) (value : Nat) : LogLinearTally :=
  { c with counters := addAt (c.grid.indexOf value) 1 c.counters }

/-- The counts of two slots together. -/
def merge (c other : LogLinearTally) : LogLinearTally :=
  { c with
    counters :=
      other.counters.foldr (fun e held => addAt e.1 e.2 held) c.counters }

/-- Forgets all values. -/
def reset (c : LogLinearTally) : LogLinearTally :=
  { c with counters := [] }

/-- The number of values counted. -/
def total (c : LogLinearTally) : Nat :=
  c.counters.foldl (fun total e => total + e.2) 0

/-- The first of several counters at which the running count reaches
`target`. -/
def counterAt? (target running : Nat) : List (Nat × Nat) → Option Nat
  | [] => none
  | (index, n) :: rest =>
      if target ≤ running + n then some index
      else counterAt? target (running + n) rest

/-- The rank that a quantile asks for among `total` values; at least one. -/
def targetRank (quantile : Float) (total : Nat) : Nat :=
  let q := if 1.0 < quantile then 1.0 else quantile
  max 1 (ceilSaturating (q * countToFloat total))

/-- The value at a quantile: the highest value of the counter in which its
rank falls, the lowest for the quantile zero, and zero without values. -/
def valueAtRank (c : LogLinearTally) (quantile : Float) : Nat :=
  let ascending := c.counters.reverse
  match counterAt? (targetRank quantile c.total) 0 ascending with
  | none => 0
  | some index =>
      if quantile == 0.0 then c.grid.valueAt index
      else c.grid.highestAt index

end LogLinearTally

end WindowedMetrics
