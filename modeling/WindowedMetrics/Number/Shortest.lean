/-
The shortest decimal that reads back as a given float.  Every decimal grid
from one digit upwards is tried in exact arithmetic; the first grid with a
point inside the rounding interval wins.
-/
import WindowedMetrics.Number.Dyadic

namespace WindowedMetrics

/-- The number `coefficient * 10^exponent`. -/
structure Decimal where
  coefficient : Nat
  exponent : Int
deriving Repr, DecidableEq

namespace Decimal

/-- The number of decimal digits of `n`; one for zero. -/
def length (n : Nat) : Nat :=
  if n < 10 then 1 else length (n / 10) + 1

/-- The same number without trailing zeros in the coefficient. -/
def strip (d : Decimal) : Decimal :=
  if h : d.coefficient = 0 ∨ d.coefficient % 10 ≠ 0 then d
  else strip ⟨d.coefficient / 10, d.exponent + 1⟩
termination_by d.coefficient
decreasing_by simp only [not_or] at h; omega

end Decimal

/-- An interval of positive rationals around a value, all three over one
denominator.  `closed` tells whether the end points belong to it. -/
structure RoundingInterval where
  low : Nat
  value : Nat
  high : Nat
  denominator : Nat
  closed : Bool
deriving Repr, DecidableEq

namespace RoundingInterval

/-- The reals that round to a positive dyadic.  Below a power of two the
spacing halves, so the lower end is nearer; ties go to even mantissas, so
only these own their end points. -/
def ofDyadic (d : Dyadic) : RoundingInterval :=
  let narrow := d.mantissa = 1 <<< 52 ∧ -1074 < d.exponent
  let value := 4 * d.mantissa
  let low := if narrow then value - 1 else value - 2
  let high := value + 2
  let closed := decide (d.mantissa % 2 = 0)
  let scale := 1 <<< (d.exponent - 2).natAbs
  if 2 ≤ d.exponent then ⟨low * scale, value * scale, high * scale, 1, closed⟩
  else ⟨low, value, high, scale, closed⟩

/-- The exponent `p` with `10^p ≤ value / denominator < 10^(p+1)`. -/
def magnitude (i : RoundingInterval) : Int :=
  let guess := (Decimal.length i.value : Int) - Decimal.length i.denominator
  let reached :=
    if 0 ≤ guess then i.denominator * Nat.pow 10 guess.natAbs ≤ i.value
    else i.denominator ≤ i.value * Nat.pow 10 guess.natAbs
  if reached then guess else guess - 1

/-- The interval measured in units of `10^exponent`. -/
def rescale (i : RoundingInterval) (exponent : Int) : RoundingInterval :=
  let power := Nat.pow 10 exponent.natAbs
  if 0 ≤ exponent then { i with denominator := i.denominator * power }
  else { i with low := i.low * power, value := i.value * power,
                high := i.high * power }

/-- Whether the integer `n` lies in the interval. -/
def covers (i : RoundingInterval) (n : Nat) : Bool :=
  let scaled := n * i.denominator
  if i.closed then i.low ≤ scaled && scaled ≤ i.high
  else i.low < scaled && scaled < i.high

/-- The integer of the interval that is nearest to its value, if the interval
holds one; of two equally near the larger. -/
def nearest? (i : RoundingInterval) : Option Nat :=
  let below := i.value / i.denominator
  let above := below + 1
  let upper := 2 * (i.value % i.denominator) ≥ i.denominator
  match i.covers below, i.covers above with
  | true, true => some (if upper then above else below)
  | true, false => some below
  | false, true => some above
  | false, false => none

/-- The first decimal found on the grids with `digits`, `digits + 1`, …
digits. -/
def shortestFrom (i : RoundingInterval) (digits : Nat) : Nat → Decimal
  | 0 => ⟨i.value / i.denominator, 0⟩
  | tries + 1 =>
      let exponent := i.magnitude + 1 - digits
      match (i.rescale exponent).nearest? with
      | some coefficient => ⟨coefficient, exponent⟩
      | none => shortestFrom i (digits + 1) tries

end RoundingInterval

/-- The decimal with the fewest digits that rounds to a positive dyadic, and
the nearest such.  Seventeen digits always suffice. -/
def Dyadic.shortest (d : Dyadic) : Decimal :=
  if d.mantissa = 0 then ⟨0, 0⟩
  else ((RoundingInterval.ofDyadic d).shortestFrom 1 17).strip

end WindowedMetrics
