/-
Finite floats as exact dyadic numbers, and the roundings that are decided on
the exact value: the least integer above a float, saturated to 64 bits, and
the total order of the bit patterns.
-/

namespace WindowedMetrics

/-- The number `(-1)^negative * mantissa * 2^exponent`. -/
structure Dyadic where
  negative : Bool
  mantissa : Nat
  exponent : Int
deriving Repr, DecidableEq

namespace Dyadic

/-- The exact value of a finite float; `none` for NaN and the infinities.
Subnormals share the smallest exponent and lack the implicit leading bit. -/
def ofFloat? (x : Float) : Option Dyadic :=
  let bits : Nat := x.toBits.toNat
  let negative := decide (1 <<< 63 ≤ bits)
  let biased : Nat := (bits >>> 52) % 2048
  let fraction : Nat := bits % (1 <<< 52)
  if biased = 2047 then none
  else if biased = 0 then some ⟨negative, fraction, -1074⟩
  else some ⟨negative, fraction + (1 <<< 52), (biased : Int) - 1075⟩

/-- The least integer that is not below the value. -/
def ceil (d : Dyadic) : Int :=
  let scale : Nat := 1 <<< d.exponent.natAbs
  match d.negative, decide (0 ≤ d.exponent) with
  | false, true => (d.mantissa * scale : Nat)
  | false, false => ((d.mantissa + (scale - 1)) / scale : Nat)
  | true, true => -(d.mantissa * scale : Nat)
  | true, false => -(d.mantissa / scale : Nat)

end Dyadic

/-- The largest value of an unsigned 64-bit word. -/
def maxUInt64 : Nat := UInt64.size - 1

/-- The least integer not below `x`, cut to the unsigned 64-bit range; NaN
counts as zero. -/
def ceilSaturating (x : Float) : Nat :=
  match Dyadic.ofFloat? x with
  | some d => min d.ceil.toNat maxUInt64
  | none => if 0.0 < x then maxUInt64 else 0

/-- Natural numbers below `2^64` as floats, rounded to nearest even. -/
def countToFloat (n : Nat) : Float :=
  n.toUInt64.toFloat

/-- The key of the total order on floats: by sign, then by magnitude, with
negative zero below positive zero and NaN above all other values. -/
def totalKey (x : Float) : Int :=
  let bits : Nat := x.toBits.toNat
  let sign : Nat := 1 <<< 63
  if sign ≤ bits then -((bits - sign : Nat) : Int) - 1 else bits

/-- Comparison of floats by their total order. -/
def totalLe (x y : Float) : Bool :=
  decide (totalKey x ≤ totalKey y)

/-- The larger of two floats.  A NaN on either side loses, and of two equal
values the first is kept. -/
def peak (x y : Float) : Float :=
  if y.isNaN then x
  else if x.isNaN then y
  else if x < y then y
  else x

/-- `result * base^n` by repeated squaring, in the order in which the
products are rounded. -/
def powerLoop (result base : Float) (n : Nat) : Float :=
  let result := if n % 2 = 1 then result * base else result
  if h : n / 2 = 0 then result
  else powerLoop result (base * base) (n / 2)
termination_by n
decreasing_by omega

/-- `base^n` for a natural exponent. -/
def power (base : Float) (n : Nat) : Float :=
  powerLoop 1.0 base n

example : ceilSaturating 2.0 = 2 := by decide +kernel
example : ceilSaturating 2.25 = 3 := by decide +kernel
example : ceilSaturating (-2.25) = 0 := by decide +kernel

end WindowedMetrics
