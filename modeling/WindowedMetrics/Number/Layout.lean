/-
How floats are written in messages: plain text, always positional, and
explicit text, which keeps a fractional part and turns to an exponent for
very large and very small magnitudes.
-/
import WindowedMetrics.Number.Shortest

namespace WindowedMetrics

/-- A way of writing floats.  `keepPoint` writes integral values with `.0`;
`positional` gives the decimal exponents `p`, as in `10^p ≤ |x| < 10^(p+1)`,
that are written without an exponent, `none` meaning all of them. -/
structure FloatFormat where
  keepPoint : Bool
  positional : Option (Int × Int)
deriving Repr, DecidableEq

/-- Plain text never has an exponent and writes integral values bare. -/
def FloatFormat.plain : FloatFormat := ⟨false, none⟩

/-- Explicit text is positional from `10^-4` up to below `10^16`, where a
fractional part is always written. -/
def FloatFormat.explicit : FloatFormat := ⟨true, some (-4, 15)⟩

/-- The decimal digits of `n`. -/
def digitText (n : Nat) : String :=
  String.ofList (Nat.toDigits 10 n)

/-- `n` zeros. -/
def zeros (n : Nat) : String :=
  String.ofList (List.replicate n '0')

namespace Decimal

/-- Positional notation. -/
def positional (keepPoint : Bool) (d : Decimal) : String :=
  let digits := Nat.toDigits 10 d.coefficient
  let count := digits.length
  let shift := d.exponent.natAbs
  if 0 ≤ d.exponent then
    String.ofList digits ++ zeros shift ++ (if keepPoint then ".0" else "")
  else if shift < count then
    String.ofList (digits.take (count - shift)) ++ "." ++
      String.ofList (digits.drop (count - shift))
  else
    "0." ++ zeros (shift - count) ++ String.ofList digits

/-- Scientific notation: one digit, the rest after a point, the exponent. -/
def scientific (d : Decimal) : String :=
  let digits := Nat.toDigits 10 d.coefficient
  let exponent := d.exponent + (digits.length : Int) - 1
  let fraction := digits.drop 1
  String.ofList (digits.take 1) ++
    (if fraction.isEmpty then "" else "." ++ String.ofList fraction) ++
    "e" ++ toString exponent

end Decimal

/-- Writes a float with the fewest digits that read back. -/
def FloatFormat.write (f : FloatFormat) (x : Float) : String :=
  match Dyadic.ofFloat? x with
  | none =>
      if x.isNaN then "NaN" else if 0.0 < x then "inf" else "-inf"
  | some d =>
      let sign := if d.negative then "-" else ""
      let shortest := d.shortest
      let magnitude :=
        shortest.exponent + (Decimal.length shortest.coefficient : Int) - 1
      let isPositional :=
        match f.positional with
        | none => true
        | some (low, high) =>
            decide (d.mantissa = 0 ∨ low ≤ magnitude ∧ magnitude ≤ high)
      sign ++
        (if isPositional then shortest.positional f.keepPoint
         else shortest.scientific)

end WindowedMetrics
