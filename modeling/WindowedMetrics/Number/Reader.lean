/-
Reading numbers from text: unsigned whole numbers below a bound, and floats
in decimal or scientific notation with the names of the special values.
-/
import WindowedMetrics.Number.Dyadic
import WindowedMetrics.Text.Ascii

namespace WindowedMetrics

/-- The value of a list of decimal digits, most significant first. -/
def digitsValue (digits : List Char) : Nat :=
  digits.foldl (fun value c => 10 * value + (c.toNat - '0'.toNat)) 0

/-- An unsigned number: an optional plus sign and at least one digit, below
`bound`. -/
def readUnsigned? (bound : Nat) (text : String) : Option Nat :=
  let digits :=
    match text.toList with
    | '+' :: rest => rest
    | other => other
  if digits.isEmpty || !digits.all Char.isDigit then none
  else
    let value := digitsValue digits
    if value < bound then some value else none

/-- The leading digits of a text, and what follows them. -/
def spanDigits (text : List Char) : List Char × List Char :=
  (text.takeWhile Char.isDigit, text.dropWhile Char.isDigit)

/-- The exponent part of a number: nothing at all, or the letter `e`, an
optional sign and at least one digit. -/
def readExponent? : List Char → Option Int
  | [] => some 0
  | mark :: rest =>
      if mark = 'e' ∨ mark = 'E' then
        let (negative, digits) :=
          match rest with
          | '-' :: digits => (true, digits)
          | '+' :: digits => (false, digits)
          | digits => (false, digits)
        if digits.isEmpty || !digits.all Char.isDigit then none
        else
          let value : Int := digitsValue digits
          some (if negative then -value else value)
      else none

/-- The float nearest to `coefficient * 10^exponent`.  Numbers far outside the
range of floats are settled by their digit count alone, so an exponent of any
length is cheap. -/
def floatOfDecimal (coefficient : Nat) (exponent : Int) : Float :=
  let magnitude := (Nat.toDigits 10 coefficient).length + exponent
  if coefficient = 0 ∨ magnitude < -330 then 0.0
  else if 330 < magnitude then 1.0 / 0.0
  else Float.ofScientific coefficient (decide (exponent < 0)) exponent.natAbs

/-- An unsigned decimal number: digits with an optional point, at least one
digit in all, and an optional exponent. -/
def readMagnitude? (text : List Char) : Option Float :=
  let (whole, rest) := spanDigits text
  let (fraction, rest) :=
    match rest with
    | '.' :: rest => spanDigits rest
    | rest => ([], rest)
  if whole.isEmpty && fraction.isEmpty then none
  else
    (readExponent? rest).map fun exponent =>
      floatOfDecimal (digitsValue (whole ++ fraction))
        (exponent - fraction.length)

/-- The names of the values that have no digits, in any case. -/
def readSpecial? (text : List Char) : Option Float :=
  let name := lowerAscii (String.ofList text)
  if name = "inf" ∨ name = "infinity" then some (1.0 / 0.0)
  else if name = "nan" then some (0.0 / 0.0)
  else none

/-- A float: an optional sign before a number or a special name. -/
def readFloat? (text : String) : Option Float :=
  let read := fun (chars : List Char) =>
    (readMagnitude? chars).or (readSpecial? chars)
  match text.toList with
  | '-' :: rest => (read rest).map fun x => -x
  | '+' :: rest => read rest
  | chars => read chars

end WindowedMetrics
