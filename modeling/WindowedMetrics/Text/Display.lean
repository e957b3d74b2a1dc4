/-
The display form of structured values: records with named fields, lists,
tuples, optional values and quoted text.
-/
import WindowedMetrics.Number.Layout
import WindowedMetrics.Text.Printable

namespace WindowedMetrics.Display

/-- Items between an opening and a closing mark. -/
def enclosed (opening closing : String) (items : List String) : String :=
  opening ++ ", ".intercalate items ++ closing

/-- A list, as in `[1, 2]`. -/
def list (items : List String) : String :=
  enclosed "[" "]" items

/-- A tuple, as in `(1, 2)`. -/
def tuple (items : List String) : String :=
  enclosed "(" ")" items

/-- An optional value. -/
def optional (item : Option String) : String :=
  match item with
  | none => "None"
  | some text => enclosed "Some(" ")" [text]

/-- A record with all of its fields. -/
def record (name : String) (fields : List (String × String)) : String :=
  let items := fields.map fun field => field.1 ++ ": " ++ field.2
  enclosed (name ++ " \x7b ") " \x7d" items

/-- A record with fields that are not shown. -/
def openRecord (name : String) (fields : List (String × String)) : String :=
  let items := fields.map fun field => field.1 ++ ": " ++ field.2
  enclosed (name ++ " \x7b ") " \x7d" (items ++ [".."])

/-- A truth value. -/
def bool (value : Bool) : String :=
  if value then "true" else "false"

/-- A float, always with a fractional part or an exponent. -/
def float (value : Float) : String :=
  FloatFormat.explicit.write value

/-- The escape of a character inside quotes: quotes, backslashes and the
common controls have short forms, characters that do not print are written
by number. -/
def escape (c : Char) : List Char :=
  match c with
  | '\x00' => ['\\', '0']
  | '\t' => ['\\', 't']
  | '\n' => ['\\', 'n']
  | '\r' => ['\\', 'r']
  | '"' => ['\\', '"']
  | '\\' => ['\\', '\\']
  | c =>
      if isPrintable c then [c]
      else ['\\', 'u', '\x7b'] ++ Nat.toDigits 16 c.toNat ++ ['\x7d']

/-- Text between quotes. -/
def quoted (text : String) : String :=
  "\"" ++ String.ofList (text.toList.flatMap escape) ++ "\""

end WindowedMetrics.Display
