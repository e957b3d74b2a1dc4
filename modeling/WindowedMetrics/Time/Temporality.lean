/-
The two ways of reporting a meter over time.
-/
import WindowedMetrics.Text.Ascii
import WindowedMetrics.Text.Blank

namespace WindowedMetrics

/-- Cumulative values run from the creation of a meter; delta values cover
the last closed step alone. -/
inductive Temporality
  | cumulative
  | delta
deriving Repr, DecidableEq, Inhabited

namespace Temporality

/-- The lower-case name. -/
def text : Temporality → String
  | cumulative => "cumulative"
  | delta => "delta"

/-- The name inside displayed settings. -/
def name : Temporality → String
  | cumulative => "Cumulative"
  | delta => "Delta"

/-- Reads a temporality by its name, in any case and with blanks around it.
The error quotes the text that was looked up. -/
def read (text : String) : Except String Temporality :=
  match lowerAscii (trim text) with
  | "cumulative" => .ok cumulative
  | "delta" => .ok delta
  | other =>
      .error (s!"unknown aggregation temporality `{other}`, " ++
        "expected `cumulative` or `delta`")

end Temporality

end WindowedMetrics
