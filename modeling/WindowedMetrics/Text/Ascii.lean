/-
Letter case of ASCII text.  All other characters are left as they are.
-/

namespace WindowedMetrics

/-- Upper-case ASCII letters made lower case. -/
def lowerAscii (text : String) : String :=
  text.map fun c => if 'A' ≤ c ∧ c ≤ 'Z' then Char.ofNat (c.toNat + 32) else c

end WindowedMetrics
