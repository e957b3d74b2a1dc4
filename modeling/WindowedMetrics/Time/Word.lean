/-
Signed 64-bit times.  Times are integers here; the few places where a time
is cut to a 64-bit word say so by name.
-/

namespace WindowedMetrics

/-- The largest signed 64-bit number. -/
def maxInt64 : Int := 9223372036854775807

/-- The smallest signed 64-bit number. -/
def minInt64 : Int := -9223372036854775808

/-- The signed 64-bit number that agrees with `n` modulo `2^64`. -/
def wrapInt64 (n : Int) : Int := n.bmod UInt64.size

/-- The signed 64-bit number nearest to `n`. -/
def clampInt64 (n : Int) : Int := max minInt64 (min maxInt64 n)

theorem wrapInt64_le (n : Int) : wrapInt64 n ≤ maxInt64 := by
  have := Int.bmod_lt (x := n) (m := UInt64.size) (by decide)
  simp only [wrapInt64, maxInt64, UInt64.size] at *
  omega

theorem le_wrapInt64 (n : Int) : minInt64 ≤ wrapInt64 n := by
  have := Int.le_bmod (x := n) (m := UInt64.size) (by decide)
  simp only [wrapInt64, minInt64, UInt64.size] at *
  omega

theorem wrapInt64_of_mem {n : Int} (low : minInt64 ≤ n) (high : n ≤ maxInt64) :
    wrapInt64 n = n := by
  simp only [wrapInt64, maxInt64, minInt64, UInt64.size] at *
  exact Int.bmod_eq_of_le (by omega) (by omega)

end WindowedMetrics
