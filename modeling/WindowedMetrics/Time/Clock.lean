/-
A clock with two readings: wall time in milliseconds, which can be set, and
monotonic time in nanoseconds, which only moves with the passing of time.
-/
import WindowedMetrics.Time.Duration
import WindowedMetrics.Time.Word

namespace WindowedMetrics

/-- The readings of a clock.  Wall time counts milliseconds from the epoch,
monotonic time nanoseconds from an arbitrary origin. -/
structure Clock where
  wall : Int
  monotonic : Int
deriving Repr, DecidableEq, Inhabited

namespace Clock

/-- A clock whose monotonic time is at its origin. -/
def startingAt (wall : Int) : Clock := ⟨wall, 0⟩

/-- Lets time pass.  Wall time moves by whole milliseconds, so fractions of a
millisecond are lost on every call; both readings wrap at 64 bits. -/
def advance (c : Clock) (elapsed : Duration) : Clock :=
  ⟨wrapInt64 (c.wall + elapsed.millis), wrapInt64 (c.monotonic + elapsed.nanos)⟩

/-- Moves wall time alone. -/
def setWall (c : Clock) (wall : Int) : Clock :=
  { c with wall := wall }

/-- The time from a monotonic reading to now; nothing if the reading lies
ahead. -/
def since (c : Clock) (start : Int) : Duration :=
  .ofNanos (clampInt64 (c.monotonic - start)).toNat

end Clock

example : (Clock.startingAt 10).advance (.ofNanos 999999) = ⟨10, 999999⟩ := by
  decide

end WindowedMetrics
