/-
Time cut into steps of one length, and the tracking of the step in progress.
A tracker only ever moves forward: it hands out one rollover for each step
it leaves, and none after it was closed.
-/
import WindowedMetrics.Text.Display
import WindowedMetrics.Time.Duration
import WindowedMetrics.Time.Word

namespace WindowedMetrics

/-- A move from one step in progress to a later one. -/
structure StepMove where
  left : Int
  entered : Int
deriving Repr, DecidableEq

/-- Whether the new step directly follows the one that is left.  If not, at
least one whole step passed unseen and what was left is already stale. -/
def StepMove.contiguous (r : StepMove) : Bool :=
  decide (r.entered = r.left + 1)

/-- The step in progress, in steps of `stepMillis` milliseconds. -/
structure StepTracker where
  stepMillis : Int
  current : Int
deriving Repr, DecidableEq

namespace StepTracker

/-- The step index that marks a closed tracker; no time reaches past it. -/
def closedStep : Int := maxInt64

/-- The length of a step in milliseconds; at least one. -/
def lengthMillis (step : Duration) : Int :=
  max (wrapInt64 step.millis) 1

/-- The tracker whose step in progress contains `now`. -/
def starting (step : Duration) (now : Int) : StepTracker :=
  ⟨lengthMillis step, now.tdiv (lengthMillis step)⟩

/-- The index of the step that contains `now`; division toward zero, so the
steps on both sides of the epoch share the index zero. -/
def stepAt (b : StepTracker) (now : Int) : Int :=
  now.tdiv b.stepMillis

/-- Whether the tracker was closed. -/
def isClosed (b : StepTracker) : Bool :=
  decide (b.current = closedStep)

/-- The wall time at which the step in progress started. -/
def windowStart (b : StepTracker) : Int :=
  clampInt64 (b.current * b.stepMillis)

/-- The rollover that is due at `now`, if a later step has begun. -/
def due? (b : StepTracker) (now : Int) : Option StepMove :=
  if b.current < b.stepAt now then some ⟨b.current, b.stepAt now⟩ else none

/-- The tracker after the rollover that is due at `now`, if any. -/
def advance (b : StepTracker) (now : Int) : StepTracker :=
  match b.due? now with
  | some rollover => { b with current := rollover.entered }
  | none => b

/-- The tracker closed for good. -/
def close (b : StepTracker) : StepTracker :=
  { b with current := closedStep }

/-- The display form.  The step is shown twice: as taken over and as made
visible, which never differ between two operations. -/
def display (b : StepTracker) : String :=
  Display.record "StepBoundary"
    [("step_millis", toString b.stepMillis),
     ("claimed", toString b.current),
     ("published", toString b.current)]

theorem stepMillis_advance (b : StepTracker) (now : Int) :
    (b.advance now).stepMillis = b.stepMillis := by
  unfold advance
  split <;> rfl

/-- The step in progress is the latest step seen so far. -/
theorem current_advance (b : StepTracker) (now : Int) :
    (b.advance now).current = max b.current (b.stepAt now) := by
  unfold advance due?
  by_cases h : b.current < b.stepAt now
  · simp only [h, ↓reduceIte]
    omega
  · simp only [h, ↓reduceIte]
    omega

end StepTracker

end WindowedMetrics
