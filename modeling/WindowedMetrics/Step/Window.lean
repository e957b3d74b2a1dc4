/-
A rolling accumulator.  It collects into the step in progress and shows the
value of the step before it; the move from one step to the next happens on
the first read or write that sees the boundary.
-/
import WindowedMetrics.Step.Accumulator
import WindowedMetrics.Step.Tracker

namespace WindowedMetrics

/-- `current` collects the step in progress, `previous` holds the step that
closed last. -/
structure RollingWindow {V : Type} (acc : Accumulator V) where
  tracker : StepTracker
  current : V
  previous : V

namespace RollingWindow

variable {V : Type} {acc : Accumulator V}

/-- An empty window whose first step contains `now`. -/
def starting (acc : Accumulator V) (step : Duration) (now : Int) :
    RollingWindow acc :=
  ⟨StepTracker.starting step now, acc.identity, acc.identity⟩

/-- Moves to the step of `now` if a later one than the present has begun.
`last` folds a final contribution into the step that is left.  A step that
is not directly before the new one reads as the identity. -/
def rolloverWith (w : RollingWindow acc) (now : Int) (last : V → V) :
    RollingWindow acc :=
  match w.tracker.due? now with
  | none => w
  | some rollover =>
      { tracker := w.tracker.advance now
        current := acc.identity
        previous :=
          if rollover.contiguous then last w.current else acc.identity }

/-- Moves to the step of `now`. -/
def rollover (w : RollingWindow acc) (now : Int) : RollingWindow acc :=
  w.rolloverWith now id

/-- Merges a value into the step in progress at `now`. -/
def record (w : RollingWindow acc) (now : Int) (value : V) :
    RollingWindow acc :=
  let w := w.rollover now
  { w with current := acc.merge w.current value }

/-- The value of the last closed step as seen at `now`. -/
def poll (w : RollingWindow acc) (now : Int) : V × RollingWindow acc :=
  let w := w.rollover now
  (w.previous, w)

/-- Like `poll`, with a last change to the step in progress if it closes by
this call. -/
def pollWith (w : RollingWindow acc) (now : Int) (last : V → V) :
    V × RollingWindow acc :=
  let w := w.rolloverWith now last
  (w.previous, w)

/-- Like `poll`, with a value that is merged into the step in progress if it
closes by this call. -/
def pollAdding (w : RollingWindow acc) (now : Int) (value : V) :
    V × RollingWindow acc :=
  w.pollWith now (acc.merge · value)

/-- The value of the step in progress so far. -/
def latest (w : RollingWindow acc) (now : Int) : V × RollingWindow acc :=
  let w := w.rollover now
  (w.current, w)

/-- Closes the step in progress whatever the time.  The window never rolls
over again, and closing it again changes nothing. -/
def close (w : RollingWindow acc) : RollingWindow acc :=
  if w.tracker.isClosed then w
  else
    { tracker := w.tracker.close
      current := acc.identity
      previous := w.current }

/-- The display form, given one of the held values. -/
def display (w : RollingWindow acc) (value : V → String) : String :=
  Display.record "StepWindow"
    [("boundary", w.tracker.display),
     ("current", value w.current),
     ("previous", value w.previous)]

end RollingWindow

end WindowedMetrics
