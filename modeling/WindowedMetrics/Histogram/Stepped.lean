/-
The histogram behind delta reports: one slot collects the step in progress
and another holds the step that closed last.  Snapshots read only the closed
one, so consecutive reports never overlap.
-/
import WindowedMetrics.Histogram.Slot
import WindowedMetrics.Step.Tracker

namespace WindowedMetrics

/-- `filling` collects the step in progress, `closed` holds the last one. -/
structure SteppedHistogram where
  plan : SlotPlan
  filling : Slot
  closed : Slot
  tracker : StepTracker

namespace SteppedHistogram

/-- An empty histogram whose first step contains `now`. -/
def create (plan : SlotPlan) (step : Duration) (now : Int) :
    SteppedHistogram :=
  ⟨plan, plan.emptySlot, plan.emptySlot, StepTracker.starting step now⟩

/-- Moves to the step of `now`.  A step that is not directly before the new
one is forgotten. -/
def rollover (h : SteppedHistogram) (now : Int) : SteppedHistogram :=
  match h.tracker.due? now with
  | none => h
  | some rollover =>
      { h with
        filling := h.closed.reset
        closed := if rollover.contiguous then h.filling else h.filling.reset
        tracker := h.tracker.advance now }

/-- Records a sample into the step of `now`. -/
def record (h : SteppedHistogram) (now : Int) (value : Float) :
    SteppedHistogram :=
  let h := h.rollover now
  { h with filling := h.plan.record h.filling value }

/-- The last closed step as seen at `now`. -/
def snapshot (h : SteppedHistogram) (now : Int) (count : UInt64)
    (total max : Float) : Snapshot × SteppedHistogram :=
  let h := h.rollover now
  (h.plan.snapshot [h.closed] count total max, h)

/-- Closes the step in progress whatever the time, once. -/
def close (h : SteppedHistogram) : SteppedHistogram :=
  if h.tracker.isClosed then h
  else
    { h with
      filling := h.closed.reset
      closed := h.filling
      tracker := h.tracker.close }

end SteppedHistogram

end WindowedMetrics
