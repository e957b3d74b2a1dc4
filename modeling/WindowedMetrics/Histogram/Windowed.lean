/-
Histograms whose contents are bounded to a window of time, in their three
kinds.
-/
import WindowedMetrics.Histogram.Cumulative
import WindowedMetrics.Histogram.Stepped

namespace WindowedMetrics

/-- How a histogram forgets: by expiry, never for bucket counts, or at the
end of each step. -/
inductive Retention
  | decaying
  | cumulative
  | step (length : Duration)
deriving DecidableEq

/-- A histogram of one of the three modes. -/
inductive Histogram
  | decaying (ring : RingHistogram)
  | cumulative (histogram : CumulativeHistogram)
  | stepped (histogram : SteppedHistogram)

namespace Histogram

/-- The histogram of a given layout and mode. -/
def ofPlan (plan : SlotPlan) (c : DistributionSettings)
    (mode : Retention) (now : Int) : Except DistributionError Histogram :=
  match mode with
  | .decaying =>
      (RingHistogram.create plan c.lifetime c.slots now).map .decaying
  | .cumulative =>
      (CumulativeHistogram.create plan c.lifetime c.slots now).map
        .cumulative
  | .step length => .ok (.stepped (SteppedHistogram.create plan length now))

/-- The histogram that a configuration asks for, without checking it first;
none if nothing is published. -/
def createUnchecked (c : DistributionSettings) (mode : Retention)
    (now : Int) : Except DistributionError (Option Histogram) :=
  match SlotPlan.ofConfig? c with
  | none => .ok none
  | some plan => (ofPlan plan c mode now).map some

/-- The histogram that a valid configuration asks for. -/
def create (c : DistributionSettings) (mode : Retention) (now : Int) :
    Except DistributionError (Option Histogram) :=
  match c.check with
  | .error fault => .error fault
  | .ok () => createUnchecked c mode now

/-- Records a sample at `now`. -/
def record (h : Histogram) (now : Int) (value : Float) : Histogram :=
  match h with
  | decaying ring => decaying (ring.record now value)
  | cumulative h => cumulative (h.record now value)
  | stepped h => stepped (h.record now value)

/-- The live contents as of `now`, with the given scalar statistics. -/
def snapshot (h : Histogram) (now : Int) (count : UInt64)
    (total max : Float) : Snapshot × Histogram :=
  match h with
  | decaying ring =>
      let (snapshot, ring) := ring.snapshot now count total max
      (snapshot, decaying ring)
  | cumulative h =>
      let (snapshot, h) := h.snapshot now count total max
      (snapshot, cumulative h)
  | stepped h =>
      let (snapshot, h) := h.snapshot now count total max
      (snapshot, stepped h)

/-- The bucket bounds, ending with infinity; none without buckets. -/
def bounds : Histogram → Array Float
  | decaying ring => ring.plan.bounds
  | cumulative h => h.bounds
  | stepped h => h.plan.bounds

/-- The number of slots that the histogram cycles through. -/
def slotCount : Histogram → Nat
  | decaying ring => ring.slots.size
  | cumulative h => (h.percentiles.map (·.slots.size)).getD 1
  | stepped _ => 2

/-- The closing rollover, where there is one. -/
def close : Histogram → Histogram
  | decaying ring => decaying ring
  | cumulative h => cumulative h
  | stepped h => stepped h.close

end Histogram

end WindowedMetrics
