/-
The histogram behind cumulative reports.  Bucket counts run from creation, so
that they always add up to the count they are reported with; percentiles
decay in a ring.
-/
import WindowedMetrics.Histogram.Ring

namespace WindowedMetrics

/-- Bucket counts with their layout, and a ring for percentiles; either may
be missing. -/
structure CumulativeHistogram where
  buckets : Option (SlotPlan × Slot)
  percentiles : Option RingHistogram

namespace CumulativeHistogram

/-- An empty histogram.  The expiry and the ring length matter only if there
are percentiles. -/
def create (plan : SlotPlan) (expiry : Duration) (length : Nat)
    (now : Int) : Except DistributionError CumulativeHistogram :=
  let buckets := plan.withoutPercentiles?.map fun l => (l, l.emptySlot)
  match plan.withoutBuckets? with
  | none => .ok ⟨buckets, none⟩
  | some l =>
      (RingHistogram.create l expiry length now).map fun ring =>
        ⟨buckets, some ring⟩

/-- Records a sample in both parts. -/
def record (h : CumulativeHistogram) (now : Int) (value : Float) :
    CumulativeHistogram :=
  ⟨h.buckets.map fun b => (b.1, b.1.record b.2 value),
    h.percentiles.map (·.record now value)⟩

/-- The percentiles as of `now` beside the bucket counts of all time. -/
def snapshot (h : CumulativeHistogram) (now : Int) (count : UInt64)
    (total max : Float) : Snapshot × CumulativeHistogram :=
  let counted :=
    match h.buckets with
    | none => []
    | some (plan, slot) =>
        (plan.snapshot [slot] count total max).buckets
  match h.percentiles with
  | none => ({ Snapshot.scalar count total max with buckets := counted }, h)
  | some ring =>
      let (snapshot, ring) := ring.snapshot now count total max
      ({ snapshot with buckets := counted },
        { h with percentiles := some ring })

/-- The bucket bounds. -/
def bounds (h : CumulativeHistogram) : Array Float :=
  (h.buckets.map (·.1.bounds)).getD #[]

end CumulativeHistogram

end WindowedMetrics
