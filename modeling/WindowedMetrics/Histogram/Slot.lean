/-
One slot of a windowed histogram: bucket counts, log-linear counts, or both,
as the layout shared by all slots of the histogram lays down.
-/
import WindowedMetrics.Distribution.Settings
import WindowedMetrics.Histogram.BucketCounts
import WindowedMetrics.Histogram.LogLinear
import WindowedMetrics.Histogram.Snapshot

namespace WindowedMetrics

/-- What every slot records.  No bounds means no bucket counts.  For
percentiles, values are cut to the range from `min` to `max` and counted in
units of `1 / scale`. -/
structure SlotPlan where
  bounds : Array Float
  logLinear : Option LogLinearGrid
  percentiles : List Float
  min : Float
  max : Float
  scale : Float

/-- The counts of one slot. -/
structure Slot where
  buckets : Option BucketCounts
  logLinear : Option LogLinearTally

/-- Forgets all samples. -/
def Slot.reset (s : Slot) : Slot :=
  ⟨s.buckets.map BucketCounts.reset, s.logLinear.map LogLinearTally.reset⟩

namespace SlotPlan

/-- The layout that a configuration asks for; none if it publishes neither
buckets nor percentiles.  One unit of the log-linear counts is the least
expected value over `10^digits`, so that every value in range keeps that many
digits, fractions included. -/
def ofConfig? (c : DistributionSettings) : Option SlotPlan :=
  let min := c.minimum
  let max := c.maximum
  let scale :=
    if 0.0 < min && min.isFinite then power 10.0 c.digits / min else 1.0
  let highest :=
    if max.isFinite then ceilSaturating (max * scale) else maxUInt64
  let logLinear :=
    if c.publishesPercentiles then some (LogLinearGrid.of highest c.digits)
    else none
  let bounds := c.upperBounds
  if bounds.isEmpty && logLinear.isNone then none
  else some ⟨bounds.toArray, logLinear, c.percentileList, min, max, scale⟩

/-- The same layout without percentiles, if it has buckets. -/
def withoutPercentiles? (l : SlotPlan) : Option SlotPlan :=
  if l.bounds.isEmpty then none else some { l with logLinear := none }

/-- The same layout without buckets, if it has percentiles. -/
def withoutBuckets? (l : SlotPlan) : Option SlotPlan :=
  if l.logLinear.isNone then none else some { l with bounds := #[] }

/-- A slot without samples. -/
def emptySlot (l : SlotPlan) : Slot :=
  ⟨BucketCounts.ofBounds? l.bounds, l.logLinear.map LogLinearTally.empty⟩

/-- A value cut to the expected range. -/
def clampValue (l : SlotPlan) (value : Float) : Float :=
  if value < l.min then l.min
  else if l.max < value then l.max
  else value

/-- The log-linear unit that a value is counted in. -/
def unitOf (l : SlotPlan) (value : Float) : Nat :=
  ceilSaturating (l.clampValue value * l.scale)

/-- Records one sample; NaN leaves no trace. -/
def record (l : SlotPlan) (slot : Slot) (value : Float) : Slot :=
  if value.isNaN then slot
  else
    ⟨slot.buckets.map (·.record value),
      slot.logLinear.map (·.record (l.unitOf value))⟩

/-- The bucket counts of several slots together. -/
def mergedBuckets (l : SlotPlan) (slots : List Slot) : Array UInt64 :=
  slots.foldl (fun totals slot =>
      match slot.buckets with
      | some buckets => buckets.addTo totals
      | none => totals)
    (Array.replicate l.bounds.size 0)

/-- The log-linear counts of several slots together. -/
def mergedLogLinear (grid : LogLinearGrid) (slots : List Slot) :
    LogLinearTally :=
  slots.foldl (fun counts slot =>
      match slot.logLinear with
      | some logLinear => counts.merge logLinear
      | none => counts)
    (LogLinearTally.empty grid)

/-- The value at a percentile in the unit that samples are recorded in; zero
without samples. -/
def percentileValue (l : SlotPlan) (counts : LogLinearTally)
    (percentile : Float) : Float :=
  if counts.total = 0 then 0.0
  else countToFloat (counts.valueAtRank percentile) / l.scale

/-- The snapshot of several slots together, with scalar statistics that are
kept elsewhere. -/
def snapshot (l : SlotPlan) (slots : List Slot) (count : UInt64)
    (total max : Float) : Snapshot where
  count := count
  total := total
  max := max
  percentiles :=
    match l.logLinear with
    | none => []
    | some grid =>
        let counts := mergedLogLinear grid slots
        l.percentiles.map fun p => ⟨p, l.percentileValue counts p⟩
  buckets :=
    List.zipWith Bucket.mk l.bounds.toList
      (l.mergedBuckets slots).toList

end SlotPlan

end WindowedMetrics
