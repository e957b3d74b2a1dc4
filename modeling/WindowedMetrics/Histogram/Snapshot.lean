/-
A view of a distribution at one point in time.
-/
import WindowedMetrics.Number.Dyadic

namespace WindowedMetrics

/-- A quantile: the fraction of values at or below it, and its value. -/
structure Quantile where
  fraction : Float
  value : Float

/-- The number of samples between the previous bound and this one. -/
structure Bucket where
  bound : Float
  count : UInt64

/-- Count, sum and maximum, with the percentiles and bucket counts that are
published. -/
structure Snapshot where
  count : UInt64
  total : Float
  max : Float
  percentiles : List Quantile
  buckets : List Bucket

namespace Snapshot

/-- A snapshot without percentiles and buckets. -/
def scalar (count : UInt64) (total max : Float) : Snapshot :=
  ⟨count, total, max, [], []⟩

/-- The snapshot of a distribution that never saw a sample. -/
def empty : Snapshot := scalar 0 0.0 0.0

/-- The arithmetic mean; zero without samples. -/
def mean (s : Snapshot) : Float :=
  if s.count = 0 then 0.0 else s.total / s.count.toFloat

def hasPercentiles (s : Snapshot) : Bool := !s.percentiles.isEmpty

def hasBuckets (s : Snapshot) : Bool := !s.buckets.isEmpty

end Snapshot

end WindowedMetrics
