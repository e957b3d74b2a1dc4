/-
Counts per bucket over a fixed list of upper bounds.  A sample belongs to
the first bucket whose bound is not below it.
-/
import WindowedMetrics.Distribution.Ladder

namespace WindowedMetrics

/-- Bucket counts modulo `2^64`, one for each bound. -/
structure BucketCounts where
  bounds : Array Float
  counts : Array UInt64

namespace BucketCounts

/-- Zero counts; without bounds there is nothing to count. -/
def ofBounds? (bounds : Array Float) : Option BucketCounts :=
  if bounds.isEmpty then none
  else some ⟨bounds, Array.replicate bounds.size 0⟩

/-- The bucket that a sample belongs to; the number of buckets for a sample
above every bound. -/
def bucketOf (bounds : Array Float) (sample : Float) : Nat :=
  frontLength bounds (· < sample)

/-- Counts one sample.  Samples above the last bound are not counted. -/
def record (b : BucketCounts) (sample : Float) : BucketCounts :=
  { b with counts := b.counts.modify (bucketOf b.bounds sample) (· + 1) }

/-- Adds the counts to a list of totals, bucket by bucket. -/
def addTo (b : BucketCounts) (totals : Array UInt64) : Array UInt64 :=
  totals.mapIdx fun i total => total + b.counts.getD i 0

/-- Forgets all samples. -/
def reset (b : BucketCounts) : BucketCounts :=
  { b with counts := b.counts.map fun _ => 0 }

end BucketCounts

/-- Running totals: counts of samples at or below each bound. -/
def runningTotals (total : UInt64) : List UInt64 → List UInt64
  | [] => []
  | count :: rest => (total + count) :: runningTotals (total + count) rest

/-- Per-bucket counts turned into counts of samples at or below each bound. -/
def cumulativeCounts (counts : List UInt64) : List UInt64 :=
  runningTotals 0 counts

end WindowedMetrics
