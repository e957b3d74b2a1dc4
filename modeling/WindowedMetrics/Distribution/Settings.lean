/-
What is kept of a distribution besides its count, sum and maximum: client
side percentiles, bucket counts, the expected range, and how long values
stay.  Every setting may be left open and filled in from a parent.
-/
import WindowedMetrics.Distribution.Ladder
import WindowedMetrics.Text.Display
import WindowedMetrics.Time.Duration

namespace WindowedMetrics

/-- Why no histogram can be built from a configuration. -/
inductive DistributionError
  | zeroBufferLength
  | emptyRotationInterval (expiry : Duration) (bufferLength : Nat)
  | precisionOutOfRange (digits : Nat)
  | invertedRange (min max : Float)
  | invalidPercentile (percentile : Float)

/-- The wording of an error. -/
def DistributionError.message : DistributionError → String
  | zeroBufferLength => "histogram buffer length must be at least 1"
  | emptyRotationInterval expiry bufferLength =>
      "histogram expiry of " ++ expiry.text ++ " split over " ++
        toString bufferLength ++ " buffers leaves empty rotation intervals"
  | precisionOutOfRange digits =>
      "percentile precision " ++ toString digits ++ " is out of range (0..=5)"
  | invertedRange min max =>
      "minimum expected value " ++ FloatFormat.plain.write min ++
        " exceeds maximum expected value " ++ FloatFormat.plain.write max
  | invalidPercentile percentile =>
      "percentile " ++ FloatFormat.plain.write percentile ++
        " is outside of [0, 1]"

/-- Settings of a distribution.  `ladder` asks for the default bucket ladder,
`objectives` are bounds of their own, `expiry` is split over `bufferLength`
sub-histograms. -/
structure DistributionSettings where
  percentiles : Option (List Float)
  precision : Option Nat
  ladder : Option Bool
  objectives : Option (List Float)
  min : Option Float
  max : Option Float
  expiry : Option Duration
  bufferLength : Option Nat

namespace DistributionSettings

/-- Nothing is set. -/
def empty : DistributionSettings :=
  ⟨none, none, none, none, none, none, none, none⟩

instance : Inhabited DistributionSettings := ⟨empty⟩

/-- A configuration that sets the expected range alone. -/
def ofRange (min max : Float) : DistributionSettings :=
  { empty with min := some min, max := some max }

/-- Fills every open setting from `parent`. -/
def merge (c parent : DistributionSettings) : DistributionSettings where
  percentiles := c.percentiles.or parent.percentiles
  precision := c.precision.or parent.precision
  ladder := c.ladder.or parent.ladder
  objectives := c.objectives.or parent.objectives
  min := c.min.or parent.min
  max := c.max.or parent.max
  expiry := c.expiry.or parent.expiry
  bufferLength := c.bufferLength.or parent.bufferLength

/-- The percentiles to compute; none by default. -/
def percentileList (c : DistributionSettings) : List Float :=
  c.percentiles.getD []

/-- Significant decimal digits kept for percentiles; one by default. -/
def digits (c : DistributionSettings) : Nat :=
  c.precision.getD 1

/-- Whether the default ladder is published. -/
def usesLadder (c : DistributionSettings) : Bool :=
  c.ladder.getD false

/-- The explicit bucket bounds. -/
def objectiveList (c : DistributionSettings) : List Float :=
  c.objectives.getD []

/-- The least expected value; one by default. -/
def minimum (c : DistributionSettings) : Float :=
  c.min.getD 1.0

/-- The largest expected value; unbounded by default. -/
def maximum (c : DistributionSettings) : Float :=
  c.max.getD (1.0 / 0.0)

/-- How long a value stays in a decaying histogram; two minutes by default. -/
def lifetime (c : DistributionSettings) : Duration :=
  c.expiry.getD (.ofSeconds 120)

/-- The number of sub-histograms; three by default. -/
def slots (c : DistributionSettings) : Nat :=
  c.bufferLength.getD 3

/-- Whether percentiles are computed. -/
def publishesPercentiles (c : DistributionSettings) : Bool :=
  !c.percentileList.isEmpty

/-- Whether bucket counts are kept. -/
def publishesBuckets (c : DistributionSettings) : Bool :=
  c.usesLadder || !c.objectiveList.isEmpty

/-- The bucket bounds: ascending, each once, and infinity at the end; none
when no buckets are published. -/
def upperBounds (c : DistributionSettings) : List Float :=
  if c.publishesBuckets then
    let rungs :=
      if c.usesLadder then ladderBetween c.minimum c.maximum else []
    let finite := rungs ++ c.objectiveList.filter Float.isFinite
    (finite.mergeSort totalLe).eraseReps ++ [1.0 / 0.0]
  else []

/-- Whether a number is a fraction from zero to one. -/
def isFraction (p : Float) : Bool :=
  0.0 ≤ p && p ≤ 1.0

/-- Checks that a histogram can be built; the first fault wins. -/
def check (c : DistributionSettings) : Except DistributionError Unit :=
  if c.slots = 0 then .error .zeroBufferLength
  else if c.lifetime.millis / c.slots = 0 then
    .error (.emptyRotationInterval c.lifetime c.slots)
  else if 5 < c.digits then .error (.precisionOutOfRange c.digits)
  else if c.minimum.isNaN || c.maximum.isNaN ||
      decide (c.maximum < c.minimum) then
    .error (.invertedRange c.minimum c.maximum)
  else
    match c.percentileList.find? fun p => !isFraction p with
    | some p => .error (.invalidPercentile p)
    | none => .ok ()

/-- The display form, which shows the open settings as such. -/
def display (c : DistributionSettings) : String :=
  let floats := fun (xs : List Float) => Display.list (xs.map Display.float)
  Display.record "DistributionConfig"
    [("percentiles", Display.optional (c.percentiles.map floats)),
     ("percentile_precision", Display.optional (c.precision.map toString)),
     ("percentile_histogram", Display.optional (c.ladder.map Display.bool)),
     ("service_level_objectives",
       Display.optional (c.objectives.map floats)),
     ("minimum_expected_value", Display.optional (c.min.map Display.float)),
     ("maximum_expected_value", Display.optional (c.max.map Display.float)),
     ("expiry", Display.optional (c.expiry.map Duration.text)),
     ("buffer_length", Display.optional (c.bufferLength.map toString))]

end DistributionSettings

end WindowedMetrics
