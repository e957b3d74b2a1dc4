/-
Distributions: the common part of timers and summaries.  Count and sum share
a window; maximum, histogram and exemplars have windows of their own.
-/
import WindowedMetrics.Meter.Counter

namespace WindowedMetrics

/-- Count and sum of one step. -/
abbrev countAndSum : Accumulator (UInt64 × Float) :=
  Accumulator.longSum.pair Accumulator.doubleSum

/-- Count and sum of all time, their windows, and what else the configuration
asks for. -/
structure Distribution where
  count : UInt64
  total : Float
  step : RollingWindow countAndSum
  max : RollingWindow Accumulator.doubleMax
  histogram : Option Histogram
  exemplars : Option Reservoir

namespace Distribution

/-- The bucket bounds of an optional histogram. -/
def boundsOf (histogram : Option Histogram) : Array Float :=
  (histogram.map Histogram.bounds).getD #[]

/-- An empty distribution.  Exemplars are sampled by bucket if there are
buckets. -/
def create (c : RegistrySettings) (config : DistributionSettings) (now : Int) :
    Except DistributionError Distribution :=
  (c.histogram config now).map fun histogram =>
    { count := 0
      total := 0.0
      step := RollingWindow.starting _ c.step now
      max := RollingWindow.starting _ c.step now
      histogram := histogram
      exemplars := c.reservoir? (boundsOf histogram) now }

/-- Records a value, if it is accepted. -/
def record (d : Distribution) (m : Moment) (value : Float) : Distribution :=
  if isAccepted value then
    { count := d.count + 1
      total := d.total + value
      step := d.step.record m.now (1, value)
      max := d.max.record m.now value
      histogram := d.histogram.map (·.record m.now value)
      exemplars := d.exemplars.map (·.offer m.now m.context m.draw value) }
  else d

/-- The bucket bounds; none without buckets. -/
def bounds (d : Distribution) : Array Float := boundsOf d.histogram

/-- The larger of the maxima of the step in progress and the one before. -/
def maximum (d : Distribution) (now : Int) : Float × Distribution :=
  let (latest, window) := d.max.latest now
  let (previous, window) := window.poll now
  (peak latest previous, { d with max := window })

/-- Count, sum and maximum under the given temporality. -/
def statistics (d : Distribution) (temporality : Temporality) (now : Int) :
    (UInt64 × Float × Float) × Distribution :=
  match temporality with
  | .cumulative =>
      let (max, d) := d.maximum now
      ((d.count, d.total, max), d)
  | .delta =>
      let ((count, total), step) := d.step.poll now
      let (max, window) := d.max.poll now
      ((count, total, max), { d with step := step, max := window })

/-- The snapshot under the given temporality. -/
def snapshot (d : Distribution) (temporality : Temporality) (now : Int) :
    Snapshot × Distribution :=
  let ((count, total, max), d) := d.statistics temporality now
  match d.histogram with
  | none => (Snapshot.scalar count total max, d)
  | some histogram =>
      let (snapshot, histogram) := histogram.snapshot now count total max
      (snapshot, { d with histogram := some histogram })

/-- Takes the exemplars of the last closed step. -/
def takeExemplars (d : Distribution) (now : Int) :
    List Exemplar × Distribution :=
  match d.exemplars with
  | none => ([], d)
  | some reservoir =>
      let (exemplars, reservoir) := reservoir.drain now
      (exemplars, { d with exemplars := some reservoir })

/-- Moves count, sum and maximum to the step of `now`; the other windows
follow when they are next used. -/
def rollover (d : Distribution) (now : Int) : Distribution :=
  { d with step := d.step.rollover now, max := d.max.rollover now }

/-- Closes the step in progress in every window. -/
def close (d : Distribution) : Distribution :=
  { d with
    step := d.step.close
    max := d.max.close
    histogram := d.histogram.map Histogram.close
    exemplars := d.exemplars.map Reservoir.close }

end Distribution

end WindowedMetrics
