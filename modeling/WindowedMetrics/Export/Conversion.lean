/-
From meters to data points.
-/
import WindowedMetrics.Export.Point
import WindowedMetrics.Meter.Basic

namespace WindowedMetrics

/-- What points are made for: the temporality, the unit of times, the present
time, and the last step that ended by then. -/
structure Conversion where
  temporality : Temporality
  baseTimeUnit : TimeUnit
  nowNanos : Nat
  lastStep : Interval

namespace Conversion

/-- Milliseconds in nanoseconds, of which timestamps keep the lower 64
bits. -/
def nanosOf (millis : Nat) : Nat := millis * 1000000 % UInt64.size

theorem nanosOf_of_lt {millis : Nat} (h : millis * 1000000 < UInt64.size) :
    nanosOf millis = millis * 1000000 := Nat.mod_eq_of_lt h

/-- The conversion at a wall time; times before the epoch count as the epoch.
The last step before the first one is empty. -/
def starting (now : Int) (step : Duration) (temporality : Temporality)
    (unit : TimeUnit) : Conversion :=
  let now := now.toNat
  let stepMillis := max (step.millis % UInt64.size) 1
  let stop := nanosOf (now / stepMillis * stepMillis)
  { temporality := temporality
    baseTimeUnit := unit
    nowNanos := nanosOf now
    lastStep := ⟨stop - nanosOf stepMillis, stop⟩ }

/-- The time that the values of a meter cover: the last step, or all time
since the meter was created. -/
def interval (c : Conversion) (meter : Meter) : Interval :=
  match c.temporality with
  | .delta => c.lastStep
  | .cumulative => ⟨nanosOf meter.created.toNat, c.nowNanos⟩

/-- A value in the unit of its meter: times come in nanoseconds. -/
def convert (c : Conversion) (timeBased : Bool) (value : Float) : Float :=
  if timeBased then c.baseTimeUnit.express value else value

/-- The unit text of a meter. -/
def unitOf (c : Conversion) (timeBased : Bool) (id : Id) : String :=
  id.unit.getD (if timeBased then c.baseTimeUnit.symbol else "")

/-- Exemplars in the unit of their meter. -/
def exemplars (c : Conversion) (timeBased : Bool)
    (exemplars : List Exemplar) : List PointExemplar :=
  exemplars.map fun e =>
    ⟨c.convert timeBased e.value, e.timeNanos.toNat, e.context⟩

/-- A point under the name of its meter. -/
def named (c : Conversion) (timeBased : Bool) (id : Id) (point : Point) :
    NamedPoint :=
  ⟨id.name, c.unitOf timeBased id, id.description.getD "", point⟩

/-- The point of a sum. -/
def sumPoint (c : Conversion) (meter : Meter) (value : Float)
    (exemplars : List PointExemplar) : NamedPoint :=
  c.named false meter.id
    (.sum ⟨meter.id.tags.toPairs, c.interval meter, value, exemplars⟩)

/-- The point of a present value, with further attributes. -/
def gaugePoint (c : Conversion) (meter : Meter) (more : Attributes)
    (value : Float) : NamedPoint :=
  c.named false meter.id
    (.gauge ⟨meter.id.tags.toPairs ++ more, ⟨0, c.nowNanos⟩, value, []⟩)

/-- The summary point of a snapshot. -/
def summaryPoint (c : Conversion) (meter : Meter) (timeBased : Bool)
    (s : Snapshot) : NamedPoint :=
  c.named timeBased meter.id (.summary
    { attributes := meter.id.tags.toPairs
      interval := c.interval meter
      count := s.count
      sum := c.convert timeBased s.total
      quantiles := s.percentiles.map fun q =>
        { q with value := c.convert timeBased q.value } })

/-- The histogram point of a snapshot.  The last bound, infinity, is left
out; the maximum is known for a step only. -/
def histogramPoint (c : Conversion) (meter : Meter) (timeBased : Bool)
    (s : Snapshot) (exemplars : List PointExemplar) : NamedPoint :=
  let finite := s.buckets.filter fun b => b.bound.isFinite
  c.named timeBased meter.id (.histogram
    { attributes := meter.id.tags.toPairs
      interval := c.interval meter
      count := s.count
      sum := c.convert timeBased s.total
      max :=
        match c.temporality with
        | .delta => some (c.convert timeBased s.max)
        | .cumulative => none
      bounds := finite.map fun b => c.convert timeBased b.bound
      buckets := s.buckets.map (·.count)
      exemplars := exemplars })

/-- The points of a distribution: a summary if it has percentiles, and a
histogram if it has buckets or nothing else would carry its count and sum.
Exemplars go with the histogram. -/
def distributionPoints (c : Conversion) (meter : Meter) (timeBased : Bool)
    (s : Snapshot) (exemplars : List Exemplar) : List NamedPoint :=
  let summary :=
    if s.hasPercentiles then [c.summaryPoint meter timeBased s] else []
  let histogram :=
    if s.hasBuckets || !s.hasPercentiles then
      [c.histogramPoint meter timeBased s (c.exemplars timeBased exemplars)]
    else []
  summary ++ histogram

/-- The histogram point of a function timer, which has count and sum
alone. -/
def functionTimerPoint (c : Conversion) (meter : Meter)
    (values : Float × Float) : NamedPoint :=
  c.named true meter.id (.histogram
    { attributes := meter.id.tags.toPairs
      interval := c.interval meter
      count := values.1.toUInt64
      sum := c.convert true values.2
      max := none
      bounds := []
      buckets := []
      exemplars := [] })

/-- The points that a meter owes.  Function-backed meters whose source is gone
owe none; custom measurements that are NaN are left out. -/
def points (c : Conversion) (meter : Meter) (m : Moment) :
    List NamedPoint × Meter :=
  match meter.instrument with
  | .counter state =>
      let (taken, state) := readState state [] (·.takeExemplars m.now)
      let (value, state) := counterValue state c.temporality m.now
      ([c.sumPoint meter value (c.exemplars false taken)],
        meter.withInstrument (.counter state))
  | .gauge source =>
      match gaugeSample source m.readings with
      | none => ([], meter)
      | some value => ([c.gaugePoint meter [] value], meter)
  | .timer state =>
      let (s, state) := snapshotOf state c.temporality m.now
      let (taken, state) := readState state [] (·.takeExemplars m.now)
      (c.distributionPoints meter true s taken,
        meter.withInstrument (.timer state))
  | .summary scale state =>
      let (s, state) := snapshotOf state c.temporality m.now
      let (taken, state) := readState state [] (·.takeExemplars m.now)
      (c.distributionPoints meter false s taken,
        meter.withInstrument (.summary scale state))
  | .longTaskTimer state =>
      let s := (state.map (·.snapshot m.clock)).getD Snapshot.empty
      (c.distributionPoints meter true s [], meter)
  | .functionCounter state =>
      if (state.map (·.isAlive m)).getD false then
        let (value, state) := functionValue state c.temporality m
        ([c.sumPoint meter value []],
          meter.withInstrument (.functionCounter state))
      else ([], meter)
  | .functionTimer state =>
      if (state.map (·.isAlive m)).getD false then
        let (values, state) := functionValues state c.temporality m
        ([c.functionTimerPoint meter values],
          meter.withInstrument (.functionTimer state))
      else ([], meter)
  | .custom measurements =>
      let values := measurements.map fun e => (e.1, e.2.value m.readings)
      let present := values.filter fun e => !e.2.isNaN
      (present.map fun e =>
        c.gaugePoint meter [("statistic", e.1.text)] e.2, meter)

end Conversion

end WindowedMetrics
