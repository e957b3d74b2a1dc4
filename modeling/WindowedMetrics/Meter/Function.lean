/-
Meters that read monotonic totals kept elsewhere.  What they report for a
step is the increase between two readings; a reading below the one before it
means that the total was reset, and counts in full.
-/
import WindowedMetrics.Meter.Counter

namespace WindowedMetrics

/-- The increase of a total from one reading to the next. -/
def increase (previous reading : Float) : Float :=
  if previous ≤ reading then reading - previous else reading

/-- A counter over a source.  `baseline` is the last reading that was
accounted for. -/
structure FunctionCounter where
  source : Source
  baseline : Float
  step : RollingWindow Accumulator.doubleSum

namespace FunctionCounter

/-- A counter that has not accounted for anything yet. -/
def create (source : Source) (c : RegistrySettings) (now : Int) :
    FunctionCounter :=
  ⟨source, 0.0, RollingWindow.starting _ c.step now⟩

/-- The last closed step as seen at `now`.  The reading is accounted for only
if the step in progress closes by this call. -/
def pollReading (f : FunctionCounter) (now : Int) (reading : Option Float) :
    Float × FunctionCounter :=
  match f.step.tracker.due? now, reading with
  | some _, some reading =>
      let (value, step) :=
        f.step.pollAdding now (increase f.baseline reading)
      (value, { f with baseline := reading, step := step })
  | _, _ =>
      let (value, step) := f.step.poll now
      (value, { f with step := step })

/-- Accounts for the reading and closes the step in progress. -/
def closeReading (f : FunctionCounter) (now : Int) (reading : Option Float) :
    FunctionCounter :=
  let f := (f.pollReading now reading).2
  match reading with
  | none => { f with step := f.step.close }
  | some reading =>
      let step := f.step.record now (increase f.baseline reading)
      { f with baseline := reading, step := step.close }

/-- The value under the given temporality: the reading itself, or its
increase over the last closed step. -/
def value (f : FunctionCounter) (temporality : Temporality) (m : Moment) :
    Float × FunctionCounter :=
  match temporality with
  | .cumulative => (f.source.value m.readings, f)
  | .delta => f.pollReading m.now (f.source.finite? m.readings)

/-- Whether the source can be read. -/
def isAlive (f : FunctionCounter) (m : Moment) : Bool :=
  (f.source.sample m.readings).isSome

def rollover (f : FunctionCounter) (m : Moment) : FunctionCounter :=
  (f.pollReading m.now (f.source.finite? m.readings)).2

def close (f : FunctionCounter) (m : Moment) : FunctionCounter :=
  f.closeReading m.now (f.source.finite? m.readings)

end FunctionCounter

/-- Two sums over the same steps. -/
abbrev twoSums : Accumulator (Float × Float) :=
  Accumulator.doubleSum.pair Accumulator.doubleSum

/-- A timer over two sources, a count and a total time in `unit`.  Baselines
and steps hold the total in nanoseconds. -/
structure FunctionTimer where
  count : Source
  total : Source
  unit : TimeUnit
  countBaseline : Float
  totalBaseline : Float
  step : RollingWindow twoSums

namespace FunctionTimer

/-- A timer that has not accounted for anything yet. -/
def create (count total : Source) (unit : TimeUnit)
    (c : RegistrySettings) (now : Int) : FunctionTimer :=
  ⟨count, total, unit, 0.0, 0.0, RollingWindow.starting _ c.step now⟩

/-- Both readings, the total in nanoseconds, if both are finite. -/
def readings? (f : FunctionTimer) (r : Readings) : Option (Float × Float) :=
  match f.count.finite? r, f.total.finite? r with
  | some count, some total => some (count, f.unit.inNanos total)
  | _, _ => none

/-- The increases of both totals. -/
def increases (f : FunctionTimer) (reading : Float × Float) : Float × Float :=
  (increase f.countBaseline reading.1, increase f.totalBaseline reading.2)

/-- The last closed step as seen at `now`.  The readings are accounted for
only if the step in progress closes by this call. -/
def pollReading (f : FunctionTimer) (now : Int)
    (reading : Option (Float × Float)) : (Float × Float) × FunctionTimer :=
  match f.step.tracker.due? now, reading with
  | some _, some reading =>
      let (values, step) := f.step.pollAdding now (f.increases reading)
      (values, { f with
        countBaseline := reading.1, totalBaseline := reading.2, step := step })
  | _, _ =>
      let (values, step) := f.step.poll now
      (values, { f with step := step })

/-- Accounts for the readings and closes the step in progress. -/
def closeReading (f : FunctionTimer) (now : Int)
    (reading : Option (Float × Float)) : FunctionTimer :=
  let f := (f.pollReading now reading).2
  match reading with
  | none => { f with step := f.step.close }
  | some reading =>
      let step := f.step.record now (f.increases reading)
      { f with
        countBaseline := reading.1
        totalBaseline := reading.2
        step := step.close }

/-- The count of all time. -/
def countValue (f : FunctionTimer) (r : Readings) : Float := f.count.value r

/-- The total time of all time. -/
def totalTime (f : FunctionTimer) (r : Readings) (unit : TimeUnit) : Float :=
  unit.express (f.unit.inNanos (f.total.value r))

/-- Count and total nanoseconds under the given temporality. -/
def values (f : FunctionTimer) (temporality : Temporality) (m : Moment) :
    (Float × Float) × FunctionTimer :=
  match temporality with
  | .cumulative =>
      ((f.countValue m.readings, f.totalTime m.readings .nanoseconds), f)
  | .delta => f.pollReading m.now (f.readings? m.readings)

/-- Whether both sources read finite values. -/
def isAlive (f : FunctionTimer) (m : Moment) : Bool :=
  (f.readings? m.readings).isSome

def rollover (f : FunctionTimer) (m : Moment) : FunctionTimer :=
  (f.pollReading m.now (f.readings? m.readings)).2

def close (f : FunctionTimer) (m : Moment) : FunctionTimer :=
  f.closeReading m.now (f.readings? m.readings)

end FunctionTimer

end WindowedMetrics
