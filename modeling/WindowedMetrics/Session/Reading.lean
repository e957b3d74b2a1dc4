/-
What the accessors of a meter show, read one after the other.
-/
import WindowedMetrics.Meter.Basic

namespace WindowedMetrics

/-- The readings of a meter of each kind.  Reading a meter may move its
windows to the present step. -/
inductive Reading
  | counter (count value : Float)
  | gauge (value : Float) (sample : Option Float)
  | distribution (count : UInt64) (total max : Float) (snapshot : Snapshot)
      (bounds : List Float)
  | longTasks (active : Nat) (duration max : Float) (snapshot : Snapshot)
      (bounds : List Float)
  | functionCounter (count : Float) (alive : Bool) (value : Float)
  | functionTimer (count total : Float) (alive : Bool)
      (values : Float × Float)
  | custom (measurements : List Measurement)

/-- Reads a distribution, its total and maximum by way of `convert`. -/
def readDistributionState (state : Option Distribution)
    (temporality : Temporality) (convert : Float → Float) (now : Int) :
    Reading × Option Distribution :=
  match state with
  | none => (.distribution 0 0.0 0.0 Snapshot.empty [], none)
  | some d =>
      let count := d.count
      let total := d.total
      let (max, d) := d.maximum now
      let (snapshot, d) := d.snapshot temporality now
      (.distribution count (convert total) (convert max) snapshot
        d.bounds.toList, some d)

/-- Reads all accessors of a meter. -/
def Meter.read (meter : Meter) (temporality : Temporality) (unit : TimeUnit)
    (m : Moment) : Reading × Meter :=
  match meter.instrument with
  | .counter state =>
      let count := (state.map (·.total)).getD 0.0
      let (value, state) := counterValue state temporality m.now
      (.counter count value, meter.withInstrument (.counter state))
  | .gauge source =>
      let sample := gaugeSample source m.readings
      (.gauge (sample.getD (0.0 / 0.0)) sample, meter)
  | .timer state =>
      let (reading, state) :=
        readDistributionState state temporality unit.express m.now
      (reading, meter.withInstrument (.timer state))
  | .summary scale state =>
      let (reading, state) :=
        readDistributionState state temporality (fun x => x) m.now
      (reading, meter.withInstrument (.summary scale state))
  | .longTaskTimer none =>
      (.longTasks 0 (unit.express 0.0) 0.0 Snapshot.empty [], meter)
  | .longTaskTimer (some tasks) =>
      (.longTasks tasks.count (tasks.duration m.clock unit)
        (tasks.max m.clock unit) (tasks.snapshot m.clock)
        tasks.bounds.toList, meter)
  | .functionCounter state =>
      let nothing : Float := 0.0 / 0.0
      let count := (state.map (·.source.value m.readings)).getD nothing
      let alive := (state.map (·.isAlive m)).getD false
      let (value, state) := functionValue state temporality m
      (.functionCounter count alive value,
        meter.withInstrument (.functionCounter state))
  | .functionTimer state =>
      let nothing : Float := 0.0 / 0.0
      let count := (state.map (·.countValue m.readings)).getD nothing
      let total := (state.map (·.totalTime m.readings unit)).getD nothing
      let alive := (state.map (·.isAlive m)).getD false
      let (values, state) := functionValues state temporality m
      (.functionTimer count total alive values,
        meter.withInstrument (.functionTimer state))
  | .custom measurements =>
      (.custom (measurements.map fun e => ⟨e.1, e.2.value m.readings⟩), meter)

end WindowedMetrics
