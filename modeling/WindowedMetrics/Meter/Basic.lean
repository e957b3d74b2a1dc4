/-
Meters: an identity, a time of creation, and an instrument of one of eight
kinds.  A meter that was refused has an instrument without state, which takes
every measurement and keeps none.
-/
import WindowedMetrics.Identity.Id
import WindowedMetrics.Meter.Distribution
import WindowedMetrics.Meter.Function
import WindowedMetrics.Meter.LongTasks

namespace WindowedMetrics

/-- What a single measured number says. -/
inductive Statistic
  | count
  | total
  | totalTime
  | max
  | value
  | active
  | duration
  | unknown
deriving Repr, DecidableEq, Inhabited

/-- The name of a statistic; both totals share theirs. -/
def Statistic.text : Statistic → String
  | count => "count"
  | total | totalTime => "total"
  | max => "max"
  | value => "value"
  | active => "active"
  | duration => "duration"
  | unknown => "unknown"

/-- A measured number. -/
structure Measurement where
  statistic : Statistic
  value : Float

/-- The measuring part of a meter.  `none` stands for an instrument that
measures nothing. -/
inductive Instrument
  | counter (state : Option Counter)
  | gauge (source : Option Source)
  | timer (state : Option Distribution)
  | summary (scale : Float) (state : Option Distribution)
  | longTaskTimer (state : Option LongTasks)
  | functionCounter (state : Option FunctionCounter)
  | functionTimer (state : Option FunctionTimer)
  | custom (measurements : List (Statistic × Source))

namespace Instrument

def kind : Instrument → MeterKind
  | counter _ => .counter
  | gauge _ => .gauge
  | timer _ => .timer
  | summary _ _ => .summary
  | longTaskTimer _ => .longTaskTimer
  | functionCounter _ => .functionCounter
  | functionTimer _ => .functionTimer
  | custom _ => .custom

/-- The instrument of a kind that measures nothing. -/
def idle : MeterKind → Instrument
  | .counter => counter none
  | .gauge => gauge none
  | .timer => timer none
  | .summary => summary 1.0 none
  | .longTaskTimer => longTaskTimer none
  | .functionCounter => functionCounter none
  | .functionTimer => functionTimer none
  | .custom => custom []

/-- Whether the instrument measures nothing.  Custom meters do not tell. -/
def isIdle? : Instrument → Option Bool
  | counter state => some state.isNone
  | gauge source => some source.isNone
  | timer state => some state.isNone
  | summary _ state => some state.isNone
  | longTaskTimer state => some state.isNone
  | functionCounter state => some state.isNone
  | functionTimer state => some state.isNone
  | custom _ => none

/-- The sources that the instrument reads from. -/
def sources : Instrument → List Source
  | gauge (some source) => [source]
  | functionCounter (some state) => [state.source]
  | functionTimer (some state) => [state.count, state.total]
  | custom measurements => measurements.map Prod.snd
  | _ => []

/-- Moves the windows to the step of the moment.  Gauges, long task timers
and custom meters have none. -/
def rollover (i : Instrument) (m : Moment) : Instrument :=
  match i with
  | counter state => counter (state.map (·.rollover m.now))
  | timer state => timer (state.map (·.rollover m.now))
  | summary scale state => summary scale (state.map (·.rollover m.now))
  | functionCounter state => functionCounter (state.map (·.rollover m))
  | functionTimer state => functionTimer (state.map (·.rollover m))
  | other => other

/-- Closes the step in progress in every window. -/
def close (i : Instrument) (m : Moment) : Instrument :=
  match i with
  | counter state => counter (state.map Counter.close)
  | timer state => timer (state.map Distribution.close)
  | summary scale state => summary scale (state.map Distribution.close)
  | functionCounter state => functionCounter (state.map (·.close m))
  | functionTimer state => functionTimer (state.map (·.close m))
  | other => other

end Instrument

/-- Runs an operation that reads and updates an optional state, with a default
answer where there is none. -/
def readState {S A : Type} (state : Option S) (default : A)
    (op : S → A × S) : A × Option S :=
  match state with
  | none => (default, none)
  | some s =>
      let (answer, s) := op s
      (answer, some s)

/-- The snapshot of a distribution that may be missing. -/
def snapshotOf (state : Option Distribution) (temporality : Temporality)
    (now : Int) : Snapshot × Option Distribution :=
  readState state Snapshot.empty (·.snapshot temporality now)

/-- The value of a counter that may be missing. -/
def counterValue (state : Option Counter) (temporality : Temporality)
    (now : Int) : Float × Option Counter :=
  readState state 0.0 (·.value temporality now)

/-- The value of a function counter that may be missing. -/
def functionValue (state : Option FunctionCounter)
    (temporality : Temporality) (m : Moment) :
    Float × Option FunctionCounter :=
  let nothing : Float :=
    match temporality with
    | .cumulative => 0.0 / 0.0
    | .delta => 0.0
  readState state nothing (·.value temporality m)

/-- Count and total nanoseconds of a function timer that may be missing. -/
def functionValues (state : Option FunctionTimer)
    (temporality : Temporality) (m : Moment) :
    (Float × Float) × Option FunctionTimer :=
  let nothing : Float × Float :=
    match temporality with
    | .cumulative => (0.0 / 0.0, 0.0 / 0.0)
    | .delta => (0.0, 0.0)
  readState state nothing (·.values temporality m)

/-- A sample source that may be missing. -/
def gaugeSample (source : Option Source) (r : Readings) :
    Option Float :=
  source.bind (·.sample r)

/-- A registered or refused meter. -/
structure Meter where
  id : Id
  created : Int
  instrument : Instrument

namespace Meter

/-- A meter that measures nothing, of the kind that its identity names. -/
def idle (id : Id) : Meter := ⟨id, 0, Instrument.idle id.kind⟩

/-- The kind of the instrument. -/
def kind (meter : Meter) : MeterKind := meter.instrument.kind

/-- Whether one of the meter's sources keeps a cell alive. -/
def keepsAlive (meter : Meter) (cell : Nat) : Bool :=
  meter.instrument.sources.any fun source =>
    decide (source.held? = some cell)

/-- The same meter with its instrument in a new state. -/
def withInstrument (meter : Meter) (instrument : Instrument) : Meter :=
  { meter with instrument := instrument }

def rollover (meter : Meter) (m : Moment) : Meter :=
  meter.withInstrument (meter.instrument.rollover m)

def close (meter : Meter) (m : Moment) : Meter :=
  meter.withInstrument (meter.instrument.close m)

/-- The statistics of a meter under the given temporality, times in `unit`. -/
def measure (meter : Meter) (temporality : Temporality) (unit : TimeUnit)
    (m : Moment) : List Measurement × Meter :=
  match meter.instrument with
  | .counter state =>
      let (value, state) := counterValue state temporality m.now
      ([⟨.count, value⟩], meter.withInstrument (.counter state))
  | .gauge source =>
      ([⟨.value, (gaugeSample source m.readings).getD (0.0 / 0.0)⟩], meter)
  | .timer state =>
      let (s, state) := snapshotOf state temporality m.now
      ([⟨.count, s.count.toFloat⟩, ⟨.totalTime, unit.express s.total⟩,
        ⟨.max, unit.express s.max⟩], meter.withInstrument (.timer state))
  | .summary scale state =>
      let (s, state) := snapshotOf state temporality m.now
      ([⟨.count, s.count.toFloat⟩, ⟨.total, s.total⟩, ⟨.max, s.max⟩],
        meter.withInstrument (.summary scale state))
  | .longTaskTimer state =>
      let active := (state.map LongTasks.count).getD 0
      let duration := state.map (·.duration m.clock unit)
      ([⟨.active, countToFloat active⟩,
        ⟨.duration, duration.getD (unit.express 0.0)⟩], meter)
  | .functionCounter state =>
      let (value, state) := functionValue state temporality m
      ([⟨.count, value⟩], meter.withInstrument (.functionCounter state))
  | .functionTimer state =>
      let ((count, total), state) := functionValues state temporality m
      ([⟨.count, count⟩, ⟨.totalTime, unit.express total⟩],
        meter.withInstrument (.functionTimer state))
  | .custom measurements =>
      (measurements.map fun e => ⟨e.1, e.2.value m.readings⟩, meter)

/-- Takes the exemplars of the last closed step of a counter, timer or
summary; none for meters that do not sample. -/
def takeExemplars? (meter : Meter) (now : Int) :
    Option (List Exemplar × Meter) :=
  match meter.instrument with
  | .counter state =>
      let (exemplars, state) := readState state [] (·.takeExemplars now)
      some (exemplars, meter.withInstrument (.counter state))
  | .timer state =>
      let (exemplars, state) := readState state [] (·.takeExemplars now)
      some (exemplars, meter.withInstrument (.timer state))
  | .summary scale state =>
      let (exemplars, state) := readState state [] (·.takeExemplars now)
      some (exemplars, meter.withInstrument (.summary scale state))
  | _ => none

/-- Adds an amount to a counter; none for other meters. -/
def increment? (meter : Meter) (m : Moment) (amount : Float) : Option Meter :=
  match meter.instrument with
  | .counter state =>
      some (meter.withInstrument (.counter (state.map (·.increment m amount))))
  | _ => none

/-- The largest duration that a timer records, in nanoseconds. -/
def recordableNanos (d : Duration) : Nat := min d.nanos maxUInt64

/-- Records numbers of nanoseconds on a timer; none for other meters. -/
def recordNanos? (meter : Meter) (m : Moment) (nanos : List Nat) :
    Option Meter :=
  match meter.instrument with
  | .timer state =>
      let record := fun (d : Distribution) (n : Nat) =>
        d.record m (countToFloat n)
      some (meter.withInstrument (.timer (state.map (nanos.foldl record))))
  | _ => none

/-- Records amounts, times the scale, on a summary; none for other meters. -/
def recordAmounts? (meter : Meter) (m : Moment) (amounts : List Float) :
    Option Meter :=
  match meter.instrument with
  | .summary scale state =>
      let record := fun (d : Distribution) (amount : Float) =>
        d.record m (amount * scale)
      let state := state.map (amounts.foldl record)
      some (meter.withInstrument (.summary scale state))
  | _ => none

/-- Starts a task on a long task timer; none for other meters, no sample for
a timer that measures nothing. -/
def startTask? (meter : Meter) (clock : Clock) :
    Option (Option TaskSample × Meter) :=
  match meter.instrument with
  | .longTaskTimer none => some (none, meter)
  | .longTaskTimer (some tasks) =>
      let (sample, tasks) := tasks.start clock
      some (some sample, meter.withInstrument (.longTaskTimer (some tasks)))
  | _ => none

/-- Ends a task of a long task timer and returns how long it ran. -/
def stopTask (meter : Meter) (clock : Clock) (sample : TaskSample) :
    Duration × Meter :=
  match meter.instrument with
  | .longTaskTimer (some tasks) =>
      let (duration, tasks) := tasks.stop clock sample
      (duration, meter.withInstrument (.longTaskTimer (some tasks)))
  | _ => (.ofNanos 0, meter)

end Meter

end WindowedMetrics
