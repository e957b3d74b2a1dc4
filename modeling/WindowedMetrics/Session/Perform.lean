/-
How a session runs commands.  Every answer comes with the log events of its
command.
-/
import WindowedMetrics.Session.Basic
import WindowedMetrics.Session.Command

namespace WindowedMetrics

namespace Session

/-- An answer without events. -/
def answer (s : Session) (a : Answer) : Logged (Answer × Session) :=
  ⟨(a, s), []⟩

/-! ### Meters -/

/-- Runs an operation on the meter of a handle.  The operation answers
nothing for a meter of another kind. -/
def onMeter (s : Session) (name : String)
    (op : Meter → Option (Answer × Meter)) : Logged (Answer × Session) :=
  match s.handle? name, s.meter? name with
  | some handle, some meter =>
      match op meter with
      | none => s.answer .otherKind
      | some (a, meter) => (s.put handle meter).tick.answer a
  | _, _ => s.answer .unknownHandle

/-- Runs a command on a meter. -/
def performOn (m : Moment) (meter : Meter) (c : MeterCommand) :
    Option (Answer × Meter) :=
  match c with
  | .increment amount =>
      (meter.increment? m amount).map fun meter => (.done, meter)
  | .recordDurations durations nanos =>
      let all := durations.map Meter.recordableNanos ++ nanos
      (meter.recordNanos? m all).map fun meter => (.done, meter)
  | .recordAmounts amounts =>
      (meter.recordAmounts? m amounts).map fun meter => (.done, meter)
  | .rollover => some (.done, meter.rollover m)
  | .close => some (.done, meter.close m)
  | .measure temporality unit =>
      let (values, meter) := meter.measure temporality unit m
      some (.measurements values, meter)
  | .takeExemplars =>
      (meter.takeExemplars? m.now).map fun (values, meter) =>
        (.exemplars values, meter)
  | .read temporality unit =>
      let (reading, meter) := meter.read temporality unit m
      some (.reading reading, meter)

/-- Times something that takes `elapsed` by the timer of a handle. -/
def recordRun (s : Session) (name : String) (elapsed : Duration) :
    Logged (Answer × Session) :=
  match s.meter? name with
  | none => s.answer .unknownHandle
  | some meter =>
      if meter.kind = .timer then
        let start := s.clock.monotonic
        let s := { s with clock := s.clock.advance elapsed }
        let nanos := (s.clock.since start).nanos
        s.onMeter name fun meter =>
          (meter.recordNanos? s.moment [nanos]).map fun meter =>
            (.returned, meter)
      else s.answer .otherKind

/-! ### The registry -/

/-- What is shown of the meter behind a handle.  A refused meter has no other
handle than `name`. -/
def viewOf (s : Session) (handle : MeterHandle) (name : Option String) :
    Option MeterView :=
  (s.registry.meterOf? handle).map fun meter =>
    { id := meter.id
      kind := meter.kind
      isIdle := meter.instrument.isIdle?
      created := meter.created
      oldest :=
        match handle with
        | .made _ => s.oldestName? handle
        | .refused _ => name }

/-- Shows the meter of an optional reference. -/
def showReference (s : Session) (reference : Option Nat) : Answer :=
  .meter (reference.bind fun r => s.viewOf (.made r) none)

/-- Binds the outcome of a registration to a handle's name; an error leaves
the handle as it was. -/
def bindOutcome (s : Session) (name : String)
    (done : Logged (Except RegistrationError MeterHandle × Registry)) :
    Logged (Answer × Session) :=
  let s := { s with registry := done.value.2 }
  match done.value.1 with
  | .error error => ⟨(.failed error, s), done.events⟩
  | .ok handle =>
      let s := s.bind name handle
      ⟨(.meter (s.viewOf handle (some name)), s), done.events⟩

/-- Goes on with a changed registry. -/
def withRegistry (s : Session) (done : Logged Registry) :
    Logged (Answer × Session) :=
  ⟨(.done, { s with registry := done.value }), done.events⟩

/-- Goes on after a removal, and shows the removed meter. -/
def withRemoval (s : Session) (done : Logged (Option Nat × Registry)) :
    Logged (Answer × Session) :=
  let s := { s with registry := done.value.2 }
  ⟨(s.showReference done.value.1, s), done.events⟩

/-- Meters by their text and kind, in order. -/
def listingOf (meters : List Meter) : Answer :=
  let lines := meters.map fun meter => (meter.id.text, meter.kind.text)
  .listing (lines.mergeSort fun a b => textsLe [a.1, a.2] [b.1, b.2])

/-- Runs a command on the registry. -/
def performRegistry (s : Session) (c : RegistryCommand) :
    Logged (Answer × Session) :=
  match c with
  | .appendFilter filter => s.withRegistry (s.registry.appendFilter filter)
  | .add name id parts config =>
      let (parts, cells) := s.cells.resolve parts
      { s with cells := cells }.bindOutcome name
        (s.registry.add parts id config s.clock.wall)
  | .register name id parts config =>
      let (parts, cells) := s.cells.resolve parts
      { s with cells := cells }.bindOutcome name
        (s.registry.register id config parts.build s.clock.wall)
  | .refuse name id =>
      s.bindOutcome name ⟨(.ok (.refused (Meter.idle id)), s.registry), []⟩
  | .get id => s.answer (s.showReference (s.registry.find? id.key))
  | .remove id => s.withRemoval (s.registry.remove id.key s.surroundings)
  | .removeFiltered id =>
      s.withRemoval (s.registry.removeFiltered id s.surroundings)
  | .listAll => s.answer (listingOf s.registry.meters)
  | .listNamed name => s.answer (listingOf (s.registry.named name))
  | .size => s.answer (.size s.registry.size)
  | .clear => s.withRegistry (s.registry.clear s.moment)
  | .close => s.withRegistry s.registry.close
  | .isClosed => s.answer (.flag s.registry.closed)
  | .rolloverAll => s.withRegistry ⟨s.registry.rolloverAll s.moment, []⟩
  | .closeAll => s.withRegistry ⟨s.registry.closeAll s.moment, []⟩
  | .display => s.answer (.text (some s.registry.display))

/-! ### Samples, scope and tasks -/

/-- Records the time since a start on the timer of a handle, and goes on with
`consume` if there was a timer to record it. -/
def stopOn (s : Session) (name : String) (start : Option Int)
    (consume : Session → Session) : Logged (Answer × Session) :=
  match s.meter? name with
  | none => s.answer .unknownHandle
  | some meter =>
      if meter.kind = .timer then
        match start with
        | none => s.answer (.elapsed none)
        | some start =>
            let elapsed := s.clock.since start
            (consume s).onMeter name fun meter =>
              (meter.recordNanos? s.moment
                [Meter.recordableNanos elapsed]).map fun meter =>
                  (.elapsed (some elapsed), meter)
      else s.answer .otherKind

/-- Runs a command on samples, the scope or tasks. -/
def performSample (s : Session) (c : SampleCommand) :
    Logged (Answer × Session) :=
  match c with
  | .start name =>
      { s with samples := rebind s.samples name s.clock.monotonic }.answer
        .done
  | .elapsed name =>
      s.answer (.elapsed ((s.samples.lookup name).map s.clock.since))
  | .display name =>
      s.answer (.text ((s.samples.lookup name).map fun start =>
        Display.record "TimerSample" [("start_nanos", toString start)]))
  | .stop name handle =>
      s.stopOn handle (s.samples.lookup name) fun s =>
        { s with samples := unbind s.samples name }
  | .pushScope =>
      { s with scope := s.clock.monotonic :: s.scope }.answer .done
  | .popScope handle =>
      s.stopOn handle s.scope.head? fun s =>
        { s with scope := s.scope.drop 1 }
  | .scopeDepth => s.answer (.depth s.scope.length)
  | .startTask name task =>
      match s.handle? name, s.meter? name with
      | some handle, some meter =>
          match meter.startTask? s.clock with
          | none => s.answer .otherKind
          | some (sample, meter) =>
              let tasks := rebind s.tasks task ⟨handle, sample⟩
              { s.put handle meter with tasks := tasks }.answer .done
      | _, _ => s.answer .unknownHandle
  | .stopTask task =>
      match s.tasks.lookup task with
      | none => s.answer (.elapsed none)
      | some running =>
          let s := { s with tasks := unbind s.tasks task }
          match running.sample, s.registry.meterOf? running.timer with
          | some sample, some meter =>
              let (duration, meter) := meter.stopTask s.clock sample
              (s.put running.timer meter).answer (.elapsed (some duration))
          | _, _ => s.answer (.elapsed (some (.ofNanos 0)))

/-! ### The exporter -/

/-- The batch of the present moment in canonical order. -/
def makeBatch (s : Session) : Batch × Session :=
  let (batch, registry) := s.exporter.batch s.registry s.moment
  (batch.sorted, { s with registry := registry })

/-- A sink that takes every batch, or fails with a given error. -/
def sinkOf (failure : Option SinkError) (_ : Batch) :
    Except SinkError Unit :=
  match failure with
  | none => .ok ()
  | some error => .error error

/-- Runs a command on the exporter. -/
def performExporter (s : Session) (c : ExportCommand) :
    Logged (Answer × Session) :=
  match c with
  | .convert names temporality unit step =>
      let config := s.registry.config
      let temporality := temporality.getD config.temporality
      let conversion := Conversion.starting s.clock.wall
        (step.getD config.step) temporality (unit.getD config.baseTimeUnit)
      let (points, registry) := convertHandles conversion s.registry s.moment
        (names.filterMap s.handle?)
      { s with registry := registry }.answer
        (.metrics temporality (groupPoints points))
  | .batch =>
      let (batch, s) := s.makeBatch
      s.answer (.batch batch)
  | .batchNamed name =>
      let (batch, s) := s.makeBatch
      s.answer (.metrics batch.temporality (batch.metricsOf name))
  | .log =>
      let (batch, s) := s.makeBatch
      ⟨(.done, s), batch.events⟩
  | .publish failure =>
      let ⟨(publication, registry), events⟩ :=
        s.exporter.publish s.registry s.moment (sinkOf failure)
      let sent := publication.sent.toList.map Batch.sorted
      ⟨(.published publication.outcome sent, { s with registry := registry }),
        events⟩
  | .runPublisher wakes =>
      match s.exporter.mismatch? s.registry.config with
      | some error => s.answer (.mismatch error)
      | none =>
          let (batches, registry) :=
            s.exporter.runPublisher s.registry s.moment wakes
          let batches := batches.map Batch.sorted
          { s with registry := registry }.answer
            (.publisher (batches.take wakes) batches.getLast?)

/-! ### All together -/

/-- Runs a command. -/
def perform (s : Session) (c : Command) : Logged (Answer × Session) :=
  match c with
  | .advance elapsed =>
      { s with clock := s.clock.advance elapsed }.answer .done
  | .setWall wall => { s with clock := s.clock.setWall wall }.answer .done
  | .setCell name value =>
      { s with cells := s.cells.set name value }.answer .done
  | .dropCell name => { s with cells := s.cells.drop name }.answer .done
  | .displaySource request =>
      let (source, cells) := s.cells.source request
      let s := { s with cells := cells }
      let readings := s.moment.readings
      s.answer (.source source.display source.isWeak
        (source.sample readings) (source.value readings))
  | .setContext context => { s with context := context }.answer .done
  | .registry command => s.performRegistry command
  | .meter name command =>
      s.onMeter name fun meter => performOn s.moment meter command
  | .recordRun name elapsed => s.recordRun name elapsed
  | .sample command => s.performSample command
  | .exporter command => s.performExporter command

/-- Runs commands in order. -/
def run (s : Session) : List Command → List (Logged Answer) × Session
  | [] => ([], s)
  | c :: rest =>
      let ⟨(a, s), events⟩ := s.perform c
      let (later, s) := run s rest
      (⟨a, events⟩ :: later, s)

end Session

end WindowedMetrics
