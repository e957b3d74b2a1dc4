/-
The exporter: batches of all registered meters, their publication, and the
background publisher that does so once in every step until it is shut down.
-/
import WindowedMetrics.Export.Batch
import WindowedMetrics.Export.Conversion
import WindowedMetrics.Export.Settings
import WindowedMetrics.Registry.Basic

namespace WindowedMetrics

/-- Why a sink did not take a batch. -/
inductive SinkError
  | rejected (reason : String)
  | io
deriving Repr, DecidableEq

/-- The wording of an error. -/
def SinkError.message : SinkError → String
  | rejected reason => "batch rejected: " ++ reason
  | io => "failed to send batch"

/-- A setting in which registry and exporter differ. -/
structure ConfigMismatch where
  setting : String
  registry : String
  exporter : String
deriving Repr, DecidableEq

/-- The wording of a mismatch. -/
def ConfigMismatch.message (e : ConfigMismatch) : String :=
  "registry " ++ e.setting ++ " is " ++ e.registry ++
    " but the exporter expects " ++ e.exporter

/-- Converts the meters behind handles, in their order.  Every meter is left
in the state that reading it brings about. -/
def convertHandles (c : Conversion) (r : Registry) (m : Moment)
    (handles : List MeterHandle) : List NamedPoint × Registry :=
  match handles with
  | [] => ([], r)
  | handle :: rest =>
      match r.meterOf? handle with
      | none => convertHandles c r m rest
      | some meter =>
          let (points, meter) := c.points meter m
          let (later, r) := convertHandles c (r.put handle meter) m rest
          (points ++ later, r)

/-- What a publication led to: the batch that the sink got, if there was
anything to export, and whether the sink took it. -/
structure Publication where
  outcome : Except SinkError Unit
  sent : Option Batch

namespace ExportSettings

/-- The conversion that the settings ask for at a wall time. -/
def conversion (c : ExportSettings) (now : Int) : Conversion :=
  Conversion.starting now c.step c.temporality c.baseTimeUnit

/-- A batch of all registered meters. -/
def batch (c : ExportSettings) (r : Registry) (m : Moment) :
    Batch × Registry :=
  let handles := r.references.map MeterHandle.made
  let (points, r) := convertHandles (c.conversion m.now) r m handles
  ({ resource := c.resource
     scopeName := c.scopeName
     temporality := c.temporality
     metrics := groupPoints points }, r)

/-- Makes a batch and hands it to a sink, unless it is empty. -/
def publish (c : ExportSettings) (r : Registry) (m : Moment)
    (sink : Batch → Except SinkError Unit) :
    Logged (Publication × Registry) :=
  let (batch, r) := c.batch r m
  if batch.metrics.isEmpty then
    ⟨(⟨.ok (), none⟩, r), [⟨.debug, "No metrics to publish.", []⟩]⟩
  else
    match sink batch with
    | .ok () => ⟨(⟨.ok (), some batch⟩, r), []⟩
    | .error error =>
        let warning : Event :=
          ⟨.warn, "Failed to publish metrics.",
            [("error", .text error.message),
             ("metrics", .count batch.metrics.length)]⟩
        ⟨(⟨.error error, some batch⟩, r), [warning]⟩

/-- A sink that takes every batch. -/
def acceptAll (_ : Batch) : Except SinkError Unit := .ok ()

/-- The first setting in which a registry does not fit the exporter. -/
def mismatch? (c : ExportSettings) (r : RegistrySettings) :
    Option ConfigMismatch :=
  if r.step ≠ c.step then some ⟨"step", r.step.text, c.step.text⟩
  else if r.temporality ≠ c.temporality then
    some ⟨"temporality", r.temporality.text, c.temporality.text⟩
  else none

/-- How long the publisher waits at a wall time: until one millisecond into
the next step. -/
def wakeDelay (c : ExportSettings) (now : Int) : Duration :=
  let length := StepTracker.lengthMillis c.step
  .ofMillis (length - now % length + 1).toNat

/-- One wake of the publisher.  Delta values need all meters to have left the
step they report. -/
def wake (c : ExportSettings) (r : Registry) (m : Moment) :
    Option Batch × Registry :=
  let r :=
    match c.temporality with
    | .delta => r.rolloverAll m
    | .cumulative => r
  let ⟨(publication, r), _⟩ := c.publish r m acceptAll
  (publication.sent, r)

/-- The end of the publisher: the registry takes no more meters, all steps in
progress are closed, and what they hold is published. -/
def shutdown (c : ExportSettings) (r : Registry) (m : Moment) :
    Option Batch × Registry :=
  let r := r.close.value.closeAll m
  let ⟨(publication, r), _⟩ := c.publish r m acceptAll
  (publication.sent, r)

/-- The batches of a publisher that wakes a number of times at one moment and
is then shut down. -/
def runPublisher (c : ExportSettings) (r : Registry) (m : Moment) :
    Nat → List Batch × Registry
  | 0 =>
      let (last, r) := c.shutdown r m
      (last.toList, r)
  | wakes + 1 =>
      let (first, r) := c.wake r m
      let (later, r) := runPublisher c r m wakes
      (first.toList ++ later, r)

end ExportSettings

end WindowedMetrics
