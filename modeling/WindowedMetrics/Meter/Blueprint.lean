/-
What a meter is built from, apart from its identity and the settings of the
registry that it is built in.
-/
import WindowedMetrics.Meter.Basic

namespace WindowedMetrics

/-- Why a meter cannot be had. -/
inductive RegistrationError
  | kindConflict (id : Id) (existing requested : MeterKind)
  | distribution (id : Id) (cause : DistributionError)

/-- The wording of an error. -/
def RegistrationError.message : RegistrationError → String
  | kindConflict id existing requested =>
      "meter `" ++ id.text ++ "` is already registered as a " ++
        existing.text ++ "; it cannot also be registered as a " ++
        requested.text
  | distribution id cause =>
      "invalid distribution configuration for meter `" ++ id.text ++ "`: " ++
        cause.message

/-- The parts of a meter of each kind, with sources of type `S`.  A function
timer's total is in `unit`. -/
inductive Blueprint (S : Type)
  | counter
  | gauge (source : S)
  | timer
  | summary (scale : Float)
  | longTaskTimer
  | functionCounter (source : S)
  | functionTimer (count total : S) (unit : TimeUnit)
  | custom (measurements : List (Statistic × S))

/-- How a registry makes a meter that it does not have yet: from the final
identity, the resolved distribution configuration, its own settings and the
present wall time. -/
abbrev MeterFactory :=
  Id → DistributionSettings → RegistrySettings → Int →
    Except RegistrationError Meter

namespace Blueprint

def kind {S : Type} : Blueprint S → MeterKind
  | counter => .counter
  | gauge _ => .gauge
  | timer => .timer
  | summary _ => .summary
  | longTaskTimer => .longTaskTimer
  | functionCounter _ => .functionCounter
  | functionTimer _ _ _ => .functionTimer
  | custom _ => .custom

/-- Builds the instrument. -/
def instrument (b : Blueprint Source) (config : DistributionSettings)
    (c : RegistrySettings) (now : Int) :
    Except DistributionError Instrument :=
  match b with
  | counter => .ok (.counter (some (Counter.create c now)))
  | gauge source => .ok (.gauge (some source))
  | timer => (Distribution.create c config now).map fun d => .timer (some d)
  | summary scale =>
      (Distribution.create c config now).map fun d => .summary scale (some d)
  | longTaskTimer => .ok (.longTaskTimer (some (LongTasks.create config)))
  | functionCounter source =>
      .ok (.functionCounter (some (FunctionCounter.create source c now)))
  | functionTimer count total unit =>
      .ok (.functionTimer (some (FunctionTimer.create count total unit c now)))
  | custom measurements => .ok (.custom measurements)

/-- The factory that builds from the configuration as it is. -/
def build (b : Blueprint Source) : MeterFactory := fun id config c now =>
  match b.instrument config c now with
  | .error cause => .error (.distribution id cause)
  | .ok instrument => .ok ⟨id, now, instrument⟩

/-- The expected range of a kind where nothing else is configured: from a
millisecond to thirty seconds for timers, from two minutes to two hours for
long tasks. -/
def defaultRange {S : Type} : Blueprint S → DistributionSettings
  | timer => .ofRange 1000000.0 30000000000.0
  | longTaskTimer => .ofRange 120000000000.0 7200000000000.0
  | _ => .empty

/-- The factory behind a registration by kind.  The kind's own range comes
last; a long task timer checks its configuration before that. -/
def buildTyped (b : Blueprint Source) : MeterFactory := fun id config c now =>
  let complete := config.merge b.defaultRange
  match b with
  | longTaskTimer =>
      match config.check with
      | .error cause => .error (.distribution id cause)
      | .ok () => b.build id complete c now
  | _ => b.build id complete c now

end Blueprint

end WindowedMetrics
