/-
An application at work with a registry and an exporter: the handles it holds,
its cells, running samples, and the clock it goes by.
-/
import WindowedMetrics.Exemplar.Chance
import WindowedMetrics.Export.Publication
import WindowedMetrics.Session.Cells

namespace WindowedMetrics

/-- A task under way: the handle of its timer, and the sample if the timer
keeps one. -/
structure RunningTask where
  timer : MeterHandle
  sample : Option TaskSample

/-- The state of an application.  Handles are in the order of their binding;
`samples` and `scope` hold monotonic times of starts, the latest of the scope
first. -/
structure Session where
  clock : Clock
  context : Option TraceContext
  chance : Chance
  cells : CellTable
  registry : Registry
  exporter : ExportSettings
  handles : List (String × MeterHandle)
  samples : List (String × Int)
  scope : List Int
  tasks : List (String × RunningTask)

namespace Session

/-- An application that has not done anything yet; its samplers will draw the
given numbers. -/
def create (config : RegistrySettings) (exporter : ExportSettings)
    (context : Option TraceContext) (wall : Int)
    (draws : Nat → Nat → Nat) : Session :=
  { clock := Clock.startingAt wall
    context := context
    chance := Chance.ofDraws draws
    cells := CellTable.empty
    registry := Registry.create config
    exporter := exporter
    handles := []
    samples := []
    scope := []
    tasks := [] }

/-- The meters behind handles. -/
def handled (s : Session) : List Meter :=
  s.handles.filterMap fun e => s.registry.meterOf? e.2

/-- The cells as sources see them while some meters are in use besides those
behind handles. -/
def readingsWith (s : Session) (meters : List Meter) : Readings where
  value cell := s.cells.values.getD cell 0.0
  alive cell :=
    s.cells.isOwned cell || (meters ++ s.handled).any (·.keepsAlive cell)

/-- The surroundings of an operation, by the meters in use besides those
behind handles. -/
def surroundings (s : Session) : Surroundings := fun meters =>
  ⟨s.clock, s.context, s.chance.below, s.readingsWith meters⟩

/-- The surroundings with all registered meters in use. -/
def moment (s : Session) : Moment := s.surroundings s.registry.meters

/-- The handle of a name. -/
def handle? (s : Session) (name : String) : Option MeterHandle :=
  s.handles.lookup name

/-- The meter of a handle's name. -/
def meter? (s : Session) (name : String) : Option Meter :=
  (s.handle? name).bind s.registry.meterOf?

/-- Binds a handle, as the youngest. -/
def bind (s : Session) (name : String) (handle : MeterHandle) : Session :=
  let others := s.handles.filter fun e => !decide (e.1 = name)
  { s with handles := others ++ [(name, handle)] }

/-- Whether two handles lead to the very same meter.  A refused meter belongs
to one registration alone. -/
def sameMeter : MeterHandle → MeterHandle → Bool
  | .made a, .made b => decide (a = b)
  | _, _ => false

/-- The oldest handle that leads to the meter. -/
def oldestName? (s : Session) (handle : MeterHandle) : Option String :=
  (s.handles.find? fun e => sameMeter e.2 handle).map Prod.fst

/-- Replaces the value under a key of a list, at the end. -/
def rebind {A : Type} (entries : List (String × A)) (name : String)
    (value : A) : List (String × A) :=
  (entries.filter fun e => !decide (e.1 = name)) ++ [(name, value)]

/-- The list without a key. -/
def unbind {A : Type} (entries : List (String × A)) (name : String) :
    List (String × A) :=
  entries.filter fun e => !decide (e.1 = name)

/-- Puts a meter back under its handle. -/
def put (s : Session) (handle : MeterHandle) (meter : Meter) : Session :=
  { s with registry := s.registry.put handle meter }

/-- The session with the next draw of chance. -/
def tick (s : Session) : Session := { s with chance := s.chance.next }

end Session

end WindowedMetrics
