/-
What an application can do, as data, and what it gets to see of it.
-/
import WindowedMetrics.Export.Publication
import WindowedMetrics.Session.Cells
import WindowedMetrics.Session.Reading

namespace WindowedMetrics

/-- Commands on the registry as a whole.  `add` registers a meter by its kind,
`register` makes the instrument from the resolved configuration as it is;
both bind a handle. -/
inductive RegistryCommand
  | appendFilter (filter : Filter)
  | add (handle : String) (id : Id) (parts : Blueprint SourceRequest)
      (config : DistributionSettings)
  | register (handle : String) (id : Id) (parts : Blueprint SourceRequest)
      (config : DistributionSettings)
  | refuse (handle : String) (id : Id)
  | get (id : Id)
  | remove (id : Id)
  | removeFiltered (id : Id)
  | listAll
  | listNamed (name : String)
  | size
  | clear
  | close
  | isClosed
  | rolloverAll
  | closeAll
  | display

/-- Commands on the meter of a handle. -/
inductive MeterCommand
  | increment (amount : Float)
  | recordDurations (durations : List Duration) (nanos : List Nat)
  | recordAmounts (amounts : List Float)
  | rollover
  | close
  | measure (temporality : Temporality) (unit : TimeUnit)
  | takeExemplars
  | read (temporality : Temporality) (unit : TimeUnit)

/-- Commands on samples of time, the timing scope and long tasks. -/
inductive SampleCommand
  | start (sample : String)
  | elapsed (sample : String)
  | display (sample : String)
  | stop (sample handle : String)
  | pushScope
  | popScope (handle : String)
  | scopeDepth
  | startTask (handle task : String)
  | stopTask (task : String)

/-- Commands on the exporter.  Settings of a conversion that are not given are
those of the registry. -/
inductive ExportCommand
  | convert (handles : List String) (temporality : Option Temporality)
      (unit : Option TimeUnit) (step : Option Duration)
  | batch
  | batchNamed (name : String)
  | log
  | publish (failure : Option SinkError)
  | runPublisher (wakes : Nat)

/-- The commands of an application.  `recordRun` times something that takes
`elapsed`. -/
inductive Command
  | advance (elapsed : Duration)
  | setWall (wall : Int)
  | setCell (name : String) (value : Float)
  | dropCell (name : String)
  | displaySource (source : SourceRequest)
  | setContext (context : Option TraceContext)
  | registry (command : RegistryCommand)
  | meter (handle : String) (command : MeterCommand)
  | recordRun (handle : String) (elapsed : Duration)
  | sample (command : SampleCommand)
  | exporter (command : ExportCommand)

/-- What is shown of a meter.  `oldest` is the oldest handle that leads to
it. -/
structure MeterView where
  id : Id
  kind : MeterKind
  isIdle : Option Bool
  created : Int
  oldest : Option String

/-- The answers to commands.  `unknownHandle` and `otherKind` refuse a command
on a handle that was never bound or that has a meter of another kind. -/
inductive Answer
  | done
  | unknownHandle
  | otherKind
  | meter (view : Option MeterView)
  | failed (error : RegistrationError)
  | listing (meters : List (String × String))
  | size (count : Nat)
  | flag (value : Bool)
  | depth (count : Nat)
  | text (value : Option String)
  | source (text : String) (isWeak : Bool) (sample : Option Float)
      (value : Float)
  | elapsed (duration : Option Duration)
  | returned
  | measurements (values : List Measurement)
  | exemplars (values : List Exemplar)
  | reading (value : Reading)
  | metrics (temporality : Temporality) (groups : List Metric)
  | batch (value : Batch)
  | published (outcome : Except SinkError Unit)
      (batches : List Batch)
  | mismatch (error : ConfigMismatch)
  | publisher (first : List Batch) (last : Option Batch)

end WindowedMetrics
