/-
The registry: meters under their names and tags, each made once.  Filters see
every registration first; removing a meter also removes what was derived
from it.
-/
import WindowedMetrics.Meter.Blueprint
import WindowedMetrics.Registry.ChildIndex
import WindowedMetrics.Registry.Filter

namespace WindowedMetrics

/-- What a registration hands out: a reference to a meter that the registry
made, or a meter that measures nothing. -/
inductive MeterHandle
  | made (reference : Nat)
  | refused (meter : Meter)

/-- `made` holds every meter that the registry ever made, since handles
outlive a removal; `entries` are the registered ones, by age. -/
structure Registry where
  config : RegistrySettings
  filters : List Filter
  closed : Bool
  made : Array Meter
  entries : List (MeterKey × Nat)
  children : ChildIndex

/-- The surroundings of an operation, by the meters that are in use.  A weak
source reads its cell only as long as the application or a meter in use keeps
the cell alive. -/
abbrev Surroundings := List Meter → Moment

namespace Registry

/-- A registry without meters and filters. -/
def create (config : RegistrySettings) : Registry :=
  ⟨config, [], false, #[], [], .empty⟩

/-! ### Looking up -/

/-- The number of registered meters. -/
def size (r : Registry) : Nat := r.entries.length

/-- The reference of a registered meter. -/
def find? (r : Registry) (key : MeterKey) : Option Nat :=
  r.entries.lookup key

/-- The references of all registered meters, oldest first. -/
def references (r : Registry) : List Nat := r.entries.map Prod.snd

/-- All registered meters, oldest first. -/
def meters (r : Registry) : List Meter :=
  r.references.filterMap (r.made[·]?)

/-- A registered meter. -/
def get? (r : Registry) (key : MeterKey) : Option Meter :=
  (r.find? key).bind (r.made[·]?)

/-- The registered meters of a name. -/
def named (r : Registry) (name : String) : List Meter :=
  (r.entries.filter fun e => decide (e.1.name = name)).filterMap
    fun e => r.made[e.2]?

/-- The meter behind a handle. -/
def meterOf? (r : Registry) (handle : MeterHandle) : Option Meter :=
  match handle with
  | .made reference => r.made[reference]?
  | .refused meter => some meter

/-- Puts a meter back after an operation on it.  Meters that measure nothing
have no state to keep. -/
def put (r : Registry) (handle : MeterHandle) (meter : Meter) : Registry :=
  match handle with
  | .made reference =>
      { r with made := r.made.setIfInBounds reference meter }
  | .refused _ => r

/-- Runs an operation on every meter in a list of references. -/
def updateAll (r : Registry) (references : List Nat) (op : Meter → Meter) :
    Registry :=
  { r with
    made := references.foldl (fun made ref => made.modify ref op) r.made }

/-! ### Registering -/

/-- Adds a filter at the end of the chain.  Meters that are registered
already stay as they are, which is worth a warning. -/
def appendFilter (r : Registry) (filter : Filter) : Logged Registry :=
  let warning : Event :=
    ⟨.warn, "filter added after meters were registered; " ++
      "it will not apply to those meters", [("registered", .count r.size)]⟩
  ⟨{ r with filters := r.filters ++ [filter] },
    if r.size = 0 then [] else [warning]⟩

/-- The refusal of a name that another kind of meter has, with its
warning. -/
def refuseKind (existing : Meter) (requested : MeterKind) :
    RegistrationError × Event :=
  (.kindConflict existing.id existing.kind requested,
    ⟨.warn, "meter kind conflict",
      [("metric_name", .text existing.id.name),
       ("existing", .text existing.kind.text),
       ("requested", .text requested.text)]⟩)

/-- The configuration that a new meter is built from.  Filters come first,
then the meter's own settings, the registry's defaults, and the step as
expiry.  Kinds without distributions keep their own. -/
def resolveConfig (r : Registry) (kind : MeterKind) (id : Id)
    (own : DistributionSettings) : DistributionSettings :=
  if kind.hasDistribution then
    ((adjustByAll r.filters id own).merge r.config.distribution).merge
      { DistributionSettings.empty with expiry := some r.config.step }
  else own

/-- Enters a new meter, and its association with a parent under the parent's
filtered identity. -/
def enter (r : Registry) (id : Id) (meter : Meter) : Registry where
  config := r.config
  filters := r.filters
  closed := r.closed
  made := r.made.push meter
  entries := r.entries ++ [(id.key, r.made.size)]
  children :=
    match id.parent with
    | none => r.children
    | some parent => r.children.add (mapByAll r.filters parent).key id.key

/-- An event that names a meter and a kind. -/
def meterEvent (message name : String) (kind : MeterKind) : Event :=
  ⟨.debug, message, [("metric_name", .text name), ("kind", .text kind.text)]⟩

/-- Registers a meter, or finds the one that is registered already.  In this
order: a closed registry refuses, the filters change the identity, a
registered meter of the right kind is returned, the filters admit or refuse,
and only then a new meter is made. -/
def register (r : Registry) (id : Id) (own : DistributionSettings)
    (factory : MeterFactory) (now : Int) :
    Logged (Except RegistrationError MeterHandle × Registry) :=
  let requested := id.kind
  if r.closed then ⟨(.ok (.refused (Meter.idle id)), r), []⟩
  else
    let id := mapByAll r.filters id
    match r.find? id.key, r.get? id.key with
    | some reference, some existing =>
        if existing.kind = requested then ⟨(.ok (.made reference), r), []⟩
        else
          let (error, warning) := refuseKind existing requested
          ⟨(.error error, r), [warning]⟩
    | _, _ =>
        let ⟨(admitted, filters), events⟩ := admitByAll r.filters id
        let r := { r with filters := filters }
        if admitted then
          let config := r.resolveConfig requested id own
          match factory id config r.config now with
          | .error error => ⟨(.error error, r), events⟩
          | .ok meter =>
              ⟨(.ok (.made r.made.size), r.enter id meter),
                events ++ [meterEvent "registered meter" id.name requested]⟩
        else
          ⟨(.ok (.refused (Meter.idle id)), r),
            events ++
              [meterEvent "meter denied by filter" id.name requested]⟩

/-- Registers a meter of the blueprint's kind.  Filters can give a refused
meter another kind; that is a refuseKind too. -/
def add (r : Registry) (blueprint : Blueprint Source)
    (id : Id) (own : DistributionSettings) (now : Int) :
    Logged (Except RegistrationError MeterHandle × Registry) :=
  let kind := blueprint.kind
  let ⟨(outcome, r), events⟩ :=
    r.register (id.withKind kind) own blueprint.buildTyped now
  match outcome with
  | .ok (.refused meter) =>
      if meter.kind = kind then ⟨(.ok (.refused meter), r), events⟩
      else
        let (error, warning) := refuseKind meter kind
        ⟨(.error error, r), events ++ [warning]⟩
  | other => ⟨(other, r), events⟩

/-! ### Removing -/

/-- Takes a meter out of the registered ones and closes it.  While it closes,
it is still in use, as are all other registered meters and those in `kept`. -/
def takeOut (r : Registry) (key : MeterKey) (kept : List Meter)
    (around : Surroundings) : Logged (Option Nat × Registry) :=
  match r.find? key, r.get? key with
  | some reference, some meter =>
      let m := around (kept ++ r.meters)
      let entries := r.entries.filter fun e => !decide (e.1 = key)
      let r := { r with entries := entries }
      ⟨(some reference, r.updateAll [reference] (·.close m)),
        [meterEvent "removed meter" key.name meter.kind]⟩
  | _, _ => ⟨(none, r), []⟩

/-- Takes several meters out, one after the other; those not registered are
skipped.  A meter that was taken out is no longer in use for the next. -/
def takeOutAll (r : Registry) (keys : List MeterKey) (kept : List Meter)
    (around : Surroundings) : Logged Registry :=
  keys.foldl (fun done key =>
    let ⟨(_, r), events⟩ := done.value.takeOut key kept around
    ⟨r, done.events ++ events⟩) ⟨r, []⟩

/-- The index after a meter left it as a child, by the parent's identity
under the present filters. -/
def forgetChild (r : Registry) (meter : Meter) (key : MeterKey) :
    ChildIndex :=
  match meter.id.parent with
  | none => r.children
  | some parent => r.children.remove (mapByAll r.filters parent).key key

/-- Removes a meter and everything derived from it, however deep; returns the
reference of the meter.  The meter itself stays in use until all is done. -/
def remove (r : Registry) (key : MeterKey) (around : Surroundings) :
    Logged (Option Nat × Registry) :=
  match r.get? key with
  | none => ⟨(none, r), []⟩
  | some meter =>
      let ⟨(reference, r), events⟩ := r.takeOut key [] around
      let index := r.forgetChild meter key
      let (derived, left) :=
        (index.without key).takeDescendants [key] (index.childrenOf key)
      let ⟨r, later⟩ :=
        { r with children := left }.takeOutAll derived [meter] around
      ⟨(reference, r), events ++ later⟩

/-- Removes the meter that an identity leads to after all filters. -/
def removeFiltered (r : Registry) (id : Id) (around : Surroundings) :
    Logged (Option Nat × Registry) :=
  r.remove (mapByAll r.filters id).key around

/-- Removes and closes all meters; all are in use until all are closed. -/
def clear (r : Registry) (m : Moment) : Logged Registry :=
  let cleared := r.updateAll r.references (·.close m)
  ⟨{ cleared with entries := [], children := .empty },
    [⟨.debug, "cleared registry", [("removed", .count r.size)]⟩]⟩

/-- Closes the registry for registrations; its meters go on. -/
def close (r : Registry) : Logged Registry :=
  if r.closed then ⟨r, []⟩
  else
    ⟨{ r with closed := true },
      [⟨.info, "meter registry closed", [("meters", .count r.size)]⟩]⟩

/-! ### Moving the windows -/

/-- Moves the windows of all registered meters to the present step. -/
def rolloverAll (r : Registry) (m : Moment) : Registry :=
  r.updateAll r.references (·.rollover m)

/-- Closes the step in progress of all registered meters. -/
def closeAll (r : Registry) (m : Moment) : Registry :=
  r.updateAll r.references (·.close m)

/-- The display form. -/
def display (r : Registry) : String :=
  Display.record "MeterRegistry"
    [("meters", toString r.size),
     ("filters", toString r.filters.length),
     ("closed", Display.bool r.closed),
     ("context", Display.openRecord "MeterContext"
       [("config", r.config.display)])]

end Registry

end WindowedMetrics
