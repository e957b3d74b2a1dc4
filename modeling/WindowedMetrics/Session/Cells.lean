/-
The value cells of an application.  A cell has a name as long as the
application owns it; sources may keep it alive beyond that.
-/
import WindowedMetrics.Meter.Blueprint

namespace WindowedMetrics

/-- All cells that ever were, by number, and the names of those that are
owned. -/
structure CellTable where
  values : Array Float
  names : List (String × Nat)

namespace CellTable

def empty : CellTable := ⟨#[], []⟩

/-- The cell of a name; a new one, at zero, if the name has none. -/
def cell (t : CellTable) (name : String) : Nat × CellTable :=
  match t.names.lookup name with
  | some number => (number, t)
  | none =>
      (t.values.size,
        ⟨t.values.push 0.0, t.names ++ [(name, t.values.size)]⟩)

/-- Sets the value of a named cell. -/
def set (t : CellTable) (name : String) (value : Float) : CellTable :=
  let (number, t) := t.cell name
  { t with values := t.values.setIfInBounds number value }

/-- Gives up a cell.  Its name is free for a new one. -/
def drop (t : CellTable) (name : String) : CellTable :=
  { t with names := t.names.filter fun e => !decide (e.1 = name) }

/-- Whether a cell has an owner. -/
def isOwned (t : CellTable) (number : Nat) : Bool :=
  t.names.any fun e => decide (e.2 = number)

end CellTable

/-- A source as an application asks for it: cells go by name. -/
inductive SourceRequest
  | constant (value : Float)
  | cell (name : String) (isWeak : Bool)

/-- The source asked for, with its cell. -/
def CellTable.source (t : CellTable) (request : SourceRequest) :
    Source × CellTable :=
  match request with
  | .constant value => (.constant value, t)
  | .cell name isWeak =>
      let (number, t) := t.cell name
      (if isWeak then .weak number else .strong number, t)

/-- The sources of several statistics, in order. -/
def CellTable.sources (t : CellTable)
    (requests : List (Statistic × SourceRequest)) :
    List (Statistic × Source) × CellTable :=
  match requests with
  | [] => ([], t)
  | (statistic, request) :: rest =>
      let (source, t) := t.source request
      let (others, t) := t.sources rest
      ((statistic, source) :: others, t)

/-- A blueprint with its sources, for one that asks for them by name. -/
def CellTable.resolve (t : CellTable) (b : Blueprint SourceRequest) :
    Blueprint Source × CellTable :=
  match b with
  | .counter => (.counter, t)
  | .gauge request =>
      let (source, t) := t.source request
      (.gauge source, t)
  | .timer => (.timer, t)
  | .summary scale => (.summary scale, t)
  | .longTaskTimer => (.longTaskTimer, t)
  | .functionCounter request =>
      let (source, t) := t.source request
      (.functionCounter source, t)
  | .functionTimer count total unit =>
      let (count, t) := t.source count
      let (total, t) := t.source total
      (.functionTimer count total unit, t)
  | .custom requests =>
      let (measurements, t) := t.sources requests
      (.custom measurements, t)

end WindowedMetrics
