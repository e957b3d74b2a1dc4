/-
Where function-backed meters read their values from, and the surroundings
that operations on meters take place in.
-/
import WindowedMetrics.Exemplar.Context
import WindowedMetrics.Text.Display
import WindowedMetrics.Time.Clock

namespace WindowedMetrics

/-- A source of values: a constant, or a cell of the application.  A strong
source keeps its cell alive, a weak one reads it only as long as someone else
does. -/
inductive Source
  | constant (value : Float)
  | strong (cell : Nat)
  | weak (cell : Nat)
deriving Inhabited

/-- What the cells of an application hold, and which of them are alive. -/
structure Readings where
  value : Nat → Float
  alive : Nat → Bool

namespace Source

/-- The present value, unless the cell behind a weak source is gone. -/
def sample (s : Source) (r : Readings) : Option Float :=
  match s with
  | constant value => some value
  | strong cell => some (r.value cell)
  | weak cell => if r.alive cell then some (r.value cell) else none

/-- The present value, NaN if there is none. -/
def value (s : Source) (r : Readings) : Float :=
  (s.sample r).getD (0.0 / 0.0)

/-- The present value, if there is one and it is finite. -/
def finite? (s : Source) (r : Readings) : Option Float :=
  (s.sample r).filter Float.isFinite

def isWeak : Source → Bool
  | weak _ => true
  | _ => false

/-- The cell that the source keeps alive. -/
def held? : Source → Option Nat
  | strong cell => some cell
  | _ => none

/-- The display form. -/
def display (s : Source) : String :=
  Display.openRecord "ValueSource" [("weak", Display.bool s.isWeak)]

end Source

/-- The surroundings of an operation on a meter: the time, the trace context
of the thread, the draws of chance, and the values of the application. -/
structure Moment where
  clock : Clock
  context : Option TraceContext
  draw : Nat → Nat
  readings : Readings

/-- Wall time in milliseconds. -/
def Moment.now (m : Moment) : Int := m.clock.wall

end WindowedMetrics
