/-
Counters: sums of non-negative amounts.
-/
import WindowedMetrics.Meter.Source
import WindowedMetrics.Registry.Settings
import WindowedMetrics.Step.Window

namespace WindowedMetrics

/-- Measurements below zero and NaN are never counted. -/
def isAccepted (amount : Float) : Bool := decide (0.0 ≤ amount)

/-- The sum of all time, the sum by steps, and sampled amounts. -/
structure Counter where
  total : Float
  step : RollingWindow Accumulator.doubleSum
  exemplars : Option Reservoir

namespace Counter

/-- A counter at zero. -/
def create (c : RegistrySettings) (now : Int) : Counter :=
  ⟨0.0, RollingWindow.starting _ c.step now, c.reservoir? #[] now⟩

/-- Adds an amount, if it is accepted. -/
def increment (c : Counter) (m : Moment) (amount : Float) : Counter :=
  if isAccepted amount then
    { total := c.total + amount
      step := c.step.record m.now amount
      exemplars := c.exemplars.map (·.offer m.now m.context m.draw amount) }
  else c

/-- The sum under the given temporality. -/
def value (c : Counter) (temporality : Temporality) (now : Int) :
    Float × Counter :=
  match temporality with
  | .cumulative => (c.total, c)
  | .delta =>
      let (value, step) := c.step.poll now
      (value, { c with step := step })

/-- Takes the exemplars of the last closed step. -/
def takeExemplars (c : Counter) (now : Int) : List Exemplar × Counter :=
  match c.exemplars with
  | none => ([], c)
  | some reservoir =>
      let (exemplars, reservoir) := reservoir.drain now
      (exemplars, { c with exemplars := some reservoir })

/-- Moves the sum to the step of `now`. -/
def rollover (c : Counter) (now : Int) : Counter :=
  { c with step := c.step.rollover now }

/-- Closes the step in progress. -/
def close (c : Counter) : Counter :=
  { c with step := c.step.close, exemplars := c.exemplars.map Reservoir.close }

end Counter

end WindowedMetrics
