/-
Settings of a registry, and the windows and samplers that its meters get from
them.
-/
import WindowedMetrics.Exemplar.Reservoir
import WindowedMetrics.Histogram.Windowed
import WindowedMetrics.Time.Temporality
import WindowedMetrics.Time.Unit

namespace WindowedMetrics

/-- `step` is the length of all windows, `distribution` fills what meters
leave open, and `exemplars` tells whether measurements are sampled, with
`exemplarCells` cells where they are not sampled by bucket. -/
structure RegistrySettings where
  step : Duration
  temporality : Temporality
  baseTimeUnit : TimeUnit
  distribution : DistributionSettings
  exemplarCells : Nat
  exemplars : Bool

namespace RegistrySettings

/-- One-minute steps, cumulative values in milliseconds, sixteen cells and no
exemplars. -/
def standard : RegistrySettings :=
  ⟨.ofSeconds 60, .cumulative, .milliseconds, .empty, 16, false⟩

/-- Sets the number of cells; at least one. -/
def withCells (c : RegistrySettings) (cells : Nat) : RegistrySettings :=
  { c with exemplarCells := max cells 1 }

/-- How histograms forget under the configured temporality. -/
def retention (c : RegistrySettings) : Retention :=
  match c.temporality with
  | .cumulative => .cumulative
  | .delta => .step c.step

/-- The histogram of a meter that is created at `now`. -/
def histogram (c : RegistrySettings) (distribution : DistributionSettings)
    (now : Int) : Except DistributionError (Option Histogram) :=
  Histogram.create distribution c.retention now

/-- The exemplar sampler of a meter with the given bucket bounds, if
measurements are sampled. -/
def reservoir? (c : RegistrySettings) (bounds : Array Float) (now : Int) :
    Option Reservoir :=
  if c.exemplars then
    let selector : CellChoice :=
      if bounds.isEmpty then .random else .buckets bounds
    some (Reservoir.create selector c.exemplarCells c.step now)
  else none

/-- The display form. -/
def display (c : RegistrySettings) : String :=
  Display.record "RegistryConfig"
    [("step", c.step.text),
     ("temporality", c.temporality.name),
     ("base_time_unit", c.baseTimeUnit.name),
     ("distribution", c.distribution.display),
     ("exemplar_cells", toString c.exemplarCells),
     ("exemplars", Display.bool c.exemplars)]

end RegistrySettings

end WindowedMetrics
