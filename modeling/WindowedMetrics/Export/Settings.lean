/-
Settings of an exporter, and the settings of the registry that goes with it.
-/
import WindowedMetrics.Export.Point
import WindowedMetrics.Registry.Settings

namespace WindowedMetrics

/-- Sets an attribute; a known key keeps its place. -/
def setAttribute (attributes : Attributes) (key value : String) :
    Attributes :=
  match attributes with
  | [] => [(key, value)]
  | head :: rest =>
      if head.1 = key then (key, value) :: rest
      else head :: setAttribute rest key value

/-- What an exporter reports, how, and about whom. -/
structure ExportSettings where
  step : Duration
  temporality : Temporality
  baseTimeUnit : TimeUnit
  distribution : DistributionSettings
  exemplars : Bool
  exemplarCells : Nat
  resource : Attributes
  scopeName : String

namespace ExportSettings

/-- One-minute steps, cumulative values in milliseconds, no exemplars. -/
def standard : ExportSettings :=
  { step := .ofSeconds 60
    temporality := .cumulative
    baseTimeUnit := .milliseconds
    distribution := .empty
    exemplars := false
    exemplarCells := 16
    resource := []
    scopeName := "stepmeter" }

/-- Sets the number of exemplar cells; at least one. -/
def withCells (c : ExportSettings) (cells : Nat) : ExportSettings :=
  { c with exemplarCells := max cells 1 }

/-- Sets a resource attribute. -/
def withResource (c : ExportSettings) (key value : String) :
    ExportSettings :=
  { c with resource := setAttribute c.resource key value }

/-- The registry settings to match.  Exemplars are sampled only if they are
enabled and there is a trace context to take them from. -/
def forRegistry (c : ExportSettings) (hasTraceContext : Bool) :
    RegistrySettings :=
  RegistrySettings.withCells
    { step := c.step
      temporality := c.temporality
      baseTimeUnit := c.baseTimeUnit
      distribution := c.distribution
      exemplarCells := c.exemplarCells
      exemplars := c.exemplars && hasTraceContext }
    c.exemplarCells

end ExportSettings

end WindowedMetrics
