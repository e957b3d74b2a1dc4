/-
Batches: the metrics of one export with the resource they come from, their
canonical order, and the log of a batch.
-/
import WindowedMetrics.Export.Point
import WindowedMetrics.Registry.Event
import WindowedMetrics.Text.Display

namespace WindowedMetrics

/-- The number of points of a metric. -/
def Metric.pointCount (g : Metric) : Nat := g.points.length

/-- The metrics of one export.  All sums and histograms of a batch have the
same temporality. -/
structure Batch where
  resource : Attributes
  scopeName : String
  temporality : Temporality
  metrics : List Metric

/-- Lexicographic order of lists of texts; texts compare by code points. -/
def textsLe : List String → List String → Bool
  | [], _ => true
  | _ :: _, [] => false
  | a :: as, b :: bs =>
      if a = b then textsLe as bs else decide (a < b)

/-- Attributes as one list of texts, so that they compare pair by pair. -/
def attributeTexts (attributes : Attributes) : List String :=
  attributes.flatMap fun pair => [pair.1, pair.2]

/-- The order of points inside a metric. -/
def Point.le (a b : Point) : Bool :=
  textsLe (attributeTexts a.attributes) (attributeTexts b.attributes)

/-- The key of a metric as texts. -/
def MetricKey.texts (k : MetricKey) : List String :=
  [k.name, k.unit, k.description, k.shape.text]

/-- Metrics by key, and the points of each by attributes. -/
def sortMetrics (metrics : List Metric) : List Metric :=
  let metrics := metrics.map fun g =>
    { g with points := g.points.mergeSort Point.le }
  metrics.mergeSort fun a b => textsLe a.key.texts b.key.texts

namespace Batch

/-- The number of points in all metrics. -/
def pointCount (b : Batch) : Nat :=
  b.metrics.foldl (fun total g => total + g.pointCount) 0

/-- The metrics of a name. -/
def metricsOf (b : Batch) (name : String) : List Metric :=
  b.metrics.filter fun g => decide (g.key.name = name)

/-- The batch in canonical order, whatever the order of the meters was. -/
def sorted (b : Batch) : Batch :=
  { b with metrics := sortMetrics b.metrics }

/-- The display form of attributes. -/
def displayAttributes (attributes : Attributes) : String :=
  Display.list (attributes.map fun pair =>
    Display.tuple [Display.quoted pair.1, Display.quoted pair.2])

/-- The log event of a point. -/
def pointEvent (temporality : Temporality) (key : MetricKey) (point : Point) :
    Event :=
  let start : List (String × Field) :=
    [("metric_name", .text key.name), ("unit", .text key.unit)]
  let reported : List (String × Field) :=
    [("temporality", .text temporality.text)]
  let attributes : List (String × Field) :=
    [("attributes", .text (displayAttributes point.attributes))]
  let own : List (String × Field) :=
    match point with
    | .sum p => reported ++ attributes ++ [("value", .number p.value)]
    | .gauge p => attributes ++ [("value", .number p.value)]
    | .histogram p =>
        let max := Display.optional (p.max.map Display.float)
        let buckets := Display.list (p.buckets.map toString)
        reported ++ attributes ++
          [("count", .count p.count.toNat), ("sum", .number p.sum),
           ("max", .text max), ("buckets", .text buckets),
           ("exemplars", .count p.exemplars.length)]
    | .summary p =>
        let quantiles := p.quantiles.map fun q =>
          Display.record "ValueAtQuantile"
            [("quantile", Display.float q.fraction),
             ("value", Display.float q.value)]
        attributes ++
          [("count", .count p.count.toNat), ("sum", .number p.sum),
           ("quantiles", .text (Display.list quantiles))]
  ⟨.debug, key.shape.text, start ++ own⟩

/-- The log of a batch: one event for the whole, one for each point. -/
def events (b : Batch) : List Event :=
  let header : Event :=
    ⟨.info, "Exporting batch.",
      [("scope", .text b.scopeName), ("metrics", .count b.metrics.length),
       ("points", .count b.pointCount)]⟩
  header :: b.metrics.flatMap fun g =>
    g.points.map (pointEvent b.temporality g.key)

end Batch

end WindowedMetrics
