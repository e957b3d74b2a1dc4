/-
The data points of an export, and their grouping into metrics.
-/
import WindowedMetrics.Exemplar.Context
import WindowedMetrics.Histogram.Snapshot
import WindowedMetrics.Time.Temporality

namespace WindowedMetrics

/-- Keys with values, in the order they are reported. -/
abbrev Attributes := List (String × String)

/-- A span of time in nanoseconds since the epoch. -/
structure Interval where
  start : Nat
  stop : Nat
deriving Repr, DecidableEq

/-- An exemplar in the unit of its point. -/
structure PointExemplar where
  value : Float
  timeNanos : Nat
  context : TraceContext

/-- A single number. -/
structure NumberPoint where
  attributes : Attributes
  interval : Interval
  value : Float
  exemplars : List PointExemplar

/-- A distribution with bucket counts.  There is one more count than bounds,
for what lies above the last one, or neither of them. -/
structure HistogramPoint where
  attributes : Attributes
  interval : Interval
  count : UInt64
  sum : Float
  max : Option Float
  bounds : List Float
  buckets : List UInt64
  exemplars : List PointExemplar

/-- A distribution with quantiles. -/
structure SummaryPoint where
  attributes : Attributes
  interval : Interval
  count : UInt64
  sum : Float
  quantiles : List Quantile

/-- What the points of a metric look like. -/
inductive Shape
  | sum
  | gauge
  | histogram
  | summary
deriving Repr, DecidableEq

def Shape.text : Shape → String
  | sum => "sum"
  | gauge => "gauge"
  | histogram => "histogram"
  | summary => "summary"

/-- A data point of one of the shapes. -/
inductive Point
  | sum (point : NumberPoint)
  | gauge (point : NumberPoint)
  | histogram (point : HistogramPoint)
  | summary (point : SummaryPoint)

namespace Point

def shape : Point → Shape
  | sum _ => .sum
  | gauge _ => .gauge
  | histogram _ => .histogram
  | summary _ => .summary

def attributes : Point → Attributes
  | sum p => p.attributes
  | gauge p => p.attributes
  | histogram p => p.attributes
  | summary p => p.attributes

end Point

/-- What tells metrics apart. -/
structure MetricKey where
  name : String
  unit : String
  description : String
  shape : Shape
deriving Repr, DecidableEq

/-- A point with the name, unit and description of the metric it belongs
to. -/
structure NamedPoint where
  name : String
  unit : String
  description : String
  point : Point

/-- The metric that the point belongs to. -/
def NamedPoint.key (p : NamedPoint) : MetricKey :=
  ⟨p.name, p.unit, p.description, p.point.shape⟩

/-- The points of one metric. -/
structure Metric where
  key : MetricKey
  points : List Point

/-- Adds a point to the group of its metric, at the end if there is none
yet. -/
def insertPoint (groups : List Metric) (p : NamedPoint) :
    List Metric :=
  match groups with
  | [] => [⟨p.key, [p.point]⟩]
  | group :: rest =>
      if group.key = p.key then
        { group with points := group.points ++ [p.point] } :: rest
      else group :: insertPoint rest p

/-- Points grouped into metrics: metrics in the order of their first points,
the points of each in the order given. -/
def groupPoints (points : List NamedPoint) : List Metric :=
  points.foldl insertPoint []

end WindowedMetrics
