import WindowedMetrics.Distribution.Settings
import WindowedMetrics.Exemplar.Reservoir
import WindowedMetrics.Export.Properties
import WindowedMetrics.Export.Publication
import WindowedMetrics.Histogram.BucketCounts
import WindowedMetrics.Histogram.LogLinear
import WindowedMetrics.Histogram.Windowed
import WindowedMetrics.Identity.Id
import WindowedMetrics.Meter.Blueprint
import WindowedMetrics.Meter.Distribution
import WindowedMetrics.Meter.Function
import WindowedMetrics.Meter.LongTasks
import WindowedMetrics.Number.Reader
import WindowedMetrics.Proofs.Histogram.Ring
import WindowedMetrics.Proofs.Exemplar.Reservoir
import WindowedMetrics.Proofs.Export.Acceptance
import WindowedMetrics.Proofs.Export.Owed
import WindowedMetrics.Proofs.Meter.Closing
import WindowedMetrics.Proofs.Registry.Derivation
import WindowedMetrics.Proofs.Session.Attributes
import WindowedMetrics.Proofs.Session.Catalogue
import WindowedMetrics.Proofs.Session.Exemplars
import WindowedMetrics.Proofs.Session.Failure
import WindowedMetrics.Proofs.Session.Lifetime
import WindowedMetrics.Proofs.Session.Measurements
import WindowedMetrics.Proofs.Session.Rest
import WindowedMetrics.Proofs.Session.Shutdown
import WindowedMetrics.Proofs.Step.Window
import WindowedMetrics.Registry.Basic
import WindowedMetrics.Registry.Filter
import WindowedMetrics.Session.Perform
import WindowedMetrics.Step.Window
import WindowedMetrics.Text.Blank
import WindowedMetrics.Text.Display
import WindowedMetrics.Time.Clock
import WindowedMetrics.Time.Temporality
import WindowedMetrics.Time.Unit
import WindowedMetrics.Proofs.Histogram.Grid
import WindowedMetrics.Proofs.Histogram.GridWords
import WindowedMetrics.Proofs.Number.Rounding
import WindowedMetrics.Proofs.Number.Whole
import WindowedMetrics.Proofs.Number.Exact
import WindowedMetrics.Proofs.Histogram.Percentile
import WindowedMetrics.Proofs.Meter.Telescoping
import WindowedMetrics.Proofs.Registry.Closings
import WindowedMetrics.Proofs.Registry.Sweep
import WindowedMetrics.Proofs.Export.Faults
import WindowedMetrics.Proofs.Export.Waking
import WindowedMetrics.Proofs.Meter.Account
import WindowedMetrics.Proofs.Meter.Flushing
import WindowedMetrics.Proofs.Number.Sign
import WindowedMetrics.Proofs.Export.DeltaSign
import WindowedMetrics.Proofs.Registry.Renaming
import WindowedMetrics.Proofs.Registry.Resolution
import WindowedMetrics.Proofs.Histogram.Merging
import WindowedMetrics.Proofs.Number.TotalOrder
import WindowedMetrics.Proofs.Number.Words
import WindowedMetrics.Proofs.Histogram.Expiry
import WindowedMetrics.Proofs.Distribution.Bounds
import WindowedMetrics.Proofs.Registry.Provenance
import WindowedMetrics.Proofs.Session.Provenance
import WindowedMetrics.Proofs.Meter.BucketBounds
import WindowedMetrics.Proofs.Session.Shapes
import WindowedMetrics.Proofs.Meter.TaskLedger
import WindowedMetrics.Proofs.Meter.LongTasks
import WindowedMetrics.Proofs.Registry.TagLimits
import WindowedMetrics.Proofs.Text.Trimming
import WindowedMetrics.Proofs.Export.AttributeTexts
import WindowedMetrics.Proofs.Export.DurationTexts
