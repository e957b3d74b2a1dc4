/-
Attributes in the batches of a run.  The registry tells its meters apart by
name and tags, so the points of a metric differ in their attributes, but for
the two slips that custom meters allow.
-/
import WindowedMetrics.Proofs.Export.Attributes
import WindowedMetrics.Proofs.Session.Effect

namespace WindowedMetrics

namespace Session

/-- No command makes the registry mix its meters up. -/
theorem keyed_perform {s : Session} (h : s.registry.Keyed) (c : Command) :
    (s.perform c).value.2.registry.Keyed := by
  have heffect := (effect_perform h.wellFormed c).registry
  generalize (s.perform c).value.2 = next at heffect ⊢
  generalize next.registry = registry at heffect ⊢
  cases heffect with
  | used hused => exact h.used hused
  | filtered => exact ⟨⟨h.wellFormed.lt_size, h.wellFormed.references_nodup⟩,
      h.keys_nodup, h.meters⟩
  | registered hregisters _ hregistered =>
      apply h.registered hregistered
      intro own meter hmade
      obtain ⟨_, _, _, rfl⟩ := hregisters.built hmade
      rfl

theorem keyed_run {s : Session} (h : s.registry.Keyed)
    (commands : List Command) : (s.run commands).2.registry.Keyed := by
  induction commands generalizing s with
  | nil => exact h
  | cons c rest ih => exact ih (keyed_perform h c)

/-- In every state of a run, the points of a metric in a batch have different
attributes exactly if no two numbers of a custom meter in the metric share a
statistic and no gauge in it has for tags those of a custom meter there with
the statistic of one of its numbers.  In sums, histograms and summaries they
always have. -/
theorem distinct_attributes_of_run (config : RegistrySettings)
    (exporter : ExportSettings) (context : Option TraceContext) (wall : Int)
    (draws : Nat → Nat → Nat) (commands : List Command) :
    let s := ((create config exporter context wall draws).run commands).2
    let meters := s.registry.meters
    let base := s.exporter.baseTimeUnit
    ∀ metric ∈ (s.exporter.batch s.registry s.moment).1.metrics,
      let attributes := metric.points.map Point.attributes
      (attributes.Nodup ↔
        (∀ custom ∈ meters, custom.metricKey base .gauge = metric.key →
          ((custom.owedStatistics s.moment).map Statistic.text).Nodup) ∧
        ∀ gauge ∈ meters, ∀ custom ∈ meters,
          gauge.metricKey base .gauge = metric.key →
          custom.metricKey base .gauge = metric.key →
          ¬ gauge.Meets custom s.moment) ∧
      (metric.key.shape ≠ .gauge → attributes.Nodup) := by
  intro s meters base metric hmetric attributes
  have hkeyed : s.registry.Keyed :=
    keyed_run (Registry.keyed_create config) commands
  have hkeys : (meters.map fun meter => meter.id.key).Nodup := by
    rw [hkeyed.map_key_meters]
    exact hkeyed.keys_nodup
  have hattributes : attributes = _ :=
    attributes_of_mem_batch hkeyed.wellFormed s.exporter s.moment hmetric
  have hdistinct := Meter.nodup_flatMap_attributesIn hkeys base s.moment
    metric.key
  rw [← hattributes] at hdistinct
  refine ⟨hdistinct, fun hshape => hdistinct.mpr ⟨?_, ?_⟩⟩
  · intro custom _ hkey
    exact absurd (custom.shape_of_metricKey_eq base hkey).symm hshape
  · intro gauge _ _ _ hkey
    exact absurd (gauge.shape_of_metricKey_eq base hkey).symm hshape

/-- A custom meter that measures a total and a total time has two points of
the same attributes in its metric. -/
theorem exists_repeated_attributes :
    ∃ (commands : List Command) (metric : Metric),
      let s := ((create .standard .standard none 0 fun _ _ => 0).run commands).2
      metric ∈ (s.exporter.batch s.registry s.moment).1.metrics ∧
        ¬ (metric.points.map Point.attributes).Nodup := by
  let measurements : List (Statistic × SourceRequest) :=
    [(.total, .constant 1.0), (.totalTime, .constant 2.0)]
  let commands : List Command := [.registry
    (.add "c" (.named "work" []) (.custom measurements) .empty)]
  let s := ((create .standard .standard none 0 fun _ _ => 0).run commands).2
  let twice : List Attributes :=
    [[("statistic", "total")], [("statistic", "total")]]
  have hmetrics : ((s.exporter.batch s.registry s.moment).1.metrics.map
      fun metric => metric.points.map Point.attributes) = [twice] := by
    decide +kernel
  have htwice : twice ∈ (s.exporter.batch s.registry s.moment).1.metrics.map
      fun metric => metric.points.map Point.attributes := by
    rw [hmetrics]
    exact List.mem_cons_self
  obtain ⟨metric, hmetric, hattributes⟩ := List.mem_map.mp htwice
  refine ⟨commands, metric, hmetric, ?_⟩
  rw [hattributes]
  decide

end Session

end WindowedMetrics
