/-
Attributes within a metric.  Meters of one metric have different tags, so
their points differ, but for two slips: measurements of a custom meter that
share a statistic, and a gauge whose tags are those of a custom meter with a
statistic added.
-/
import WindowedMetrics.Proofs.Export.Delta
import WindowedMetrics.Proofs.Export.Owed
import WindowedMetrics.Proofs.Registry.Catalogue
import Mathlib.Data.List.Nodup
import Mathlib.Data.List.Pairwise

namespace WindowedMetrics

theorem Tags.toPairs_injective : Function.Injective Tags.toPairs := by
  rintro ⟨tags, _⟩ ⟨others, _⟩ hpairs
  have htags : tags = others := by
    refine List.map_injective_iff.mpr ?_ hpairs
    rintro ⟨key, value⟩ ⟨other, text⟩ hpair
    simpa using hpair
  subst htags
  rfl

theorem Published.nodup_shapes (p : Published) : p.shapes.Nodup := by
  obtain ⟨percentiles, buckets⟩ := p
  cases percentiles <;> cases buckets <;> decide

namespace Meter

/-- The attributes of the points that a meter owes in a metric. -/
def attributesIn (meter : Meter) (base : TimeUnit) (m : Moment)
    (key : MetricKey) : List Attributes :=
  ((meter.owed base m meter.instrument.published).filter fun e =>
    decide (e.1 = key)).map Prod.snd

/-- A gauge that is read has the attributes of a number that a custom meter
measures. -/
def Meets (gauge custom : Meter) (m : Moment) : Prop :=
  Shape.gauge ∈ gauge.owedShapes m gauge.instrument.published ∧
    ∃ statistic ∈ custom.owedStatistics m,
      gauge.id.tags.toPairs =
        custom.id.tags.toPairs ++ [("statistic", statistic.text)]

section Attributes

variable (meter : Meter) (base : TimeUnit) (m : Moment)

theorem nodup_owedShapes (published : Published) :
    (meter.owedShapes m published).Nodup := by
  obtain ⟨id, created, instrument⟩ := meter
  cases instrument <;> simp only [owedShapes]
  case timer | summary | longTaskTimer => exact published.nodup_shapes
  case gauge | functionCounter | functionTimer => split <;> decide
  case counter | custom => decide

theorem shape_of_metricKey_eq {shape : Shape} {key : MetricKey}
    (hkey : meter.metricKey base shape = key) : shape = key.shape := by
  rw [← hkey]
  rfl

/-- The points under the tags alone, and those of the statistics. -/
theorem attributesIn_eq (key : MetricKey) :
    meter.attributesIn base m key =
      ((meter.owedShapes m meter.instrument.published).filter fun shape =>
        decide (meter.metricKey base shape = key)).map
          (fun _ => meter.id.tags.toPairs) ++
      if meter.metricKey base .gauge = key then
        ((meter.owedStatistics m).map Statistic.text).map fun text =>
          meter.id.tags.toPairs ++ [("statistic", text)]
      else [] := by
  unfold attributesIn owed
  rw [List.filter_append, List.map_append, List.filter_map, List.filter_map,
    List.map_map, List.map_map, List.map_map]
  congr 1
  by_cases hkey : meter.metricKey base .gauge = key
  · simp [hkey, Function.comp_def]
  · simp [hkey, Function.comp_def]

theorem mem_attributesIn {key : MetricKey} {attributes : Attributes}
    (hmem : attributes ∈ meter.attributesIn base m key) :
    meter.metricKey base key.shape = key ∧
      (attributes = meter.id.tags.toPairs ∧
          key.shape ∈ meter.owedShapes m meter.instrument.published ∨
        key.shape = .gauge ∧ ∃ statistic ∈ meter.owedStatistics m,
          attributes = meter.id.tags.toPairs ++
            [("statistic", statistic.text)]) := by
  rw [attributesIn_eq, List.mem_append] at hmem
  rcases hmem with hshape | hstatistic
  · obtain ⟨shape, hfilter, rfl⟩ := List.mem_map.mp hshape
    obtain ⟨howed, hkey⟩ := List.mem_filter.mp hfilter
    have hkey := of_decide_eq_true hkey
    obtain rfl := meter.shape_of_metricKey_eq base hkey
    exact ⟨hkey, .inl ⟨rfl, howed⟩⟩
  · split at hstatistic
    · rename_i hkey
      have hgauge := meter.shape_of_metricKey_eq base hkey
      rw [List.map_map] at hstatistic
      obtain ⟨statistic, howed, rfl⟩ := List.mem_map.mp hstatistic
      exact ⟨hgauge ▸ hkey, .inr ⟨hgauge.symm, statistic, howed, rfl⟩⟩
    · cases hstatistic

/-- Points of one meter in a metric differ unless two numbers of a custom
meter share a statistic. -/
theorem nodup_attributesIn {key : MetricKey} :
    (meter.attributesIn base m key).Nodup ↔
      (meter.metricKey base .gauge = key →
        ((meter.owedStatistics m).map Statistic.text).Nodup) := by
  have hinjective : Function.Injective fun text : String =>
      meter.id.tags.toPairs ++ [("statistic", text)] := by
    intro text other hsame
    simpa using hsame
  have hshapes : (((meter.owedShapes m meter.instrument.published).filter
      fun shape => decide (meter.metricKey base shape = key)).map
        fun _ => meter.id.tags.toPairs).Nodup := by
    apply List.Nodup.map_on _ ((meter.nodup_owedShapes m _).filter _)
    intro shape hshape other hother _
    have hkey := of_decide_eq_true (List.mem_filter.mp hshape).2
    have hsame := of_decide_eq_true (List.mem_filter.mp hother).2
    rw [meter.shape_of_metricKey_eq base hkey,
      meter.shape_of_metricKey_eq base hsame]
  rw [attributesIn_eq, List.nodup_append']
  split
  · rename_i hkey
    rw [List.nodup_map_iff hinjective]
    refine ⟨fun h _ => h.2.1, fun h => ⟨hshapes, h hkey, ?_⟩⟩
    -- A statistic makes the attributes longer.
    rw [List.disjoint_left]
    intro attributes hshape hstatistic
    obtain ⟨_, _, rfl⟩ := List.mem_map.mp hshape
    obtain ⟨_, _, hlonger⟩ := List.mem_map.mp hstatistic
    simp at hlonger
  · rename_i hother
    exact ⟨fun _ hkey => absurd hkey hother,
      fun _ => ⟨hshapes, List.nodup_nil, List.disjoint_nil_right _⟩⟩

end Attributes

/-- What a gauge that meets a custom meter owes in its metric. -/
theorem Meets.mem_attributesIn {gauge custom : Meter} {base : TimeUnit}
    {m : Moment} {key : MetricKey} (h : gauge.Meets custom m)
    (hgauge : gauge.metricKey base .gauge = key)
    (hcustom : custom.metricKey base .gauge = key) :
    gauge.id.tags.toPairs ∈ gauge.attributesIn base m key ∧
      gauge.id.tags.toPairs ∈ custom.attributesIn base m key := by
  obtain ⟨howed, statistic, hstatistic, hsame⟩ := h
  rw [attributesIn_eq, attributesIn_eq, if_pos hcustom]
  constructor
  · exact List.mem_append_left _ (List.mem_map.mpr
      ⟨.gauge, List.mem_filter.mpr ⟨howed, by simpa using hgauge⟩, rfl⟩)
  · rw [hsame]
    exact List.mem_append_right _
      (List.mem_map_of_mem (List.mem_map_of_mem hstatistic))

/-- Meters of different keys have points of the same attributes in one metric
only if one of them is a gauge that meets the other. -/
theorem meets_of_mem_attributesIn {meter other : Meter} {base : TimeUnit}
    {m : Moment} {key : MetricKey} {attributes : Attributes}
    (hne : meter.id.key ≠ other.id.key)
    (hmeter : attributes ∈ meter.attributesIn base m key)
    (hother : attributes ∈ other.attributesIn base m key) :
    meter.metricKey base .gauge = key ∧ other.metricKey base .gauge = key ∧
      (meter.Meets other m ∨ other.Meets meter m) := by
  obtain ⟨hkey, hfrom⟩ := mem_attributesIn meter base m hmeter
  obtain ⟨hsame, hto⟩ := mem_attributesIn other base m hother
  have hname : meter.id.name = other.id.name :=
    congrArg MetricKey.name (hkey.trans hsame.symm)
  have htags : meter.id.tags.toPairs ≠ other.id.tags.toPairs := by
    intro htags
    apply hne
    simp only [Id.key, hname, Tags.toPairs_injective htags]
  rcases hfrom with ⟨rfl, howed⟩ | ⟨hgauge, statistic, howed, rfl⟩
  · rcases hto with ⟨hequal, _⟩ | ⟨hgauge, statistic, hstatistic, hequal⟩
    · exact absurd hequal htags
    · rw [hgauge] at hkey hsame howed
      exact ⟨hkey, hsame, .inl ⟨howed, statistic, hstatistic, hequal⟩⟩
  · rw [hgauge] at hkey hsame hto
    rcases hto with ⟨hequal, hshape⟩ | ⟨_, number, _, hequal⟩
    · exact ⟨hkey, hsame, .inr ⟨hshape, statistic, howed, hequal.symm⟩⟩
    · exact absurd (List.append_inj_left' hequal rfl) htags

/-- Points in a metric have different attributes unless two numbers of a
custom meter share a statistic or a gauge meets a custom meter. -/
theorem nodup_flatMap_attributesIn {meters : List Meter}
    (hkeys : (meters.map fun meter => meter.id.key).Nodup) (base : TimeUnit)
    (m : Moment) (key : MetricKey) :
    (meters.flatMap fun meter => meter.attributesIn base m key).Nodup ↔
      (∀ custom ∈ meters, custom.metricKey base .gauge = key →
        ((custom.owedStatistics m).map Statistic.text).Nodup) ∧
      ∀ gauge ∈ meters, ∀ custom ∈ meters,
        gauge.metricKey base .gauge = key →
        custom.metricKey base .gauge = key → ¬ gauge.Meets custom m := by
  rw [List.nodup_flatMap]
  constructor
  · rintro ⟨hown, hdisjoint⟩
    refine ⟨fun custom hcustom =>
      (custom.nodup_attributesIn base m).mp (hown custom hcustom), ?_⟩
    intro gauge hgauge custom hcustom hkey hsame hmeets
    obtain ⟨hleft, hright⟩ := hmeets.mem_attributesIn hkey hsame
    have hne : gauge ≠ custom := by
      rintro rfl
      obtain ⟨_, statistic, _, hlonger⟩ := hmeets
      simp at hlonger
    have : Std.Symm (Function.onFun List.Disjoint
        fun meter : Meter => meter.attributesIn base m key) :=
      ⟨fun _ _ hpair => List.disjoint_symm hpair⟩
    exact List.disjoint_left.mp (hdisjoint.forall hgauge hcustom hne) hleft
      hright
  · rintro ⟨hown, hmeets⟩
    refine ⟨fun meter hmeter =>
      (meter.nodup_attributesIn base m).mpr (hown meter hmeter), ?_⟩
    refine (List.pairwise_map.mp hkeys).imp_of_mem ?_
    intro meter other hmeter hother hne
    refine List.disjoint_left.mpr ?_
    intro attributes hleft hright
    obtain ⟨hkey, hsame, hmeet | hmeet⟩ :=
      meets_of_mem_attributesIn hne hleft hright
    · exact hmeets meter hmeter other hother hkey hsame hmeet
    · exact hmeets other hother meter hmeter hsame hkey hmeet

end Meter

/-! ### Batches -/

/-- Registered meters that are converted have exactly the points that each of
them owes. -/
theorem map_place_references {r : Registry} (hr : r.WellFormed)
    (c : Conversion) (m : Moment) :
    (convertHandles c r m (r.references.map MeterHandle.made)).1.map
      NamedPoint.place = r.meters.flatMap fun meter =>
        meter.owed c.baseTimeUnit m meter.instrument.published := by
  rw [convertHandles_made c r m r.references hr.references_nodup,
    Registry.meters, List.map_flatMap]
  induction r.references with
  | nil => rfl
  | cons reference rest ih =>
      rw [List.flatMap_cons, ih, Registry.pointsOf, List.filterMap_cons]
      cases r.made[reference]? with
      | none => rfl
      | some meter =>
          rw [List.flatMap_cons, ← c.map_place_points meter m]
          rfl

theorem attributes_of_mem_groupPoints {points : List NamedPoint} {g : Metric}
    (hg : g ∈ groupPoints points) :
    g.points.map Point.attributes = ((points.map NamedPoint.place).filter
      fun e => decide (e.1 = g.key)).map Prod.snd := by
  rw [points_of_mem_groupPoints points hg, List.filter_map, List.map_map,
    List.map_map]
  rfl

/-- The attributes in a metric of a batch, meter by meter. -/
theorem attributes_of_mem_batch {r : Registry} (hr : r.WellFormed)
    (exporter : ExportSettings) (m : Moment) {g : Metric}
    (hg : g ∈ (exporter.batch r m).1.metrics) :
    g.points.map Point.attributes = r.meters.flatMap fun meter =>
      meter.attributesIn exporter.baseTimeUnit m g.key := by
  have hattributes := attributes_of_mem_groupPoints hg
  rw [map_place_references hr, List.filter_flatMap, List.map_flatMap]
    at hattributes
  exact hattributes

end WindowedMetrics
