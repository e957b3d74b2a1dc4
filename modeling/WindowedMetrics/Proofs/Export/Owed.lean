/-
Which points meters owe.  The kind of a meter, its settings and its sources
decide how many points it has, in which metrics and with which attributes;
a conversion makes exactly these and groups them.
-/
import WindowedMetrics.Proofs.Export.Grouping
import WindowedMetrics.Proofs.Meter.Published

namespace WindowedMetrics

/-- The shapes of the points of a distribution: a summary if there are
percentiles, and a histogram if there are buckets or no percentiles. -/
def Published.shapes (p : Published) : List Shape :=
  (if p.percentiles then [.summary] else []) ++
    if p.buckets || !p.percentiles then [.histogram] else []

/-- Whether meters of a kind measure times. -/
def MeterKind.isTimed : MeterKind → Bool
  | timer | longTaskTimer | functionTimer => true
  | _ => false

namespace Meter

/-- The metric that a meter's points of a shape belong to.  Times are in the
base unit where no unit is given. -/
def metricKey (meter : Meter) (base : TimeUnit) (shape : Shape) : MetricKey :=
  { name := meter.id.name
    unit := meter.id.unit.getD (if meter.kind.isTimed then base.symbol else "")
    description := meter.id.description.getD ""
    shape := shape }

/-- The shapes of the points that a meter owes under its tags alone, if a
distribution has what is `published`.  Custom meters owe none of these. -/
def owedShapes (meter : Meter) (m : Moment) (published : Published) :
    List Shape :=
  match meter.instrument with
  | .counter _ => [.sum]
  | .gauge source =>
      if (gaugeSample source m.readings).isSome then [.gauge] else []
  | .timer _ | .summary _ _ | .longTaskTimer _ => published.shapes
  | .functionCounter state =>
      if (state.map (·.isAlive m)).getD false then [.sum] else []
  | .functionTimer state =>
      if (state.map (·.isAlive m)).getD false then [.histogram] else []
  | .custom _ => []

/-- The statistics of a custom meter that are numbers. -/
def owedStatistics (meter : Meter) (m : Moment) : List Statistic :=
  match meter.instrument with
  | .custom measurements =>
      (measurements.filter fun e => !(e.2.value m.readings).isNaN).map
        Prod.fst
  | _ => []

/-- The points that a meter owes at a moment: the metric of each, and its
attributes. -/
def owed (meter : Meter) (base : TimeUnit) (m : Moment)
    (published : Published) : List (MetricKey × Attributes) :=
  let tags := meter.id.tags.toPairs
  (meter.owedShapes m published).map (fun shape =>
    (meter.metricKey base shape, tags)) ++
  (meter.owedStatistics m).map fun statistic =>
    (meter.metricKey base .gauge, tags ++ [("statistic", statistic.text)])

/-- What a meter publishes matters for distributions alone. -/
theorem owed_published (meter : Meter) (base : TimeUnit) (m : Moment)
    {published : Published} (hpublished : meter.kind.hasDistribution = true →
      meter.instrument.published = published) :
    meter.owed base m meter.instrument.published =
      meter.owed base m published := by
  obtain ⟨id, created, instrument⟩ := meter
  cases instrument <;> first | rfl | rw [hpublished rfl]

end Meter

/-- The metric and the attributes of a point. -/
def NamedPoint.place (p : NamedPoint) : MetricKey × Attributes :=
  (p.key, p.point.attributes)

/-! ### Meters over sources -/

/-- Reading does not change what a counter reads from. -/
theorem map_isAlive_functionValue (state : Option FunctionCounter)
    (temporality : Temporality) (m now : Moment) :
    (functionValue state temporality m).2.map (·.isAlive now) =
      state.map (·.isAlive now) := by
  cases state with
  | none => rfl
  | some f =>
      cases temporality with
      | cumulative => rfl
      | delta =>
          simp only [functionValue, readState, FunctionCounter.value,
            FunctionCounter.pollReading]
          split <;> rfl

/-- Reading does not change what a timer reads from. -/
theorem map_isAlive_functionValues (state : Option FunctionTimer)
    (temporality : Temporality) (m now : Moment) :
    (functionValues state temporality m).2.map (·.isAlive now) =
      state.map (·.isAlive now) := by
  cases state with
  | none => rfl
  | some f =>
      cases temporality with
      | cumulative => rfl
      | delta =>
          simp only [functionValues, readState, FunctionTimer.values,
            FunctionTimer.pollReading]
          split <;> rfl

/-! ### One meter -/

namespace Conversion

/-- A distribution has the points that its snapshot asks for. -/
theorem map_place_distributionPoints (c : Conversion) (meter : Meter)
    (s : Snapshot) (exemplars : List Exemplar) :
    (c.distributionPoints meter meter.kind.isTimed s exemplars).map
      NamedPoint.place = s.published.shapes.map fun shape =>
        (meter.metricKey c.baseTimeUnit shape, meter.id.tags.toPairs) := by
  unfold distributionPoints Snapshot.published
  cases s.hasPercentiles <;> cases s.hasBuckets <;> rfl

/-- A snapshot of a distribution that may be missing has what is published. -/
theorem published_snapshotOf (state : Option Distribution)
    (temporality : Temporality) (now : Int) :
    (snapshotOf state temporality now).1.published =
      (state.map Distribution.published).getD .nothing := by
  cases state with
  | none => rfl
  | some d => exact (d.published_snapshot temporality now).1

/-- So does one of running tasks. -/
theorem published_snapshot_tasks (state : Option LongTasks) (clock : Clock) :
    ((state.map fun tasks => tasks.snapshot clock).getD
      Snapshot.empty).published =
      (state.map LongTasks.published).getD .nothing := by
  cases state with
  | none => rfl
  | some tasks => exact tasks.published_snapshot clock

/-- A meter has exactly the points that it owes for what it publishes. -/
theorem map_place_points (c : Conversion) (meter : Meter) (m : Moment) :
    (c.points meter m).1.map NamedPoint.place =
      meter.owed c.baseTimeUnit m meter.instrument.published := by
  obtain ⟨id, created, instrument⟩ := meter
  cases instrument with
  | counter state => rfl
  | gauge source =>
      simp only [points, Meter.owed, Meter.owedShapes, Meter.owedStatistics]
      cases gaugeSample source m.readings with
      | none => rfl
      | some value =>
          simp [NamedPoint.place, gaugePoint, named, Point.attributes,
            NamedPoint.key, Meter.metricKey, Point.shape, unitOf,
            Meter.kind, Instrument.kind, MeterKind.isTimed]
  | timer state =>
      have hpoints := fun exemplars => c.map_place_distributionPoints
        ⟨id, created, .timer state⟩
        (snapshotOf state c.temporality m.now).1 exemplars
      rw [published_snapshotOf] at hpoints
      exact (hpoints _).trans (List.append_nil _).symm
  | summary scale state =>
      have hpoints := fun exemplars => c.map_place_distributionPoints
        ⟨id, created, .summary scale state⟩
        (snapshotOf state c.temporality m.now).1 exemplars
      rw [published_snapshotOf] at hpoints
      exact (hpoints _).trans (List.append_nil _).symm
  | longTaskTimer state =>
      have hpoints := c.map_place_distributionPoints
        ⟨id, created, .longTaskTimer state⟩
        ((state.map fun tasks => tasks.snapshot m.clock).getD .empty) []
      rw [published_snapshot_tasks] at hpoints
      exact hpoints.trans (List.append_nil _).symm
  | functionCounter state =>
      simp only [points, Meter.owed, Meter.owedShapes, Meter.owedStatistics]
      split <;> rfl
  | functionTimer state =>
      simp only [points, Meter.owed, Meter.owedShapes, Meter.owedStatistics]
      split <;> rfl
  | custom measurements =>
      simp only [points, Meter.owed, Meter.owedShapes, Meter.owedStatistics,
        List.map_nil, List.nil_append, List.map_map, List.filter_map,
        Function.comp_def]
      rfl

/-- A conversion does not change what a meter owes. -/
theorem owed_points (c : Conversion) (meter : Meter) (m : Moment)
    (base : TimeUnit) (published : Published) :
    (c.points meter m).2.owed base m published =
      meter.owed base m published := by
  obtain ⟨id, created, instrument⟩ := meter
  cases instrument with
  | functionCounter state =>
      simp only [points]
      split
      · simp only [Meter.withInstrument, Meter.owed, Meter.owedShapes,
          map_isAlive_functionValue]
        rfl
      · rfl
  | functionTimer state =>
      simp only [points]
      split
      · simp only [Meter.withInstrument, Meter.owed, Meter.owedShapes,
          map_isAlive_functionValues]
        rfl
      · rfl
  | gauge source =>
      simp only [points]
      split <;> rfl
  | _ => rfl

end Conversion

/-! ### Several meters -/

/-- The points that the meters behind handles owe, in the order of the
handles. -/
def Registry.owed (r : Registry) (base : TimeUnit) (m : Moment)
    (settings : MeterHandle → DistributionSettings)
    (handles : List MeterHandle) : List (MetricKey × Attributes) :=
  handles.flatMap fun handle =>
    ((r.meterOf? handle).map fun meter =>
      meter.owed base m (settings handle).published).getD []

theorem Registry.owed_cons (r : Registry) (base : TimeUnit) (m : Moment)
    (settings : MeterHandle → DistributionSettings) (handle : MeterHandle)
    (rest : List MeterHandle) :
    r.owed base m settings (handle :: rest) =
      ((r.meterOf? handle).map fun meter =>
        meter.owed base m (settings handle).published).getD [] ++
      r.owed base m settings rest :=
  rfl

/-- Behind a handle is what it was before, or what was put behind it. -/
theorem Registry.meterOf?_put {r : Registry} {handle : MeterHandle}
    {meter : Meter} (hmeter : r.meterOf? handle = some meter) (next : Meter)
    (other : MeterHandle) :
    (r.put handle next).meterOf? other = r.meterOf? other ∨
      other = handle ∧ (r.put handle next).meterOf? other = some next := by
  cases handle with
  | refused own => exact .inl rfl
  | made reference =>
      cases other with
      | refused own => exact .inl rfl
      | made another =>
          simp only [meterOf?] at hmeter
          obtain ⟨hlt, _⟩ := Array.getElem?_eq_some_iff.mp hmeter
          simp only [put, meterOf?, Array.getElem?_setIfInBounds]
          by_cases heq : reference = another
          · subst heq
            simp [hlt]
          · simp [heq]

/-- Conversion makes exactly the points that the meters owe, in the order of
their handles.  A meter may have several handles in the list, and then owes
its points once for each. -/
theorem map_place_convertHandles (c : Conversion) (m : Moment)
    (settings : MeterHandle → DistributionSettings)
    (handles : List MeterHandle) (r : Registry)
    (hbuilt : ∀ handle ∈ handles, ∀ meter : Meter,
      r.meterOf? handle = some meter → meter.BuiltFrom (settings handle)) :
    (convertHandles c r m handles).1.map NamedPoint.place =
      r.owed c.baseTimeUnit m settings handles := by
  induction handles generalizing r with
  | nil => rfl
  | cons handle rest ih =>
      have hrest := fun other hother =>
        hbuilt other (List.mem_cons_of_mem handle hother)
      unfold convertHandles
      rw [Registry.owed_cons]
      cases hmeter : r.meterOf? handle with
      | none => exact ih r hrest
      | some meter =>
          have hown := hbuilt handle List.mem_cons_self meter hmeter
          -- What is put back is built from the same settings, and owes the
          -- same points should its handle come again.
          have hlater := ih (r.put handle (c.points meter m).2) (by
            intro other hother after hafter
            rcases Registry.meterOf?_put hmeter (c.points meter m).2 other
              with hsame | ⟨rfl, hput⟩
            · exact hrest other hother after (hsame ▸ hafter)
            · cases hput.symm.trans hafter
              exact hown.converted)
          simp only [List.map_append, hlater, Option.map_some,
            Option.getD_some]
          rw [Conversion.map_place_points,
            meter.owed_published c.baseTimeUnit m hown.published_eq]
          congr 1
          apply List.flatMap_congr
          intro other _
          rcases Registry.meterOf?_put hmeter (c.points meter m).2 other
            with hsame | ⟨rfl, hput⟩
          · rw [hsame]
          · rw [hput, hmeter, Option.map_some, Option.map_some,
              Conversion.owed_points]

/-! ### The metrics of a conversion -/

/-- A conversion makes exactly the points that the meters owe and partitions
them: no two metrics have the same key, they come in the order in which their
first points are owed, and each has all points of its key, which are of its
shape, in their order.  Data that is kept by shape takes every point. -/
theorem groupPoints_convertHandles (c : Conversion) (r : Registry)
    (m : Moment) (handles : List MeterHandle)
    (settings : MeterHandle → DistributionSettings)
    (hbuilt : ∀ handle ∈ handles, ∀ meter : Meter,
      r.meterOf? handle = some meter → meter.BuiltFrom (settings handle)) :
    let points := (convertHandles c r m handles).1
    let owed := r.owed c.baseTimeUnit m settings handles
    let metrics := groupPoints points
    points.map NamedPoint.place = owed ∧
    (metrics.map Metric.key).Nodup ∧
    metrics.map Metric.key = (owed.map Prod.fst).eraseDups ∧
    (∀ metric ∈ metrics,
      metric.points = (points.filter fun p =>
        decide (p.key = metric.key)).map NamedPoint.point ∧
      ∀ p ∈ metric.points, p.shape = metric.key.shape) ∧
    (metrics.flatMap fun metric =>
      metric.points.map fun p => (metric.key, p)).Perm
      (points.map fun p => (p.key, p.point)) ∧
    ∃ groups, points.foldlM TypedMetric.insert? [] = some groups ∧
      groups.map TypedMetric.metric = metrics := by
  intro points owed metrics
  have howed : points.map NamedPoint.place = owed :=
    map_place_convertHandles c m settings handles r hbuilt
  have hkeys : points.map NamedPoint.key = owed.map Prod.fst := by
    rw [← howed, List.map_map]
    rfl
  refine ⟨howed, nodup_key_groupPoints points, ?_, ?_,
    groupPoints_perm points, TypedMetric.foldlM_insert? points⟩
  · rw [map_key_groupPoints, hkeys]
  · intro metric hmetric
    exact ⟨points_of_mem_groupPoints points hmetric,
      fun p hp => shape_of_mem_groupPoints points hmetric hp⟩

/-- A timer of running tasks has points of two shapes, two counters of one
name share a metric, a gauge whose source is gone has no point, and of a
custom meter the measurement that is no number is left out. -/
theorem groupPoints_convertHandles_sample :
    let own := { DistributionSettings.empty with
      percentiles := some [0.5], objectives := some [10.0] }
    let first := Meter.mk (.named "calls" [⟨"k", "1"⟩]) 0
      (.counter (some (.create .standard 0)))
    let tasks := Meter.mk (.named "tasks" []) 0
      (.longTaskTimer (some (.create own)))
    let second := Meter.mk (.named "calls" [⟨"k", "2"⟩]) 0
      (.counter (some (.create .standard 0)))
    let level := Meter.mk (.named "level" []) 0
      (.gauge (some (.strong 0)))
    let gone := Meter.mk (.named "gone" []) 0 (.gauge (some (.weak 0)))
    let custom := Meter.mk (.named "load" []) 0
      (.custom [(.value, .constant 1.0), (.max, .constant (0.0 / 0.0))])
    let r := { Registry.create .standard with
      made := #[first, tasks, second, level, gone, custom] }
    let points := (convertHandles
      (.starting 0 (.ofSeconds 60) .cumulative .milliseconds) r
      ⟨.startingAt 0, none, id, ⟨fun _ => 3.0, fun _ => false⟩⟩
      [.made 0, .made 1, .made 2, .made 3, .made 4, .made 5]).1
    points.map NamedPoint.place =
        [(⟨"calls", "", "", .sum⟩, [("k", "1")]),
         (⟨"tasks", "ms", "", .summary⟩, []),
         (⟨"tasks", "ms", "", .histogram⟩, []),
         (⟨"calls", "", "", .sum⟩, [("k", "2")]),
         (⟨"level", "", "", .gauge⟩, []),
         (⟨"load", "", "", .gauge⟩, [("statistic", "value")])] ∧
      (groupPoints points).map Metric.key =
        [⟨"calls", "", "", .sum⟩, ⟨"tasks", "ms", "", .summary⟩,
         ⟨"tasks", "ms", "", .histogram⟩, ⟨"level", "", "", .gauge⟩,
         ⟨"load", "", "", .gauge⟩] := by
  intro own first tasks second level gone custom r points
  have hfirst : Blueprint.counter.build first.id own .standard 0 =
      .ok first := rfl
  have htasks : Blueprint.longTaskTimer.build tasks.id own .standard 0 =
      .ok tasks := rfl
  have hsecond : Blueprint.counter.build second.id own .standard 0 =
      .ok second := rfl
  have hlevel : (Blueprint.gauge (.strong 0)).build level.id own .standard
      0 = .ok level := rfl
  have hgone : (Blueprint.gauge (.weak 0)).build gone.id own .standard 0 =
      .ok gone := rfl
  have hcustom : (Blueprint.custom [(.value, .constant 1.0),
      (.max, .constant (0.0 / 0.0))]).build custom.id own .standard 0 =
        .ok custom := rfl
  have hbuilt : ∀ handle ∈ [MeterHandle.made 0, .made 1, .made 2, .made 3,
      .made 4, .made 5], ∀ meter : Meter, r.meterOf? handle = some meter →
        meter.BuiltFrom own := by
    intro handle hhandle meter hmeter
    simp only [List.mem_cons, List.not_mem_nil, or_false] at hhandle
    rcases hhandle with rfl | rfl | rfl | rfl | rfl | rfl <;> cases hmeter
    · exact .built hfirst
    · exact .built htasks
    · exact .built hsecond
    · exact .built hlevel
    · exact .built hgone
    · exact .built hcustom
  obtain ⟨howed, _, hkeys, _⟩ := groupPoints_convertHandles
    (.starting 0 (.ofSeconds 60) .cumulative .milliseconds) r
    ⟨.startingAt 0, none, id, ⟨fun _ => 3.0, fun _ => false⟩⟩
    [.made 0, .made 1, .made 2, .made 3, .made 4, .made 5] (fun _ => own)
    hbuilt
  exact ⟨howed.trans (by decide +kernel), hkeys.trans (by decide +kernel)⟩

end WindowedMetrics
