/-
The shape of histogram points.  Published bounds end with infinity, which no
point shows, so a point that has buckets has one count more than it shows
bounds; a point without them has neither.
-/
import WindowedMetrics.Proofs.Distribution.Bounds
import WindowedMetrics.Proofs.Export.Owed
import WindowedMetrics.Proofs.Meter.BucketBounds
import WindowedMetrics.Proofs.Session.Provenance

namespace WindowedMetrics

/-- Bounds and counts of a point fit together. -/
def HistogramPoint.Fits (p : HistogramPoint) : Prop :=
  p.bounds = [] ∧ p.buckets = [] ∨ p.buckets.length = p.bounds.length + 1

/-- A point fits if it is no histogram. -/
def Point.Fits : Point → Prop
  | histogram p => p.Fits
  | _ => True

/-- Of published bounds, all but the last are finite. -/
theorem DistributionSettings.length_upperBounds (c : DistributionSettings)
    (hpublishes : c.publishesBuckets = true) :
    c.upperBounds.length =
      (c.upperBounds.filter Float.isFinite).length + 1 := by
  obtain ⟨finite, hbounds, _, hasked, _⟩ := c.upperBounds_eq hpublishes
  have hfinite : finite.filter Float.isFinite = finite :=
    List.filter_eq_self.mpr fun bound hbound =>
      c.isFinite_finiteBounds bound (hasked hbound)
  have hinfinity : [(1.0 / 0.0 : Float)].filter Float.isFinite = [] := by
    decide +kernel
  rw [hbounds, List.filter_append, hfinite, hinfinity, List.append_nil,
    List.length_append, List.length_singleton]

namespace Conversion

/-- The histogram point of a snapshot fits if the snapshot has the bounds of
some settings. -/
theorem fits_histogramPoint (c : Conversion) (meter : Meter)
    (timeBased : Bool) (own : DistributionSettings) {s : Snapshot}
    (hbounds : s.bounds = own.upperBounds) (exemplars : List PointExemplar) :
    (c.histogramPoint meter timeBased s exemplars).point.Fits := by
  have hfinite : (s.buckets.filter fun b => b.bound.isFinite).length =
      (s.bounds.filter Float.isFinite).length := by
    simp only [Snapshot.bounds, List.filter_map, List.length_map]
    rfl
  have hlength : s.buckets.length = s.bounds.length := by
    simp [Snapshot.bounds]
  simp only [histogramPoint, named, Point.Fits, HistogramPoint.Fits]
  cases hpublishes : own.publishesBuckets with
  | true =>
      right
      rw [List.length_map, List.length_map, hfinite, hlength, hbounds]
      exact own.length_upperBounds hpublishes
  | false =>
      left
      have hnone : own.upperBounds = [] := by
        rw [DistributionSettings.upperBounds, hpublishes]
        rfl
      rw [hbounds, hnone] at hlength
      simp [List.eq_nil_of_length_eq_zero hlength]

theorem fits_distributionPoints (c : Conversion) (meter : Meter)
    (timeBased : Bool) (own : DistributionSettings) {s : Snapshot}
    (hbounds : s.bounds = own.upperBounds) (exemplars : List Exemplar) :
    ∀ named ∈ c.distributionPoints meter timeBased s exemplars,
      named.point.Fits := by
  intro named hnamed
  rcases List.mem_append.mp hnamed with hsummary | hhistogram
  · split at hsummary
    · rw [List.mem_singleton.mp hsummary]
      trivial
    · cases hsummary
  · split at hhistogram
    · rw [List.mem_singleton.mp hhistogram]
      exact c.fits_histogramPoint meter timeBased own hbounds _
    · cases hhistogram

end Conversion

/-- A snapshot has the bounds of the distribution, if there is one. -/
theorem bounds_snapshotOf (state : Option Distribution)
    (temporality : Temporality) (now : Int) :
    (snapshotOf state temporality now).1.bounds =
      (Instrument.timer state).bucketBounds.toList := by
  cases state with
  | none => rfl
  | some d => exact d.bounds_snapshot temporality now

/-- All points that a built meter owes fit. -/
theorem Meter.BuiltFrom.fits_points {own : DistributionSettings}
    {meter : Meter} (h : meter.BuiltFrom own) (c : Conversion) (m : Moment) :
    ∀ named ∈ (c.points meter m).1, named.point.Fits := by
  have hbounds := h.bucketBounds_eq
  obtain ⟨id, created, instrument⟩ := meter
  have hsnapshot : ∀ state : Option Distribution,
      (Instrument.timer state).bucketBounds = own.upperBounds.toArray →
      (snapshotOf state c.temporality m.now).1.bounds =
        own.upperBounds := by
    intro state hstate
    rw [bounds_snapshotOf, hstate]
  intro named hnamed
  cases instrument with
  | timer state =>
      exact c.fits_distributionPoints _ true own
        (hsnapshot state (hbounds rfl)) _ named hnamed
  | summary scale state =>
      have hstate : (Instrument.timer state).bucketBounds =
          own.upperBounds.toArray := by
        rw [← hbounds rfl]
        cases state <;> rfl
      exact c.fits_distributionPoints _ false own
        (hsnapshot state hstate) _ named hnamed
  | longTaskTimer state =>
      refine c.fits_distributionPoints _ true own ?_ _ named hnamed
      have hstate : (Instrument.longTaskTimer state).bucketBounds.toList =
          own.upperBounds := congrArg Array.toList (hbounds rfl)
      rw [← hstate]
      cases state with
      | none => rfl
      | some tasks => exact tasks.bounds_snapshot m.clock
  | counter state =>
      rw [List.mem_singleton.mp hnamed]
      trivial
  | gauge source =>
      simp only [Conversion.points] at hnamed
      split at hnamed
      · cases hnamed
      · rw [List.mem_singleton.mp hnamed]
        trivial
  | functionCounter state =>
      simp only [Conversion.points] at hnamed
      split at hnamed
      · rw [List.mem_singleton.mp hnamed]
        trivial
      · cases hnamed
  | functionTimer state =>
      simp only [Conversion.points] at hnamed
      split at hnamed
      · rw [List.mem_singleton.mp hnamed]
        exact .inl ⟨rfl, rfl⟩
      · cases hnamed
  | custom measurements =>
      obtain ⟨e, _, rfl⟩ := List.mem_map.mp hnamed
      trivial

namespace DistributionSettings

/-- There are bounds exactly if the ladder or an objective is configured.
They ascend strictly, infinity comes last and is the only one that is not
finite, and up to the sign of zero the finite ones are the finite objectives
and, with the ladder, its rungs in the expected range.  So in every run, the
histogram points of all meters have neither bounds nor counts, or one count
more than bounds. -/
theorem upperBounds_ascend_and_points_fit (c : DistributionSettings)
    (hmin : c.minimum.isNaN = false) :
    (c.upperBounds = [] ↔ c.usesLadder = false ∧ c.objectiveList = []) ∧
    (c.upperBounds ≠ [] →
      c.upperBounds.Pairwise (· < ·) ∧
      ∃ finite, c.upperBounds = finite ++ [1.0 / 0.0] ∧
        (∀ bound ∈ finite, bound.isFinite = true ∧ c.AsksFor bound) ∧
        ∀ bound, c.AsksFor bound →
          ∃ kept ∈ finite, (kept == bound) = true) ∧
    ∀ (config : RegistrySettings) (exporter : ExportSettings)
      (context : Option TraceContext) (wall : Int)
      (draws : Nat → Nat → Nat) (commands : List Command),
      let start := Session.create config exporter context wall draws
      ∀ logged ∈ (start.run commands).1,
      ∀ metric ∈ logged.value.exported,
      ∀ p : HistogramPoint, .histogram p ∈ metric.points →
        p.bounds = [] ∧ p.buckets = [] ∨
          p.buckets.length = p.bounds.length + 1 := by
  have hempty : c.upperBounds = [] ↔ c.publishesBuckets = false := by
    rw [← List.isEmpty_iff, c.isEmpty_upperBounds, Bool.not_eq_true']
  refine ⟨?_, ?_, ?_⟩
  · rw [hempty, publishesBuckets, Bool.or_eq_false_iff, Bool.not_eq_false',
      List.isEmpty_iff]
  · intro hsome
    have hpublishes : c.publishesBuckets = true := by
      rw [Ne, hempty, Bool.not_eq_false] at hsome
      exact hsome
    obtain ⟨finite, hbounds, -, hasked, hkept⟩ := c.upperBounds_eq hpublishes
    have hfinite : ∀ bound ∈ finite, bound.isFinite = true :=
      fun bound hbound => c.isFinite_finiteBounds bound (hasked hbound)
    refine ⟨c.pairwise_upperBounds, finite, hbounds, ?_, ?_⟩
    · exact fun bound hbound => ⟨hfinite bound hbound,
        (mem_finiteBounds hmin).mp (hasked hbound)⟩
    · exact fun bound hbound => hkept bound ((mem_finiteBounds hmin).mpr hbound)
  · intro config exporter context wall draws commands start logged hlogged
      metric hmetric p hp
    have hstart := Session.traceable_create config exporter context wall draws
    obtain ⟨conversion, meter, m, ⟨own, hown⟩, named, hnamed, heq⟩ :=
      hstart.isReported_run (Registry.wellFormed_create config) commands
        logged hlogged metric hmetric _ hp
    have hfits := hown.fits_points conversion m named hnamed
    rw [heq] at hfits
    exact hfits

/-- Objectives that repeat, are infinite, are no numbers, or differ in the
sign of zero, on a timer that is exported; and the rungs of a range with
objectives at its end and beyond, on a summary. -/
theorem upperBounds_ascend_and_points_fit_mixed :
    let c := { DistributionSettings.empty with
      objectives := some
        [-1.0 / 0.0, -0.0, 0.0, 50.0, 50.0, 1.0 / 0.0, 0.0 / 0.0] }
    let rungs := { DistributionSettings.empty with
      ladder := some true, min := some 15.0, max := some 26.0
      objectives := some [26.0, 30.0] }
    let commands : List Command :=
      [.registry (.add "a" (.named "latency" []) .timer c),
        .registry (.add "b" (.named "size" []) (.summary 1.0) rungs),
        .meter "a" (.recordDurations [] [10]),
        .exporter .batch]
    c.minimum.isNaN = false ∧ c.upperBounds = [-0.0, 50.0, 1.0 / 0.0] ∧
      c.upperBounds.Pairwise (· < ·) ∧
      rungs.minimum.isNaN = false ∧
      rungs.upperBounds = [16.0, 21.0, 26.0, 30.0, 1.0 / 0.0] ∧
      rungs.upperBounds.Pairwise (· < ·) ∧
      ∀ logged ∈ ((Session.create .standard .standard none 0 fun _ _ => 0).run
        commands).1, ∀ metric ∈ logged.value.exported,
        ∀ p : HistogramPoint, .histogram p ∈ metric.points →
          p.bounds = [] ∧ p.buckets = [] ∨
            p.buckets.length = p.bounds.length + 1 := by
  intro c rungs commands
  have hmin : c.minimum.isNaN = false := by decide +kernel
  have hbounds : c.upperBounds = [-0.0, 50.0, 1.0 / 0.0] := by
    have hkept : [-0.0, 0.0, 50.0, 50.0].eraseReps = [-0.0, 50.0] := by
      decide +kernel
    rw [c.upperBounds_of_ordered rfl
      (by decide +kernel : _ = [-0.0, 0.0, 50.0, 50.0]) (by decide +kernel),
      hkept]
    rfl
  have hlow : rungs.minimum.isNaN = false := by decide +kernel
  have hsteps : rungs.upperBounds = [16.0, 21.0, 26.0, 30.0, 1.0 / 0.0] := by
    have hkept : [16.0, 21.0, 26.0, 26.0, 30.0].eraseReps =
        [16.0, 21.0, 26.0, 30.0] := by
      decide +kernel
    rw [rungs.upperBounds_of_ordered rfl
      (by decide +kernel : _ = [16.0, 21.0, 26.0, 26.0, 30.0])
      (by decide +kernel), hkept]
    rfl
  obtain ⟨_, hascend, hpoints⟩ := upperBounds_ascend_and_points_fit c hmin
  obtain ⟨_, hclimb, _⟩ := upperBounds_ascend_and_points_fit rungs hlow
  have hsome : c.upperBounds ≠ [] := by
    rw [hbounds]
    exact List.cons_ne_nil _ _
  have hrungs : rungs.upperBounds ≠ [] := by
    rw [hsteps]
    exact List.cons_ne_nil _ _
  exact ⟨hmin, hbounds, (hascend hsome).1, hlow, hsteps, (hclimb hrungs).1,
    hpoints .standard .standard none 0 (fun _ _ => 0) commands⟩

end DistributionSettings

end WindowedMetrics
