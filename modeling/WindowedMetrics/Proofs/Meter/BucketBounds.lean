/-
The bounds that a meter publishes buckets for.  They are the bounds of its
settings, whatever is recorded and read.
-/
import WindowedMetrics.Proofs.Meter.Lifetime
import WindowedMetrics.Proofs.Meter.Published

namespace WindowedMetrics

/-- The bounds of a snapshot's buckets. -/
def Snapshot.bounds (s : Snapshot) : List Float := s.buckets.map Bucket.bound

/-! ### Histograms -/

theorem SlotPlan.bounds_snapshot (l : SlotPlan) (slots : List Slot)
    (count : UInt64) (total max : Float) :
    (l.snapshot slots count total max).bounds = l.bounds.toList := by
  have hsize := l.size_mergedBuckets slots
  simp only [Snapshot.bounds, snapshot]
  apply List.ext_getElem
  · simp [hsize]
  · intro i _ _
    simp

namespace CumulativeHistogram

theorem bounds_record (h : CumulativeHistogram) (now : Int) (value : Float) :
    (h.record now value).bounds = h.bounds := by
  obtain ⟨buckets, ring⟩ := h
  cases buckets <;> rfl

theorem bounds_snapshot (h : CumulativeHistogram) (now : Int)
    (count : UInt64) (total max : Float) :
    (h.snapshot now count total max).1.bounds = h.bounds.toList ∧
      (h.snapshot now count total max).2.bounds = h.bounds := by
  rcases hcounts : h.buckets with _ | ⟨plan, slot⟩
  · unfold snapshot
    cases h.percentiles <;> simp [bounds, hcounts, Snapshot.bounds]
  · have hcounted := plan.bounds_snapshot [slot] count total max
    simp only [Snapshot.bounds] at hcounted
    unfold snapshot
    cases h.percentiles <;>
      simp only [bounds, hcounts, Snapshot.bounds, hcounted, Option.map_some,
        Option.getD_some, and_self]

theorem bounds_create {plan : SlotPlan} {expiry : Duration} {length : Nat}
    {now : Int} {h : CumulativeHistogram}
    (hcreate : create plan expiry length now = .ok h) :
    h.bounds = plan.bounds := by
  simp only [bounds, buckets_create hcreate, SlotPlan.withoutPercentiles?]
  split
  · rename_i hnone
    simp [Array.isEmpty_iff.mp hnone]
  · rfl

end CumulativeHistogram

namespace Histogram

theorem kept_bounds : Kept bounds where
  record := by
    intro h now value
    cases h with
    | decaying ring =>
        exact congrArg SlotPlan.bounds (ring.plan_record now value)
    | cumulative h => exact h.bounds_record now value
    | stepped h => exact congrArg SlotPlan.bounds (h.plan_record now value)
  snapshot := by
    intro h now count total max
    cases h with
    | decaying ring => exact congrArg SlotPlan.bounds (ring.plan_rotate now)
    | cumulative h => exact (h.bounds_snapshot now count total max).2
    | stepped h => exact congrArg SlotPlan.bounds (h.plan_rollover now)
  close := by
    intro h
    cases h with
    | stepped h => exact congrArg SlotPlan.bounds h.plan_close
    | _ => rfl

theorem bounds_snapshot (h : Histogram) (now : Int) (count : UInt64)
    (total max : Float) :
    (h.snapshot now count total max).1.bounds = h.bounds.toList := by
  cases h with
  | decaying ring =>
      rw [snapshot, RingHistogram.snapshot, bounds,
        SlotPlan.bounds_snapshot, ring.plan_rotate]
  | cumulative h => exact (h.bounds_snapshot now count total max).1
  | stepped h =>
      rw [snapshot, SteppedHistogram.snapshot, bounds,
        SlotPlan.bounds_snapshot, h.plan_rollover]

theorem bounds_ofPlan {plan : SlotPlan} {c : DistributionSettings}
    {mode : Retention} {now : Int} {h : Histogram}
    (hplan : ofPlan plan c mode now = .ok h) : h.bounds = plan.bounds := by
  cases mode with
  | decaying =>
      obtain ⟨ring, hring, rfl⟩ := exists_of_map_eq_ok hplan
      exact congrArg SlotPlan.bounds (RingHistogram.plan_create hring)
  | cumulative =>
      obtain ⟨histogram, hcreate, rfl⟩ := exists_of_map_eq_ok hplan
      exact CumulativeHistogram.bounds_create hcreate
  | step length =>
      cases hplan
      rfl

/-- Without a histogram there are no bounds to publish either. -/
theorem bounds_create {c : DistributionSettings} {mode : Retention}
    {now : Int} {histogram : Option Histogram}
    (hcreate : create c mode now = .ok histogram) :
    Distribution.boundsOf histogram = c.upperBounds.toArray := by
  unfold create at hcreate
  split at hcreate
  · cases hcreate
  · unfold createUnchecked at hcreate
    split at hcreate
    · rename_i hnone
      cases hcreate
      have hempty : c.upperBounds.isEmpty = true := by
        simp only [SlotPlan.ofConfig?] at hnone
        generalize (if c.publishesPercentiles then _ else _) =
          logLinear at hnone
        split at hnone
        · rename_i hboth
          exact (Bool.and_eq_true_iff.mp hboth).1
        · cases hnone
      rw [List.isEmpty_iff.mp hempty]
      rfl
    · rename_i plan hsome
      obtain ⟨h, hplan, rfl⟩ := exists_of_map_eq_ok hcreate
      rw [← SlotPlan.bounds_of_ofConfig? hsome]
      exact bounds_ofPlan hplan

end Histogram

/-! ### Running tasks -/

namespace LongTasks

theorem bounds_stop (l : LongTasks) (clock : Clock) (sample : TaskSample) :
    (l.stop clock sample).2.bounds = l.bounds := by
  unfold stop
  split <;> rfl

theorem map_bound_countsBetween (sorted : Array Float) (lower : Nat)
    (bounds : List Float) :
    (countsBetween sorted lower bounds).map Bucket.bound = bounds := by
  induction bounds generalizing lower with
  | nil => rfl
  | cons bound rest ih => exact congrArg (bound :: ·) (ih _)

theorem bounds_snapshot (l : LongTasks) (clock : Clock) :
    (l.snapshot clock).bounds = l.bounds.toList :=
  map_bound_countsBetween _ 0 _

end LongTasks

/-! ### Distributions -/

namespace Distribution

theorem bounds_useAll (d : Distribution) (uses : List TimedUse) :
    (d.useAll uses).bounds = d.bounds := by
  rw [bounds, boundsOf, map_histogram_useAll Histogram.kept_bounds]
  rfl

theorem bounds_snapshot (d : Distribution) (temporality : Temporality)
    (now : Int) :
    (d.snapshot temporality now).1.bounds = d.bounds.toList := by
  have hstatistics : (d.statistics temporality now).2.histogram =
      d.histogram := by
    cases temporality <;> rfl
  unfold snapshot bounds boundsOf
  simp only
  generalize d.statistics temporality now = s at hstatistics ⊢
  rw [← hstatistics]
  cases hhistogram : s.2.histogram with
  | none => rfl
  | some h => exact h.bounds_snapshot now s.1.1 s.1.2.1 s.1.2.2

theorem bounds_create {c : RegistrySettings} {config : DistributionSettings}
    {now : Int} {d : Distribution} (hcreate : create c config now = .ok d) :
    d.bounds = config.upperBounds.toArray := by
  obtain ⟨histogram, hhistogram, rfl⟩ := exists_of_map_eq_ok hcreate
  exact Histogram.bounds_create hhistogram

end Distribution

/-! ### Meters -/

namespace Instrument

/-- The bounds that an instrument publishes buckets for. -/
def bucketBounds : Instrument → Array Float
  | timer (some d) => d.bounds
  | summary _ (some d) => d.bounds
  | longTaskTimer (some tasks) => tasks.bounds
  | _ => #[]

theorem bucketBounds_of_not_hasDistribution {i : Instrument}
    (hkind : i.kind.hasDistribution = false) : i.bucketBounds = #[] := by
  cases i <;> first | rfl | cases hkind

theorem Undergoes.bucketBounds_eq {i next : Instrument}
    {uses : List TimedUse} (h : i.Undergoes uses next)
    (hkind : i.kind ≠ .longTaskTimer) :
    next.bucketBounds = i.bucketBounds := by
  have hnone : i.kind.hasDistribution = false →
      next.bucketBounds = i.bucketBounds := by
    intro hother
    rw [bucketBounds_of_not_hasDistribution hother,
      bucketBounds_of_not_hasDistribution (by rw [h.kind_eq, hother])]
  cases i with
  | timer state =>
      cases h
      cases state with
      | none => rfl
      | some d => exact d.bounds_useAll uses
  | summary scale state =>
      cases h
      cases state with
      | none => rfl
      | some d => exact d.bounds_useAll uses
  | longTaskTimer state => exact absurd rfl hkind
  | _ => exact hnone rfl

end Instrument

/-- A new instrument publishes buckets for the bounds of its settings, if it
is of a kind that can have them. -/
theorem Blueprint.bucketBounds_instrument {b : Blueprint Source}
    {config : DistributionSettings} {c : RegistrySettings} {now : Int}
    {i : Instrument} (hinstrument : b.instrument config c now = .ok i)
    (hkind : i.kind.hasDistribution = true) :
    i.bucketBounds = config.upperBounds.toArray := by
  cases b with
  | timer =>
      obtain ⟨d, hd, rfl⟩ := exists_of_map_eq_ok hinstrument
      exact Distribution.bounds_create hd
  | summary scale =>
      obtain ⟨d, hd, rfl⟩ := exists_of_map_eq_ok hinstrument
      exact Distribution.bounds_create hd
  | longTaskTimer =>
      cases hinstrument
      rfl
  | _ =>
      cases hinstrument
      cases hkind

/-- Whatever is done with a timer, a summary or a timer of running tasks, it
publishes buckets for the bounds of its settings. -/
theorem Meter.BuiltFrom.bucketBounds_eq {own : DistributionSettings}
    {meter : Meter} (h : meter.BuiltFrom own)
    (hkind : meter.kind.hasDistribution = true) :
    meter.instrument.bucketBounds = own.upperBounds.toArray := by
  have hlasting : Instrument.Lasting fun i =>
      i.kind.hasDistribution = true →
        i.bucketBounds = own.upperBounds.toArray := by
    refine ⟨?_, ?_, ?_⟩
    · intro i next uses hundergoes hother hi hnext
      rw [hundergoes.kind_eq] at hnext
      exact (hundergoes.bucketBounds_eq hother).trans (hi hnext)
    · intro tasks clock htasks _
      exact htasks rfl
    · intro tasks clock sample htasks _
      exact (tasks.bounds_stop clock sample).trans (htasks rfl)
  refine hlasting.of_builtFrom ?_ ?_ h hkind
  · intro b c now i hinstrument hi
    exact Blueprint.bucketBounds_instrument hinstrument hi
  · rintro rfl kind _
    cases kind <;> rfl

end WindowedMetrics
