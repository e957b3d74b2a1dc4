/-
What a histogram publishes besides count, sum and maximum.  The configuration
decides once and for all: whatever is recorded and read, snapshots have
percentiles exactly if percentiles are configured, and buckets exactly if
buckets are.
-/
import WindowedMetrics.Proofs.Meter.Pace
import WindowedMetrics.Proofs.Meter.Uses
import Mathlib.Data.List.Basic

namespace WindowedMetrics

/-- Whether there are percentiles, and whether there are buckets. -/
@[ext] structure Published where
  percentiles : Bool
  buckets : Bool
deriving DecidableEq

namespace Published

/-- Neither percentiles nor buckets. -/
def nothing : Published := ⟨false, false⟩

end Published

/-- What a configuration asks for. -/
def DistributionSettings.published (c : DistributionSettings) : Published :=
  ⟨c.publishesPercentiles, c.publishesBuckets⟩

/-- What a snapshot has. -/
def Snapshot.published (s : Snapshot) : Published :=
  ⟨s.hasPercentiles, s.hasBuckets⟩

/-- There are bounds exactly if buckets are published. -/
theorem DistributionSettings.isEmpty_upperBounds (c : DistributionSettings) :
    c.upperBounds.isEmpty = !c.publishesBuckets := by
  unfold upperBounds
  cases c.publishesBuckets <;> simp

/-! ### Slots -/

namespace SlotPlan

/-- What the slots of a layout publish. -/
def published (l : SlotPlan) : Published :=
  ⟨l.logLinear.isSome && !l.percentiles.isEmpty, !l.bounds.isEmpty⟩

theorem size_mergedBuckets (l : SlotPlan) (slots : List Slot) :
    (l.mergedBuckets slots).size = l.bounds.size := by
  refine List.foldlRecOn slots _
    (motive := fun totals : Array UInt64 => totals.size = l.bounds.size)
    (by simp) ?_
  intro totals hsize slot _
  cases slot.buckets with
  | none => exact hsize
  | some buckets => simpa [BucketCounts.addTo] using hsize

theorem published_snapshot (l : SlotPlan) (slots : List Slot)
    (count : UInt64) (total max : Float) :
    (l.snapshot slots count total max).published = l.published := by
  have hbuckets : (List.zipWith Bucket.mk l.bounds.toList
      (l.mergedBuckets slots).toList).isEmpty = l.bounds.isEmpty := by
    rw [Bool.eq_iff_iff, List.isEmpty_iff_length_eq_zero,
      List.length_zipWith, Array.length_toList, Array.length_toList,
      size_mergedBuckets, Nat.min_self]
    simp
  simp only [Snapshot.published, Snapshot.hasPercentiles,
    Snapshot.hasBuckets, snapshot, published, hbuckets]
  cases l.logLinear with
  | none => rfl
  | some grid => simp

/-- The layout of a configuration publishes what is configured. -/
theorem published_of_ofConfig? {c : DistributionSettings} :
    ((ofConfig? c).map published).getD .nothing = c.published := by
  unfold ofConfig?
  simp only [c.isEmpty_upperBounds]
  cases hpercentiles : c.publishesPercentiles <;>
    cases hbuckets : c.publishesBuckets <;>
    simp_all [published, Published.nothing, DistributionSettings.published,
      DistributionSettings.publishesPercentiles, c.isEmpty_upperBounds]

end SlotPlan

/-! ### Histograms -/

namespace RingHistogram

theorem plan_rotate (r : RingHistogram) (now : Int) :
    (r.rotate now).plan = r.plan := by
  unfold rotate
  split <;> rfl

theorem plan_record (r : RingHistogram) (now : Int) (value : Float) :
    (r.record now value).plan = r.plan :=
  plan_rotate r now

theorem published_snapshot (r : RingHistogram) (now : Int) (count : UInt64)
    (total max : Float) :
    (r.snapshot now count total max).1.published = r.plan.published := by
  rw [snapshot, SlotPlan.published_snapshot, plan_rotate]

theorem plan_create {plan : SlotPlan} {expiry : Duration} {length : Nat}
    {now : Int} {r : RingHistogram}
    (h : create plan expiry length now = .ok r) : r.plan = plan := by
  unfold create at h
  simp only at h
  split at h
  · cases h
  · split at h <;> cases h
    rfl

end RingHistogram

namespace CumulativeHistogram

/-- Percentiles come from the ring, buckets from the counts of all time. -/
def published (h : CumulativeHistogram) : Published where
  percentiles :=
    (h.percentiles.map (·.plan.published.percentiles)).getD false
  buckets := (h.buckets.map (·.1.published.buckets)).getD false

theorem published_record (h : CumulativeHistogram) (now : Int)
    (value : Float) : (h.record now value).published = h.published := by
  obtain ⟨buckets, ring⟩ := h
  cases buckets <;> cases ring <;>
    simp [record, published, RingHistogram.plan_record]

theorem hasPercentiles_snapshot (h : CumulativeHistogram) (now : Int)
    (count : UInt64) (total max : Float) :
    (h.snapshot now count total max).1.hasPercentiles =
      h.published.percentiles := by
  unfold snapshot
  cases hring : h.percentiles with
  | none => simp [published, hring, Snapshot.hasPercentiles, Snapshot.scalar]
  | some ring =>
      have hhas := congrArg Published.percentiles
        (ring.published_snapshot now count total max)
      simp only [Snapshot.published, Snapshot.hasPercentiles] at hhas
      simp only [Snapshot.hasPercentiles, published, hring, Option.map_some,
        Option.getD_some, hhas]

theorem hasBuckets_snapshot (h : CumulativeHistogram) (now : Int)
    (count : UInt64) (total max : Float) :
    (h.snapshot now count total max).1.hasBuckets = h.published.buckets := by
  rcases hcounts : h.buckets with _ | ⟨plan, slot⟩
  · unfold snapshot
    cases h.percentiles <;> simp [published, hcounts, Snapshot.hasBuckets]
  · have hhas := congrArg Published.buckets
      (plan.published_snapshot [slot] count total max)
    simp only [Snapshot.published, Snapshot.hasBuckets] at hhas
    unfold snapshot
    cases h.percentiles <;>
      simp only [Snapshot.hasBuckets, published, hcounts, Option.map_some,
        Option.getD_some, hhas]

theorem published_snapshot (h : CumulativeHistogram) (now : Int)
    (count : UInt64) (total max : Float) :
    (h.snapshot now count total max).1.published = h.published ∧
      (h.snapshot now count total max).2.published = h.published := by
  refine ⟨Published.ext (h.hasPercentiles_snapshot now count total max)
    (h.hasBuckets_snapshot now count total max), ?_⟩
  unfold snapshot
  cases hring : h.percentiles with
  | none => rfl
  | some ring =>
      have hplan : (ring.snapshot now count total max).2.plan = ring.plan :=
        ring.plan_rotate now
      simp only [published, hring, Option.map_some, hplan]

theorem published_create {plan : SlotPlan} {expiry : Duration}
    {length : Nat} {now : Int} {h : CumulativeHistogram}
    (hcreate : create plan expiry length now = .ok h) :
    h.published = plan.published := by
  unfold create SlotPlan.withoutBuckets? SlotPlan.withoutPercentiles?
    at hcreate
  cases hgrid : plan.logLinear with
  | none =>
      simp only [hgrid, Option.isNone_none, ↓reduceIte] at hcreate
      cases hcreate
      cases hbounds : plan.bounds.isEmpty <;>
        simp [published, SlotPlan.published, hgrid, hbounds]
  | some grid =>
      simp only [hgrid, Option.isNone_some, Bool.false_eq_true,
        ↓reduceIte] at hcreate
      obtain ⟨ring, hring, rfl⟩ := exists_of_map_eq_ok hcreate
      have hplan := RingHistogram.plan_create hring
      cases hbounds : plan.bounds.isEmpty <;>
        simp [published, SlotPlan.published, hplan, hgrid, hbounds]

end CumulativeHistogram

namespace SteppedHistogram

theorem plan_record (h : SteppedHistogram) (now : Int) (value : Float) :
    (h.record now value).plan = h.plan :=
  h.plan_rollover now

theorem plan_close (h : SteppedHistogram) : h.close.plan = h.plan := by
  unfold close
  split <;> rfl

theorem published_snapshot (h : SteppedHistogram) (now : Int)
    (count : UInt64) (total max : Float) :
    (h.snapshot now count total max).1.published = h.plan.published := by
  rw [snapshot, SlotPlan.published_snapshot, plan_rollover]

end SteppedHistogram

namespace Histogram

/-- What a histogram publishes. -/
def published : Histogram → Published
  | decaying ring => ring.plan.published
  | cumulative h => h.published
  | stepped h => h.plan.published

@[simp] theorem published_record (h : Histogram) (now : Int)
    (value : Float) : (h.record now value).published = h.published := by
  cases h with
  | decaying ring =>
      exact congrArg SlotPlan.published (ring.plan_record now value)
  | cumulative h => exact h.published_record now value
  | stepped h => exact congrArg SlotPlan.published (h.plan_record now value)

@[simp] theorem published_close (h : Histogram) :
    h.close.published = h.published := by
  cases h with
  | stepped h => exact congrArg SlotPlan.published h.plan_close
  | _ => rfl

/-- Snapshots have what the histogram publishes, and do not change it. -/
theorem published_snapshot (h : Histogram) (now : Int) (count : UInt64)
    (total max : Float) :
    (h.snapshot now count total max).1.published = h.published ∧
      (h.snapshot now count total max).2.published = h.published := by
  cases h with
  | decaying ring =>
      exact ⟨ring.published_snapshot now count total max,
        congrArg SlotPlan.published (ring.plan_rotate now)⟩
  | cumulative h => exact h.published_snapshot now count total max
  | stepped h =>
      exact ⟨h.published_snapshot now count total max,
        congrArg SlotPlan.published (h.plan_rollover now)⟩

/-- What no use of a histogram changes. -/
structure Kept {B : Type} (f : Histogram → B) : Prop where
  record : ∀ (h : Histogram) now value, f (h.record now value) = f h
  snapshot : ∀ (h : Histogram) now count total max,
    f (h.snapshot now count total max).2 = f h
  close : ∀ h : Histogram, f h.close = f h

theorem kept_published : Kept published where
  record := published_record
  snapshot := fun h now count total max =>
    (h.published_snapshot now count total max).2
  close := published_close

theorem published_ofPlan {plan : SlotPlan} {c : DistributionSettings}
    {mode : Retention} {now : Int} {h : Histogram}
    (hplan : ofPlan plan c mode now = .ok h) :
    h.published = plan.published := by
  cases mode with
  | decaying =>
      obtain ⟨ring, hring, rfl⟩ := exists_of_map_eq_ok hplan
      exact congrArg SlotPlan.published (RingHistogram.plan_create hring)
  | cumulative =>
      obtain ⟨histogram, hcreate, rfl⟩ := exists_of_map_eq_ok hplan
      exact CumulativeHistogram.published_create hcreate
  | step length =>
      cases hplan
      rfl

/-- A configuration gets a histogram that publishes what it asks for. -/
theorem published_create {c : DistributionSettings} {mode : Retention}
    {now : Int} {histogram : Option Histogram}
    (hcreate : create c mode now = .ok histogram) :
    (histogram.map published).getD .nothing = c.published := by
  rw [← SlotPlan.published_of_ofConfig?]
  unfold create at hcreate
  split at hcreate
  · cases hcreate
  · unfold createUnchecked at hcreate
    split at hcreate
    · rename_i hnone
      cases hcreate
      rw [hnone]
      rfl
    · rename_i plan hsome
      obtain ⟨h, hplan, rfl⟩ := exists_of_map_eq_ok hcreate
      rw [hsome]
      exact published_ofPlan hplan

end Histogram

/-! ### Running tasks -/

namespace LongTasks

/-- What a timer of running tasks publishes. -/
def published (l : LongTasks) : Published :=
  ⟨!l.percentiles.isEmpty, !l.bounds.isEmpty⟩

theorem published_create (c : DistributionSettings) :
    (create c).published = c.published := by
  simp [create, published, DistributionSettings.published,
    DistributionSettings.publishesPercentiles, c.isEmpty_upperBounds]

theorem published_stop (l : LongTasks) (clock : Clock)
    (sample : TaskSample) :
    (l.stop clock sample).2.published = l.published := by
  unfold stop
  split <;> rfl

theorem published_snapshot (l : LongTasks) (clock : Clock) :
    (l.snapshot clock).published = l.published := by
  have hbuckets : ∀ (sorted : Array Float) (lower : Nat)
      (bounds : List Float),
      (countsBetween sorted lower bounds).isEmpty = bounds.isEmpty := by
    intro sorted lower bounds
    cases bounds <;> rfl
  simp [snapshot, published, Snapshot.published, Snapshot.hasPercentiles,
    Snapshot.hasBuckets, hbuckets]

end LongTasks

/-! ### Distributions -/

namespace Distribution

/-- What a distribution publishes. -/
def published (d : Distribution) : Published :=
  (d.histogram.map Histogram.published).getD .nothing

theorem published_statistics (d : Distribution) (temporality : Temporality)
    (now : Int) :
    (d.statistics temporality now).2.published = d.published := by
  cases temporality <;> rfl

/-- Snapshots have what the distribution publishes, and do not change it. -/
theorem published_snapshot (d : Distribution) (temporality : Temporality)
    (now : Int) :
    (d.snapshot temporality now).1.published = d.published ∧
      (d.snapshot temporality now).2.published = d.published := by
  have hstatistics := published_statistics d temporality now
  unfold snapshot
  simp only
  generalize d.statistics temporality now = s at hstatistics ⊢
  rw [← hstatistics]
  cases hhistogram : s.2.histogram with
  | none => simp [published, hhistogram, Snapshot.published,
      Snapshot.scalar, Snapshot.hasPercentiles, Snapshot.hasBuckets,
      Published.nothing]
  | some h =>
      obtain ⟨hsnapshot, hafter⟩ :=
        h.published_snapshot now s.1.1 s.1.2.1 s.1.2.2
      simp only [published, hhistogram, Option.map_some, Option.getD_some]
      exact ⟨hsnapshot, hafter⟩

section Kept

variable {B : Type} {f : Histogram → B} (hf : Histogram.Kept f)

include hf

theorem map_histogram_snapshot (d : Distribution) (temporality : Temporality)
    (now : Int) :
    (d.snapshot temporality now).2.histogram.map f =
      d.histogram.map f := by
  have hstatistics : (d.statistics temporality now).2.histogram =
      d.histogram := by
    cases temporality <;> rfl
  unfold snapshot
  simp only
  generalize d.statistics temporality now = s at hstatistics ⊢
  rw [← hstatistics]
  cases hhistogram : s.2.histogram with
  | none => simp [hhistogram]
  | some h => simp [hf.snapshot]

theorem map_histogram_use (d : Distribution) (u : TimedUse) :
    (d.use u).histogram.map f = d.histogram.map f := by
  unfold use
  cases u.use with
  | record amount =>
      simp only [record]
      split
      · cases d.histogram <;> simp [hf.record]
      · rfl
  | maximum => rfl
  | read temporality => exact map_histogram_snapshot hf d temporality _
  | takeExemplars =>
      simp only [takeExemplars]
      split <;> rfl
  | rollover => rfl
  | close =>
      simp only [close]
      cases d.histogram <;> simp [hf.close]

/-- Nor do the uses of a distribution change it. -/
theorem map_histogram_useAll (d : Distribution) (uses : List TimedUse) :
    (d.useAll uses).histogram.map f = d.histogram.map f := by
  induction uses generalizing d with
  | nil => rfl
  | cons u rest ih => exact (ih (d.use u)).trans (map_histogram_use hf d u)

end Kept

theorem published_useAll (d : Distribution) (uses : List TimedUse) :
    (d.useAll uses).published = d.published := by
  rw [published, map_histogram_useAll Histogram.kept_published]
  rfl

theorem published_create {c : RegistrySettings}
    {config : DistributionSettings} {now : Int} {d : Distribution}
    (hcreate : create c config now = .ok d) :
    d.published = config.published := by
  obtain ⟨histogram, hhistogram, rfl⟩ := exists_of_map_eq_ok hcreate
  exact Histogram.published_create hhistogram

end Distribution

/-! ### Instruments -/

namespace Instrument

/-- What an instrument publishes. -/
def published : Instrument → Published
  | timer state => (state.map Distribution.published).getD .nothing
  | summary _ state => (state.map Distribution.published).getD .nothing
  | longTaskTimer state => (state.map LongTasks.published).getD .nothing
  | _ => .nothing

theorem published_of_not_hasDistribution {i : Instrument}
    (hkind : i.kind.hasDistribution = false) : i.published = .nothing := by
  cases i <;> first | rfl | cases hkind

/-- Uses of timers and summaries do not change what they publish; what is
done with a timer of running tasks is not told by its uses. -/
theorem Undergoes.published_eq {i next : Instrument} {uses : List TimedUse}
    (h : i.Undergoes uses next) (hkind : i.kind ≠ .longTaskTimer) :
    next.published = i.published := by
  have hother : i.kind.hasDistribution = false →
      next.published = i.published := by
    intro hnone
    rw [published_of_not_hasDistribution hnone,
      published_of_not_hasDistribution (by rw [h.kind_eq, hnone])]
  cases i with
  | timer state =>
      cases h
      cases state <;> simp [published, Distribution.published_useAll]
  | summary scale state =>
      cases h
      cases state <;> simp [published, Distribution.published_useAll]
  | longTaskTimer state => exact absurd rfl hkind
  | _ => exact hother rfl

end Instrument

/-- An instrument publishes what it is configured to, if it is of a kind that
can be configured. -/
theorem Blueprint.published_instrument {b : Blueprint Source}
    {config : DistributionSettings} {c : RegistrySettings} {now : Int}
    {i : Instrument} (hinstrument : b.instrument config c now = .ok i)
    (hkind : i.kind.hasDistribution = true) :
    i.published = config.published := by
  cases b with
  | timer =>
      obtain ⟨d, hd, rfl⟩ := exists_of_map_eq_ok hinstrument
      exact Distribution.published_create hd
  | summary scale =>
      obtain ⟨d, hd, rfl⟩ := exists_of_map_eq_ok hinstrument
      exact Distribution.published_create hd
  | longTaskTimer =>
      cases hinstrument
      exact LongTasks.published_create config
  | _ =>
      cases hinstrument
      cases hkind

/-! ### Meters -/

namespace Meter

/-- The meters that come from the distribution settings `own`: those built
from them, whatever was done with them since, and the meters that measure
nothing, which have no settings. -/
inductive BuiltFrom (own : DistributionSettings) : Meter → Prop
  | built {b : Blueprint Source} {id : Id} {c : RegistrySettings} {now : Int}
      {meter : Meter} (hbuilt : b.build id own c now = .ok meter) :
      BuiltFrom own meter
  | idle {id : Id} (hown : own = .empty) : BuiltFrom own (Meter.idle id)
  | commanded {meter next : Meter} {m : Moment} {c : MeterCommand}
      {answer : Answer} (hbefore : BuiltFrom own meter)
      (hperform : Session.performOn m meter c = some (answer, next)) :
      BuiltFrom own next
  | started {meter next : Meter} {clock : Clock}
      {sample : Option TaskSample} (hbefore : BuiltFrom own meter)
      (hstart : meter.startTask? clock = some (sample, next)) :
      BuiltFrom own next
  | stopped {meter : Meter} {clock : Clock} {sample : TaskSample}
      (hbefore : BuiltFrom own meter) :
      BuiltFrom own (meter.stopTask clock sample).2
  | converted {meter : Meter} {c : Conversion} {m : Moment}
      (hbefore : BuiltFrom own meter) : BuiltFrom own (c.points meter m).2

end Meter

/-- What new instruments have and nothing changes that is done with a meter.
What is done with a timer of running tasks is not told by its uses. -/
structure Instrument.Lasting (P : Instrument → Prop) : Prop where
  undergoes : ∀ {i next : Instrument} {uses : List TimedUse},
    i.Undergoes uses next → i.kind ≠ .longTaskTimer → P i → P next
  start : ∀ (tasks : LongTasks) (clock : Clock),
    P (.longTaskTimer (some tasks)) →
      P (.longTaskTimer (some (tasks.start clock).2))
  stop : ∀ (tasks : LongTasks) (clock : Clock) (sample : TaskSample),
    P (.longTaskTimer (some tasks)) →
      P (.longTaskTimer (some (tasks.stop clock sample).2))

namespace Instrument.Lasting

variable {P : Instrument → Prop} (hP : Lasting P) {meter next : Meter}
  (hmeter : P meter.instrument)

include hP hmeter

theorem of_used {now : Int} {amounts : List Float} {closing : Prop}
    (hused : meter.Used now amounts closing next)
    (htasks : ∀ state, meter.instrument = .longTaskTimer state →
      next = meter) : P next.instrument := by
  by_cases hkind : meter.instrument.kind = .longTaskTimer
  · cases hinstrument : meter.instrument with
    | longTaskTimer state =>
        rw [htasks state hinstrument]
        exact hmeter
    | _ =>
        rw [hinstrument] at hkind
        cases hkind
  · obtain ⟨uses, _, _, hundergoes⟩ := hused.exists_uses
    exact hP.undergoes hundergoes hkind hmeter

theorem performOn {m : Moment} {c : MeterCommand} {answer : Answer}
    (hperform : Session.performOn m meter c = some (answer, next)) :
    P next.instrument := by
  have hused : meter.Used m.now _ True next :=
    Meter.Used.performOn (fun _ => trivial) hperform
  refine hP.of_used hmeter hused ?_
  obtain ⟨id, created, instrument⟩ := meter
  rintro state ⟨⟩
  cases c <;> cases hperform <;> first | rfl | (cases state <;> rfl)

theorem points (c : Conversion) (m : Moment) :
    P (c.points meter m).2.instrument := by
  refine hP.of_used hmeter (Meter.Used.points meter m True c) ?_
  obtain ⟨id, created, instrument⟩ := meter
  rintro state ⟨⟩
  rfl

theorem startTask? {clock : Clock} {sample : Option TaskSample}
    (hstart : meter.startTask? clock = some (sample, next)) :
    P next.instrument := by
  obtain ⟨id, created, instrument⟩ := meter
  cases instrument with
  | longTaskTimer state =>
      cases state with
      | none =>
          cases hstart
          exact hmeter
      | some tasks =>
          cases hstart
          exact hP.start tasks clock hmeter
  | _ => cases hstart

theorem stopTask (clock : Clock) (sample : TaskSample) :
    P (meter.stopTask clock sample).2.instrument := by
  obtain ⟨id, created, instrument⟩ := meter
  cases instrument with
  | longTaskTimer state =>
      cases state with
      | none => exact hmeter
      | some tasks => exact hP.stop tasks clock sample hmeter
  | _ => exact hmeter

omit hmeter in
/-- What lasts holds of every meter that comes from the settings. -/
theorem of_builtFrom {own : DistributionSettings}
    (hnew : ∀ (b : Blueprint Source) (c : RegistrySettings) now i,
      b.instrument own c now = .ok i → P i)
    (hidle : own = .empty → ∀ kind, P (.idle kind))
    (h : meter.BuiltFrom own) : P meter.instrument := by
  induction h with
  | @built b id c now meter hbuilt =>
      unfold Blueprint.build at hbuilt
      cases hinstrument : b.instrument own c now with
      | error cause => simp [hinstrument] at hbuilt
      | ok i =>
          simp only [hinstrument] at hbuilt
          cases hbuilt
          exact hnew b c now i hinstrument
  | @idle id hown => exact hidle hown id.kind
  | commanded _ hperform ih => exact hP.performOn ih hperform
  | started _ hstart ih => exact hP.startTask? ih hstart
  | stopped _ ih => exact hP.stopTask ih _ _
  | converted _ ih => exact hP.points ih _ _

end Instrument.Lasting

namespace Meter

/-- A meter publishes what its settings ask for. -/
theorem BuiltFrom.published_eq {own : DistributionSettings} {meter : Meter}
    (h : meter.BuiltFrom own)
    (hkind : meter.kind.hasDistribution = true) :
    meter.instrument.published = own.published := by
  have hlasting : Instrument.Lasting fun i =>
      i.kind.hasDistribution = true → i.published = own.published := by
    refine ⟨?_, ?_, ?_⟩
    · intro i next uses hundergoes hother hi hnext
      rw [hundergoes.kind_eq] at hnext
      exact (hundergoes.published_eq hother).trans (hi hnext)
    · intro tasks clock htasks _
      exact htasks rfl
    · intro tasks clock sample htasks _
      exact (tasks.published_stop clock sample).trans (htasks rfl)
  refine hlasting.of_builtFrom ?_ ?_ h hkind
  · intro b c now i hinstrument hi
    exact Blueprint.published_instrument hinstrument hi
  · rintro rfl kind _
    cases kind <;> rfl

end Meter

end WindowedMetrics
