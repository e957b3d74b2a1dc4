/-
What a meter shows of all time.  Under cumulative temporality count, sum and
bucket counts follow the accepted amounts alone; the clock, rollovers, reads
and closing leave all three where they are.
-/
import WindowedMetrics.Proofs.Export.Delta
import WindowedMetrics.Proofs.Histogram.Totals
import WindowedMetrics.Proofs.Meter.Uses
import WindowedMetrics.Session.Reading

namespace WindowedMetrics

/-- The bucket counts of amounts, with their bounds. -/
def Bucket.listOf (bounds : Array Float) (amounts : List Float) :
    List Bucket :=
  List.zipWith Bucket.mk bounds.toList
    (BucketCounts.tally bounds amounts).toList

/-- The sum of the counts of buckets, modulo `2^64`. -/
def Bucket.sum (buckets : List Bucket) : UInt64 :=
  BucketCounts.sum (buckets.map Bucket.count)

theorem Bucket.sum_listOf {bounds : Array Float}
    (hbounds : bounds.back? = some (1.0 / 0.0)) (amounts : List Float) :
    sum (listOf bounds amounts) = UInt64.ofNat amounts.length := by
  have hcounts : (listOf bounds amounts).map Bucket.count =
      (BucketCounts.tally bounds amounts).toList := by
    apply List.ext_getElem
    · simp [listOf]
    · intro i _ _
      simp [listOf]
  rw [sum, hcounts, BucketCounts.sum_tally hbounds]

namespace TimedUse

theorem amounts_cons (u : TimedUse) (uses : List TimedUse) :
    amounts (u :: uses) = amounts [u] ++ amounts uses :=
  amounts_append [u] uses

theorem amounts_record_of_accepted (m : Moment) {amount : Float}
    (haccepted : isAccepted amount = true) :
    amounts [⟨m, .record amount⟩] = [amount] := by
  simp [amounts, amount?, haccepted]

theorem amounts_record_of_not_accepted (m : Moment) {amount : Float}
    (haccepted : isAccepted amount = false) :
    amounts [⟨m, .record amount⟩] = [] := by
  simp [amounts, amount?, haccepted]

end TimedUse

/-! ### Counters -/

namespace Counter

variable {c : Counter} {amounts : List Float}

theorem total_use (h : c.total = Accumulator.doubleSum.fold amounts)
    (u : TimedUse) :
    (c.use u).total =
      Accumulator.doubleSum.fold (amounts ++ TimedUse.amounts [u]) := by
  obtain ⟨m, use⟩ := u
  have hsame : c.total = Accumulator.doubleSum.fold (amounts ++ []) := by
    rw [List.append_nil]
    exact h
  cases use with
  | record amount =>
      cases haccepted : isAccepted amount with
      | true =>
          rw [TimedUse.amounts_record_of_accepted m haccepted,
            Accumulator.fold_append_singleton, ← h]
          simp only [use, increment, haccepted, ↓reduceIte]
          rfl
      | false =>
          rw [TimedUse.amounts_record_of_not_accepted m haccepted]
          simp only [use, increment, haccepted, Bool.false_eq_true, ↓reduceIte]
          exact hsame
  | read temporality => cases temporality <;> exact hsame
  | takeExemplars =>
      simp only [use, takeExemplars]
      split <;> exact hsame
  | _ => exact hsame

/-- The total is the sum of all accepted amounts, in their order. -/
theorem total_useAll (h : c.total = Accumulator.doubleSum.fold amounts)
    (uses : List TimedUse) :
    (c.useAll uses).total =
      Accumulator.doubleSum.fold (amounts ++ TimedUse.amounts uses) := by
  induction uses generalizing c amounts with
  | nil =>
      rw [TimedUse.amounts, List.filterMap_nil, List.append_nil]
      exact h
  | cons u rest ih =>
      rw [TimedUse.amounts_cons, ← List.append_assoc]
      exact ih (total_use h u)

end Counter

/-! ### Distributions -/

/-- A layout that counts every sample in a bucket. -/
def SlotPlan.CoversAll (plan : SlotPlan) : Prop :=
  plan.bounds.back? = some (1.0 / 0.0)

theorem SlotPlan.bounds_of_ofConfig? {config : DistributionSettings}
    {plan : SlotPlan} (hplan : ofConfig? config = some plan) :
    plan.bounds = config.upperBounds.toArray := by
  simp only [ofConfig?] at hplan
  generalize (if config.publishesPercentiles then _ else _) =
    logLinear at hplan
  split at hplan
  · cases hplan
  · cases hplan
    rfl

theorem SlotPlan.coversAll_of_ofConfig? {config : DistributionSettings}
    {plan : SlotPlan} (hplan : ofConfig? config = some plan)
    (hbounds : plan.bounds.isEmpty = false) : plan.CoversAll := by
  have hupper := bounds_of_ofConfig? hplan
  rw [hupper] at hbounds
  rw [CoversAll, hupper]
  exact config.upperBounds_back? hbounds

/-- Bucket counts that are kept apart have the published bounds. -/
theorem SlotPlan.coversAll_withoutPercentiles?
    {config : DistributionSettings} {plan bucketPlan : SlotPlan}
    (hplan : ofConfig? config = some plan)
    (hbuckets : plan.withoutPercentiles? = some bucketPlan) :
    bucketPlan.CoversAll := by
  unfold withoutPercentiles? at hbuckets
  split at hbuckets
  · cases hbuckets
  · rename_i hnonempty
    cases hbuckets
    have hcovers : plan.CoversAll :=
      coversAll_of_ofConfig? hplan (by simpa using hnonempty)
    exact hcovers

theorem CumulativeHistogram.buckets_create {plan : SlotPlan}
    {expiry : Duration} {length : Nat} {now : Int} {h : CumulativeHistogram}
    (hcreate : create plan expiry length now = .ok h) :
    h.buckets = plan.withoutPercentiles?.map fun l => (l, l.slotOf []) := by
  simp only [create] at hcreate
  split at hcreate
  · cases hcreate
    rfl
  · obtain ⟨ring, _, heq⟩ := exists_of_map_eq_ok hcreate
    cases heq
    rfl

namespace Distribution

/-- The buckets of an optional histogram count amounts under an optional
layout. -/
def CountsAll (histogram : Option Histogram) (plan : Option SlotPlan)
    (amounts : List Float) : Prop :=
  match histogram with
  | none => plan = none
  | some (.cumulative h) =>
      h.buckets = plan.map fun plan => (plan, plan.slotOf amounts)
  | some _ => False

/-- A distribution that counts amounts of all time. -/
structure Accumulates (d : Distribution) (plan : Option SlotPlan)
    (amounts : List Float) : Prop where
  count_eq : d.count = UInt64.ofNat amounts.length
  total_eq : d.total = Accumulator.doubleSum.fold amounts
  buckets : CountsAll d.histogram plan amounts
  covers : ∀ p, plan = some p → p.CoversAll

/-- Under cumulative temporality a new distribution counts from zero. -/
theorem accumulates_create {c : RegistrySettings}
    (hcumulative : c.temporality = .cumulative)
    {config : DistributionSettings} {now : Int} {d : Distribution}
    (hcreate : create c config now = .ok d) :
    ∃ plan, d.Accumulates plan [] := by
  unfold create at hcreate
  obtain ⟨histogram, hhistogram, rfl⟩ := exists_of_map_eq_ok hcreate
  unfold RegistrySettings.histogram Histogram.create at hhistogram
  split at hhistogram
  · cases hhistogram
  · unfold Histogram.createUnchecked at hhistogram
    split at hhistogram
    · cases hhistogram
      exact ⟨none, rfl, rfl, rfl, by simp⟩
    · rename_i plan hplan
      simp only [RegistrySettings.retention, hcumulative,
        Histogram.ofPlan] at hhistogram
      obtain ⟨_, hmade, rfl⟩ := exists_of_map_eq_ok hhistogram
      obtain ⟨h, hh, rfl⟩ := exists_of_map_eq_ok hmade
      refine ⟨plan.withoutPercentiles?, rfl, rfl, ?_, ?_⟩
      · exact CumulativeHistogram.buckets_create hh
      · intro p hp
        exact SlotPlan.coversAll_withoutPercentiles? hplan hp

namespace Accumulates

variable {d : Distribution} {plan : Option SlotPlan} {amounts : List Float}

/-- A distribution with the same count, total and histogram. -/
theorem congr (h : d.Accumulates plan amounts) {next : Distribution}
    (hcount : next.count = d.count) (htotal : next.total = d.total)
    (hhistogram : next.histogram = d.histogram) :
    next.Accumulates plan amounts :=
  ⟨hcount.trans h.count_eq, htotal.trans h.total_eq,
    hhistogram ▸ h.buckets, h.covers⟩

theorem record (h : d.Accumulates plan amounts) (m : Moment)
    (amount : Float) :
    (d.record m amount).Accumulates plan
      (amounts ++ TimedUse.amounts [⟨m, .record amount⟩]) := by
  unfold Distribution.record
  cases haccepted : isAccepted amount with
  | true =>
      rw [TimedUse.amounts_record_of_accepted m haccepted, if_pos rfl]
      refine ⟨?_, ?_, ?_, h.covers⟩
      · rw [List.length_append, List.length_singleton, UInt64.ofNat_add,
          ← h.count_eq]
        rfl
      · rw [Accumulator.fold_append_singleton, ← h.total_eq]
        rfl
      · have hbuckets := h.buckets
        cases hhistogram : d.histogram with
        | none => rwa [hhistogram] at hbuckets
        | some histogram =>
            rw [hhistogram] at hbuckets
            cases histogram with
            | cumulative kept =>
                simp only [CountsAll] at hbuckets
                simp only [Option.map_some, Histogram.record, CountsAll,
                  CumulativeHistogram.record, hbuckets, Option.map_map]
                congr 1
                funext p
                simp only [Function.comp, SlotPlan.slotOf_append_singleton]
            | _ => exact hbuckets
  | false =>
      rw [TimedUse.amounts_record_of_not_accepted m haccepted,
        List.append_nil, if_neg (by simp)]
      exact h

theorem statistics (h : d.Accumulates plan amounts)
    (temporality : Temporality) (now : Int) :
    (d.statistics temporality now).2.Accumulates plan amounts := by
  cases temporality <;> exact h.congr rfl rfl rfl

theorem snapshot (h : d.Accumulates plan amounts)
    (temporality : Temporality) (now : Int) :
    (d.snapshot temporality now).2.Accumulates plan amounts := by
  have hstatistics := h.statistics temporality now
  unfold Distribution.snapshot
  generalize d.statistics temporality now = read at hstatistics ⊢
  obtain ⟨⟨count, total, max⟩, d⟩ := read
  simp only
  split
  · exact hstatistics
  · rename_i histogram hhistogram
    refine ⟨hstatistics.count_eq, hstatistics.total_eq, ?_, h.covers⟩
    have hbuckets := hstatistics.buckets
    rw [hhistogram] at hbuckets
    cases histogram with
    | cumulative kept =>
        simp only [Histogram.snapshot, CumulativeHistogram.snapshot]
        split <;> exact hbuckets
    | _ => exact absurd hbuckets id

/-- One use adds the amount that it brings, if it brings one. -/
theorem use (h : d.Accumulates plan amounts) (u : TimedUse) :
    (d.use u).Accumulates plan (amounts ++ TimedUse.amounts [u]) := by
  obtain ⟨m, use⟩ := u
  have hsame : ∀ next : Distribution, next.Accumulates plan amounts →
      next.Accumulates plan (amounts ++ []) := by
    intro next hnext
    rwa [List.append_nil]
  cases use with
  | record amount => exact h.record m amount
  | maximum => exact hsame _ (h.congr rfl rfl rfl)
  | read temporality => exact hsame _ (h.snapshot temporality m.now)
  | takeExemplars =>
      apply hsame
      simp only [Distribution.use, Distribution.takeExemplars]
      split
      · exact h
      · exact h.congr rfl rfl rfl
  | rollover => exact hsame _ (h.congr rfl rfl rfl)
  | close =>
      refine hsame _ ⟨h.count_eq, h.total_eq, ?_, h.covers⟩
      have hbuckets := h.buckets
      simp only [Distribution.use, Distribution.close]
      cases hhistogram : d.histogram with
      | none => rwa [hhistogram] at hbuckets
      | some histogram =>
          rw [hhistogram] at hbuckets
          cases histogram <;> exact hbuckets

theorem useAll (h : d.Accumulates plan amounts) (uses : List TimedUse) :
    (d.useAll uses).Accumulates plan (amounts ++ TimedUse.amounts uses) := by
  induction uses generalizing d amounts with
  | nil =>
      rw [TimedUse.amounts, List.filterMap_nil, List.append_nil]
      exact h
  | cons u rest ih =>
      rw [TimedUse.amounts_cons, ← List.append_assoc]
      exact ih (h.use u)

end Accumulates

/-- A snapshot of all time shows what was counted. -/
theorem Accumulates.snapshot_cumulative {d : Distribution}
    {plan : Option SlotPlan} {amounts : List Float}
    (h : d.Accumulates plan amounts)
    (haccepted : ∀ amount ∈ amounts, isAccepted amount = true) (now : Int) :
    let shown := (d.snapshot .cumulative now).1
    shown.count = UInt64.ofNat amounts.length ∧
      shown.total = Accumulator.doubleSum.fold amounts ∧
      shown.buckets = Bucket.listOf d.bounds amounts := by
  have hbuckets := h.buckets
  have hcounted : ∀ p : SlotPlan,
      (p.snapshot [p.slotOf amounts] d.count d.total
        (d.maximum now).1).buckets = Bucket.listOf p.bounds amounts := by
    intro p
    rw [p.snapshot_slotOf, SlotPlan.snapshotOf, numbers_of_accepted haccepted]
    rfl
  simp only [Distribution.snapshot, Distribution.statistics, bounds, boundsOf]
  have hhistogram : (d.maximum now).2.histogram = d.histogram := rfl
  rw [hhistogram]
  cases hkept : d.histogram with
  | none =>
      exact ⟨h.count_eq, h.total_eq, by simp [Snapshot.scalar, Bucket.listOf]⟩
  | some histogram =>
      rw [hkept] at hbuckets
      cases histogram with
      | cumulative kept =>
          simp only [CountsAll] at hbuckets
          simp only [Histogram.snapshot, CumulativeHistogram.snapshot,
            Option.map_some, Option.getD_some, Histogram.bounds,
            CumulativeHistogram.bounds, hbuckets]
          cases plan with
          | none =>
              cases kept.percentiles <;>
                exact ⟨h.count_eq, h.total_eq, by simp [Bucket.listOf]⟩
          | some p =>
              cases kept.percentiles <;>
                exact ⟨h.count_eq, h.total_eq, hcounted p⟩
      | _ => exact absurd hbuckets id

end Distribution

/-! ### Meters -/

/-- An instrument that counts amounts of all time.  Kinds that take no amounts
have nothing to count. -/
def Instrument.Accumulates (i : Instrument) (amounts : List Float) : Prop :=
  match i with
  | .counter state =>
      ∃ c, state = some c ∧ c.total = Accumulator.doubleSum.fold amounts
  | .timer state => ∃ d plan, state = some d ∧ d.Accumulates plan amounts
  | .summary _ state => ∃ d plan, state = some d ∧ d.Accumulates plan amounts
  | _ => True

/-- The instruments of a registry with cumulative values start from zero. -/
theorem Blueprint.accumulates_instrument {b : Blueprint Source}
    {config : DistributionSettings} {c : RegistrySettings} {now : Int}
    {i : Instrument} (hcumulative : c.temporality = .cumulative)
    (hinstrument : b.instrument config c now = .ok i) : i.Accumulates [] := by
  cases b with
  | counter =>
      cases hinstrument
      exact ⟨_, rfl, rfl⟩
  | timer =>
      obtain ⟨d, hd, rfl⟩ := exists_of_map_eq_ok hinstrument
      obtain ⟨plan, hplan⟩ := Distribution.accumulates_create hcumulative hd
      exact ⟨d, plan, rfl, hplan⟩
  | summary scale =>
      obtain ⟨d, hd, rfl⟩ := exists_of_map_eq_ok hinstrument
      obtain ⟨plan, hplan⟩ := Distribution.accumulates_create hcumulative hd
      exact ⟨d, plan, rfl, hplan⟩
  | _ =>
      cases hinstrument
      exact trivial

theorem Instrument.Accumulates.undergoes {i next : Instrument}
    {amounts : List Float} {uses : List TimedUse} (h : i.Accumulates amounts)
    (hnext : i.Undergoes uses next) :
    next.Accumulates (amounts ++ TimedUse.amounts uses) := by
  have hkind := hnext.kind_eq
  cases i with
  | counter state =>
      obtain ⟨c, rfl, hc⟩ := h
      obtain rfl := hnext
      exact ⟨_, rfl, Counter.total_useAll hc uses⟩
  | timer state =>
      obtain ⟨d, plan, rfl, hd⟩ := h
      obtain rfl := hnext
      exact ⟨_, plan, rfl, hd.useAll uses⟩
  | summary scale state =>
      obtain ⟨d, plan, rfl, hd⟩ := h
      obtain rfl := hnext
      exact ⟨_, plan, rfl, hd.useAll uses⟩
  | _ => cases next <;> first | exact trivial | cases hkind

/-- What a reading says of all time: the numbers of a counter, or count and
total of a distribution beside those of its snapshot and the bucket counts.
Maximum and percentiles are of late and left out. -/
inductive Lifetime
  | counter (count value : Float)
  | distribution (count : UInt64) (total : Float) (shownCount : UInt64)
      (shownTotal : Float) (buckets : List Bucket)

def Reading.lifetime? : Reading → Option Lifetime
  | counter count value => some (.counter count value)
  | distribution count total _ snapshot _ =>
      some (.distribution count total snapshot.count snapshot.total
        snapshot.buckets)
  | _ => none

/-- What a meter of a kind says of all time if it is told by its amounts
alone.  Only the total of a timer is in the unit of the reading. -/
def Lifetime.of? (kind : MeterKind) (unit : TimeUnit) (bounds : Array Float)
    (amounts : List Float) : Option Lifetime :=
  let count := UInt64.ofNat amounts.length
  let total := Accumulator.doubleSum.fold amounts
  match kind with
  | .counter => some (.counter total total)
  | .timer =>
      some (.distribution count (unit.express total) count total
        (Bucket.listOf bounds amounts))
  | .summary =>
      some (.distribution count total count total
        (Bucket.listOf bounds amounts))
  | _ => none

theorem Lifetime.sum_buckets {kind : MeterKind} {unit : TimeUnit}
    {bounds : Array Float} {amounts : List Float}
    (hbounds : bounds ≠ #[] → bounds.back? = some (1.0 / 0.0))
    {count shownCount : UInt64} {total shownTotal : Float}
    {buckets : List Bucket} (h : of? kind unit bounds amounts =
      some (.distribution count total shownCount shownTotal buckets))
    (hbuckets : buckets ≠ []) : Bucket.sum buckets = shownCount := by
  have hlist (hsome : Bucket.listOf bounds amounts ≠ []) :
      Bucket.sum (Bucket.listOf bounds amounts) =
        UInt64.ofNat amounts.length := by
    apply Bucket.sum_listOf
    apply hbounds
    rintro rfl
    exact hsome rfl
  cases kind with
  | timer =>
      cases h
      exact hlist hbuckets
  | summary =>
      cases h
      exact hlist hbuckets
  | _ => cases h

/-- The bucket bounds of a timer or summary. -/
def Meter.bounds (meter : Meter) : Array Float :=
  match meter.instrument with
  | .timer (some d) => d.bounds
  | .summary _ (some d) => d.bounds
  | _ => #[]

namespace Distribution.Accumulates

variable {d : Distribution} {plan : Option SlotPlan} {amounts : List Float}

/-- What all accessors of a distribution say of all time. -/
theorem readDistributionState (h : d.Accumulates plan amounts)
    (haccepted : ∀ amount ∈ amounts, isAccepted amount = true)
    (convert : Float → Float) (now : Int) :
    (readDistributionState (some d) .cumulative convert now).1.lifetime? =
      some (.distribution (UInt64.ofNat amounts.length)
        (convert (Accumulator.doubleSum.fold amounts))
        (UInt64.ofNat amounts.length) (Accumulator.doubleSum.fold amounts)
        (Bucket.listOf d.bounds amounts)) := by
  have hmaximum : (d.maximum now).2.Accumulates plan amounts :=
    h.congr rfl rfl rfl
  obtain ⟨hcount, htotal, hbuckets⟩ :=
    hmaximum.snapshot_cumulative haccepted now
  simp only [WindowedMetrics.readDistributionState, Reading.lifetime?, hcount,
    htotal, hbuckets, h.count_eq, h.total_eq]
  rfl

/-- The bounds are those of the layout, and end with infinity. -/
theorem back?_bounds (h : d.Accumulates plan amounts)
    (hbounds : d.bounds ≠ #[]) : d.bounds.back? = some (1.0 / 0.0) := by
  have hbuckets := h.buckets
  unfold Distribution.bounds Distribution.boundsOf at hbounds ⊢
  cases hkept : d.histogram with
  | none => simp [hkept] at hbounds
  | some histogram =>
      rw [hkept] at hbuckets hbounds
      cases histogram with
      | cumulative kept =>
          simp only [CountsAll] at hbuckets
          simp only [Option.map_some, Option.getD_some, Histogram.bounds,
            CumulativeHistogram.bounds, hbuckets] at hbounds ⊢
          cases plan with
          | none => simp at hbounds
          | some p => exact h.covers p rfl
      | _ => exact absurd hbuckets id

end Distribution.Accumulates

/-- A reading under cumulative temporality is told by the amounts. -/
theorem Meter.lifetime?_read {meter : Meter} {amounts : List Float}
    (h : meter.instrument.Accumulates amounts)
    (haccepted : ∀ amount ∈ amounts, isAccepted amount = true)
    (unit : TimeUnit) (m : Moment) :
    (meter.read .cumulative unit m).1.lifetime? =
      Lifetime.of? meter.kind unit meter.bounds amounts := by
  obtain ⟨id, created, instrument⟩ := meter
  cases instrument with
  | counter state =>
      obtain ⟨c, rfl, hc⟩ := h
      simp only [Lifetime.of?, Meter.kind, Instrument.kind, ← hc]
      rfl
  | timer state =>
      obtain ⟨d, plan, rfl, hd⟩ := h
      exact hd.readDistributionState haccepted unit.express m.now
  | summary scale state =>
      obtain ⟨d, plan, rfl, hd⟩ := h
      exact hd.readDistributionState haccepted (fun x => x) m.now
  | longTaskTimer state => cases state <;> rfl
  | _ => rfl

theorem Meter.back?_bounds {meter : Meter} {amounts : List Float}
    (h : meter.instrument.Accumulates amounts) (hbounds : meter.bounds ≠ #[]) :
    meter.bounds.back? = some (1.0 / 0.0) := by
  obtain ⟨id, created, instrument⟩ := meter
  cases instrument with
  | timer state =>
      obtain ⟨d, plan, rfl, hd⟩ := h
      exact hd.back?_bounds hbounds
  | summary scale state =>
      obtain ⟨d, plan, rfl, hd⟩ := h
      exact hd.back?_bounds hbounds
  | _ => exact absurd rfl hbounds

end WindowedMetrics
