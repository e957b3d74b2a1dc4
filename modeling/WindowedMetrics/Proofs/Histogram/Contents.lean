/-
What slots hold, told by the samples that went in.  Bucket counts are a tally
and log-linear counts a sum over samples, so a snapshot of several slots
depends only on all their samples together, in any order and however they were
spread over the slots.
-/
import WindowedMetrics.Histogram.Slot
import Mathlib.Data.List.Induction
import Mathlib.Data.List.Perm.Basic

namespace WindowedMetrics

/-! ### Bucket counts -/

namespace BucketCounts

/-- The number of samples in each bucket, modulo `2^64`. -/
def tally (bounds : Array Float) (samples : List Float) : Array UInt64 :=
  Array.ofFn (n := bounds.size) fun i =>
    UInt64.ofNat (samples.countP fun sample =>
      decide (bucketOf bounds sample = i))

@[simp] theorem size_tally (bounds : Array Float) (samples : List Float) :
    (tally bounds samples).size = bounds.size := by
  simp [tally]

theorem tally_nil (bounds : Array Float) :
    tally bounds [] = Array.replicate bounds.size 0 := by
  apply Array.ext
  · simp
  · intro i _ _
    simp [tally]

/-- Fresh counts are those of no samples. -/
theorem ofBounds?_eq_some {bounds : Array Float}
    (hsome : bounds.isEmpty = false) :
    ofBounds? bounds = some ⟨bounds, tally bounds []⟩ := by
  rw [ofBounds?, hsome, tally_nil]
  rfl

theorem tally_append_singleton (bounds : Array Float) (samples : List Float)
    (sample : Float) :
    tally bounds (samples ++ [sample]) =
      (tally bounds samples).modify (bucketOf bounds sample) (· + 1) := by
  apply Array.ext
  · simp
  · intro i _ _
    by_cases hbucket : bucketOf bounds sample = i
    · simp [tally, Array.getElem_modify, hbucket]
    · simp [tally, Array.getElem_modify, hbucket]

/-- Samples that are recorded one by one are tallied. -/
theorem foldl_record (bounds : Array Float) (samples more : List Float) :
    more.foldl record ⟨bounds, tally bounds samples⟩ =
      ⟨bounds, tally bounds (samples ++ more)⟩ := by
  induction more generalizing samples with
  | nil => rw [List.append_nil, List.foldl_nil]
  | cons sample rest ih =>
      rw [List.foldl_cons, record, ← tally_append_singleton, ih,
        List.append_assoc, List.singleton_append]

theorem tally_perm (bounds : Array Float) {samples others : List Float}
    (hperm : samples.Perm others) :
    tally bounds samples = tally bounds others := by
  simp only [tally, hperm.countP_eq]

/-- The tallies of two lots of samples add up to the tally of both. -/
theorem addTo_tally (bounds : Array Float) (samples more : List Float) :
    addTo ⟨bounds, tally bounds more⟩ (tally bounds samples) =
      tally bounds (samples ++ more) := by
  apply Array.ext
  · simp [addTo]
  · intro i hi _
    have hsize : i < bounds.size := by simpa [addTo] using hi
    simp [addTo, tally, hsize]

end BucketCounts

/-! ### Log-linear counts -/

namespace LogLinearTally

theorem addAt_addAt_self (index amount more : Nat)
    (counters : List (Nat × Nat)) :
    addAt index more (addAt index amount counters) =
      addAt index (amount + more) counters := by
  induction counters with
  | nil => simp [addAt]
  | cons head rest ih =>
      by_cases hlt : head.1 < index
      · simp [addAt, hlt]
      · by_cases heq : index = head.1
        · simp [addAt, heq, Nat.add_assoc]
        · simp [addAt, hlt, heq, ih]

/-- Counters can be raised in any order. -/
theorem addAt_comm (i j a b : Nat) (counters : List (Nat × Nat)) :
    addAt i a (addAt j b counters) = addAt j b (addAt i a counters) := by
  by_cases hij : i = j
  · rw [hij, addAt_addAt_self, addAt_addAt_self, Nat.add_comm]
  · induction counters with
    | nil => grind [addAt]
    | cons head rest ih => grind [addAt]

/-- Counters added one by one to others, one of them raised before. -/
theorem foldr_addAt (index amount : Nat)
    (counters onto : List (Nat × Nat)) :
    (addAt index amount counters).foldr
        (fun e held => addAt e.1 e.2 held) onto =
      addAt index amount
        (counters.foldr (fun e held => addAt e.1 e.2 held) onto) := by
  induction counters with
  | nil => rfl
  | cons head rest ih =>
      by_cases hlt : head.1 < index
      · simp [addAt, hlt]
      · by_cases heq : index = head.1
        · subst heq
          simp [addAt, addAt_addAt_self]
        · simp only [addAt, hlt, heq, ↓reduceIte, List.foldr_cons, ih]
          exact addAt_comm _ _ _ _ _

/-- The counts of values given in log-linear units. -/
def ofUnits (grid : LogLinearGrid) (units : List Nat) : LogLinearTally :=
  units.foldl record (empty grid)

theorem grid_foldl_record (c : LogLinearTally) (units : List Nat) :
    (units.foldl record c).grid = c.grid := by
  induction units generalizing c with
  | nil => rfl
  | cons unit rest ih => exact ih (c.record unit)

theorem record_comm (c : LogLinearTally) (a b : Nat) :
    (c.record a).record b = (c.record b).record a := by
  simp only [record, addAt_comm]

theorem ofUnits_append (grid : LogLinearGrid) (units more : List Nat) :
    ofUnits grid (units ++ more) = more.foldl record (ofUnits grid units) := by
  simp [ofUnits]

theorem ofUnits_perm (grid : LogLinearGrid) {units others : List Nat}
    (hperm : units.Perm others) : ofUnits grid units = ofUnits grid others := by
  have hcomm : RightCommutative record := ⟨record_comm⟩
  exact hperm.foldl_eq (empty grid)

theorem merge_record (c other : LogLinearTally) (unit : Nat)
    (hgrid : other.grid = c.grid) :
    c.merge (other.record unit) = (c.merge other).record unit := by
  simp only [merge, record, hgrid, foldr_addAt]

/-- Merging counts is recording the values that they count. -/
theorem merge_ofUnits (c : LogLinearTally) (units : List Nat) :
    c.merge (ofUnits c.grid units) = units.foldl record c := by
  induction units using List.reverseRecOn with
  | nil => rfl
  | append_singleton before unit ih =>
      rw [ofUnits_append, List.foldl_append]
      simp only [List.foldl_cons, List.foldl_nil]
      rw [merge_record c (ofUnits c.grid before) unit
        (grid_foldl_record (empty c.grid) before), ih]

end LogLinearTally

/-! ### Slots -/

namespace SlotPlan

/-- The samples that leave a trace. -/
def numbers (values : List Float) : List Float :=
  values.filter fun value => !value.isNaN

/-- The slot that recorded some values. -/
def slotOf (plan : SlotPlan) (values : List Float) : Slot :=
  values.foldl plan.record plan.emptySlot

theorem slotOf_append_singleton (plan : SlotPlan) (values : List Float)
    (value : Float) :
    plan.slotOf (values ++ [value]) =
      plan.record (plan.slotOf values) value := by
  simp [slotOf]

theorem numbers_append_of_isNaN (values : List Float) {value : Float}
    (hnan : value.isNaN = true) :
    numbers (values ++ [value]) = numbers values := by
  rw [numbers, List.filter_append, List.filter_singleton, hnan]
  exact List.append_nil _

theorem numbers_append_of_not_isNaN (values : List Float) {value : Float}
    (hnan : value.isNaN = false) :
    numbers (values ++ [value]) = numbers values ++ [value] := by
  rw [numbers, List.filter_append, List.filter_singleton, hnan]
  rfl

theorem buckets_slotOf (plan : SlotPlan) (values : List Float) :
    (plan.slotOf values).buckets =
      if plan.bounds.isEmpty then none
      else some ⟨plan.bounds,
        BucketCounts.tally plan.bounds (numbers values)⟩ := by
  induction values using List.reverseRecOn with
  | nil =>
      simp only [slotOf, List.foldl_nil, emptySlot, BucketCounts.ofBounds?,
        numbers, List.filter_nil, BucketCounts.tally_nil]
  | append_singleton before value ih =>
      rw [slotOf_append_singleton]
      cases hnan : value.isNaN with
      | true =>
          simp only [record, hnan, ↓reduceIte]
          rw [ih, numbers_append_of_isNaN before hnan]
      | false =>
          simp only [record, hnan, Bool.false_eq_true, ↓reduceIte]
          rw [ih, numbers_append_of_not_isNaN before hnan,
            BucketCounts.tally_append_singleton]
          by_cases hbounds : plan.bounds.isEmpty
          · simp only [hbounds, ↓reduceIte, Option.map_none]
          · simp only [hbounds, Bool.false_eq_true, ↓reduceIte,
              Option.map_some, BucketCounts.record]

theorem logLinear_slotOf (plan : SlotPlan) (values : List Float) :
    (plan.slotOf values).logLinear =
      plan.logLinear.map fun grid =>
        LogLinearTally.ofUnits grid ((numbers values).map plan.unitOf) := by
  induction values using List.reverseRecOn with
  | nil => rfl
  | append_singleton before value ih =>
      rw [slotOf_append_singleton]
      cases hnan : value.isNaN with
      | true =>
          simp only [record, hnan, ↓reduceIte]
          rw [ih, numbers_append_of_isNaN before hnan]
      | false =>
          simp only [record, hnan, Bool.false_eq_true, ↓reduceIte]
          rw [ih, numbers_append_of_not_isNaN before hnan, List.map_append,
            Option.map_map]
          simp only [LogLinearTally.ofUnits_append]
          rfl

/-- Clearing a slot undoes all that was recorded. -/
theorem reset_slotOf (plan : SlotPlan) (values : List Float) :
    (plan.slotOf values).reset = plan.slotOf [] := by
  have hcounts : ∀ b : BucketCounts,
      b.reset = ⟨b.bounds, Array.replicate b.counts.size 0⟩ := by
    intro b
    simp [BucketCounts.reset, Array.map_const']
  have hbuckets : (plan.slotOf values).buckets.map BucketCounts.reset =
      (plan.slotOf []).buckets := by
    rw [buckets_slotOf, buckets_slotOf]
    by_cases hbounds : plan.bounds.isEmpty
    · simp only [hbounds, ↓reduceIte, Option.map_none]
    · simp [hbounds, hcounts, numbers, BucketCounts.tally_nil]
  have hlogLinear : (plan.slotOf values).logLinear.map LogLinearTally.reset =
      (plan.slotOf []).logLinear := by
    rw [logLinear_slotOf, logLinear_slotOf, Option.map_map]
    congr 1
    funext grid
    simp [LogLinearTally.reset, LogLinearTally.ofUnits,
      LogLinearTally.grid_foldl_record, LogLinearTally.empty, numbers]
  simp only [Slot.reset, hbuckets, hlogLinear]

/-! ### Snapshots -/

/-- The snapshot of some values, by what it counts: every bucket the values
that belong to it, every percentile all values in log-linear units. -/
def snapshotOf (plan : SlotPlan) (values : List Float) (count : UInt64)
    (total max : Float) : Snapshot where
  count := count
  total := total
  max := max
  percentiles :=
    match plan.logLinear with
    | none => []
    | some grid =>
        plan.percentiles.map fun p =>
          ⟨p, plan.percentileValue
            (LogLinearTally.ofUnits grid ((numbers values).map plan.unitOf)) p⟩
  buckets :=
    List.zipWith Bucket.mk plan.bounds.toList
      (BucketCounts.tally plan.bounds (numbers values)).toList

/-- The order of values does not matter. -/
theorem snapshotOf_perm (plan : SlotPlan) {values others : List Float}
    (hperm : values.Perm others) (count : UInt64) (total max : Float) :
    plan.snapshotOf values count total max =
      plan.snapshotOf others count total max := by
  have hnumbers : (numbers values).Perm (numbers others) := hperm.filter _
  have htally := BucketCounts.tally_perm plan.bounds hnumbers
  have hunits : ∀ grid,
      LogLinearTally.ofUnits grid ((numbers values).map plan.unitOf) =
        LogLinearTally.ofUnits grid ((numbers others).map plan.unitOf) :=
    fun grid => LogLinearTally.ofUnits_perm grid (hnumbers.map plan.unitOf)
  simp only [snapshotOf, htally, hunits]

theorem mergedBuckets_append_singleton (plan : SlotPlan)
    (slots : List Slot) (slot : Slot) :
    plan.mergedBuckets (slots ++ [slot]) =
      match slot.buckets with
      | some buckets => buckets.addTo (plan.mergedBuckets slots)
      | none => plan.mergedBuckets slots := by
  unfold mergedBuckets
  rw [List.foldl_append]
  cases hbuckets : slot.buckets <;> simp [hbuckets]

theorem mergedBuckets_slotOf (plan : SlotPlan) (lists : List (List Float)) :
    plan.mergedBuckets (lists.map plan.slotOf) =
      BucketCounts.tally plan.bounds (numbers lists.flatten) := by
  induction lists using List.reverseRecOn with
  | nil => exact (BucketCounts.tally_nil plan.bounds).symm
  | append_singleton before values ih =>
      have hnumbers : numbers (before ++ [values]).flatten =
          numbers before.flatten ++ numbers values := by
        simp [numbers]
      rw [List.map_append, List.map_singleton,
        mergedBuckets_append_singleton, buckets_slotOf, ih, hnumbers]
      by_cases hbounds : plan.bounds.isEmpty
      · have hsize : plan.bounds.size = 0 := by
          simpa [Array.isEmpty] using hbounds
        simp only [hbounds, ↓reduceIte]
        apply Array.ext
        · simp
        · intro i hi _
          rw [BucketCounts.size_tally] at hi
          omega
      · simp only [hbounds, Bool.false_eq_true, ↓reduceIte]
        exact BucketCounts.addTo_tally _ _ _

theorem mergedLogLinear_append_singleton (grid : LogLinearGrid)
    (slots : List Slot) (slot : Slot) :
    mergedLogLinear grid (slots ++ [slot]) =
      match slot.logLinear with
      | some logLinear => (mergedLogLinear grid slots).merge logLinear
      | none => mergedLogLinear grid slots := by
  unfold mergedLogLinear
  rw [List.foldl_append]
  cases hlogLinear : slot.logLinear <;> simp [hlogLinear]

theorem mergedLogLinear_slotOf (plan : SlotPlan) {grid : LogLinearGrid}
    (hgrid : plan.logLinear = some grid) (lists : List (List Float)) :
    mergedLogLinear grid (lists.map plan.slotOf) =
      LogLinearTally.ofUnits grid
        ((numbers lists.flatten).map plan.unitOf) := by
  induction lists using List.reverseRecOn with
  | nil => rfl
  | append_singleton before values ih =>
      have hnumbers : numbers (before ++ [values]).flatten =
          numbers before.flatten ++ numbers values := by
        simp [numbers]
      rw [List.map_append, List.map_singleton,
        mergedLogLinear_append_singleton, logLinear_slotOf, ih, hgrid,
        hnumbers, List.map_append, LogLinearTally.ofUnits_append]
      have hheld : (LogLinearTally.ofUnits grid
          ((numbers before.flatten).map plan.unitOf)).grid = grid :=
        LogLinearTally.grid_foldl_record _ _
      have hmerge := LogLinearTally.merge_ofUnits
        (LogLinearTally.ofUnits grid
          ((numbers before.flatten).map plan.unitOf))
        ((numbers values).map plan.unitOf)
      rw [hheld] at hmerge
      exact hmerge

/-- A snapshot of several slots is the snapshot of all their values. -/
theorem snapshot_map_slotOf (plan : SlotPlan) (lists : List (List Float))
    (count : UInt64) (total max : Float) :
    plan.snapshot (lists.map plan.slotOf) count total max =
      plan.snapshotOf lists.flatten count total max := by
  simp only [snapshot, snapshotOf, mergedBuckets_slotOf]
  cases hgrid : plan.logLinear with
  | none => rfl
  | some grid => simp only [mergedLogLinear_slotOf plan hgrid]

theorem snapshot_slotOf (plan : SlotPlan) (values : List Float)
    (count : UInt64) (total max : Float) :
    plan.snapshot [plan.slotOf values] count total max =
      plan.snapshotOf values count total max := by
  have hshown := plan.snapshot_map_slotOf [values] count total max
  simpa using hshown

/-- The slots may come in any order. -/
theorem snapshot_of_perm (plan : SlotPlan) {slots : List Slot}
    {lists : List (List Float)} (hperm : slots.Perm (lists.map plan.slotOf))
    (count : UInt64) (total max : Float) :
    plan.snapshot slots count total max =
      plan.snapshotOf lists.flatten count total max := by
  have hlists : ∃ others : List (List Float),
      slots = others.map plan.slotOf ∧ others.Perm lists := by
    have hcomp := congrFun (congrFun (List.eq_map_comp_perm plan.slotOf) slots)
      lists
    exact hcomp.mpr hperm
  obtain ⟨others, hslots, hothers⟩ := hlists
  rw [hslots, snapshot_map_slotOf]
  exact plan.snapshotOf_perm hothers.flatten count total max

end SlotPlan

end WindowedMetrics
