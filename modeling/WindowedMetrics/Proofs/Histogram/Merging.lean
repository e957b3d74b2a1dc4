/-
Bucket counts under records, resets and merges.  In ascending bounds a bucket
takes the samples above the bound before it up to its own, so a merge adds
those of them that came after the last reset, and running totals of the counts
are the samples at or below each bound.
-/
import WindowedMetrics.Proofs.Histogram.Buckets
import WindowedMetrics.Proofs.Number.TotalOrder

namespace WindowedMetrics

/-- In ascending numbers, those at or below a bound come first. -/
theorem pairwise_notAbove {samples : List Float}
    (hascending : samples.Pairwise (· ≤ ·)) (bound : Float) :
    samples.Pairwise fun x y =>
      decide (y ≤ bound) = true → decide (x ≤ bound) = true := by
  refine hascending.imp ?_
  intro x y hle hbelow
  rw [decide_eq_true_eq] at hbelow ⊢
  exact float_le_trans hle hbelow

namespace BucketCounts

/-! ### Ranges of buckets -/

/-- Bounds in ascending order, all of them numbers. -/
structure Ascending (bounds : Array Float) : Prop where
  pairwise : bounds.toList.Pairwise (· ≤ ·)
  numbers : ∀ bound ∈ bounds, bound.isNaN = false

/-- Whether a sample is at most a bound, and above the bound before it if
there is one. -/
def inBucket (bounds : Array Float) (i : Nat) (sample : Float) : Bool :=
  bounds[i]?.any (fun bound => decide (sample ≤ bound)) &&
    (i == 0 || bounds[i - 1]?.any fun bound => decide (bound < sample))

namespace Ascending

variable {bounds : Array Float} (hbounds : Ascending bounds)
include hbounds

theorem getElem_le {i j : Nat} (hij : i ≤ j) (hj : j < bounds.size) :
    bounds[i] ≤ bounds[j] := by
  rcases Nat.lt_or_eq_of_le hij with hlt | rfl
  · have hpair := List.pairwise_iff_getElem.mp hbounds.pairwise i j
      (by simpa using Nat.lt_trans hlt hj) (by simpa using hj) hlt
    simpa using hpair
  · exact float_le_refl (hbounds.numbers _ (Array.getElem_mem hj))

/-- The bounds below a sample are those before its bucket. -/
theorem lt_bucketOf_iff (sample : Float) {i : Nat} (hi : i < bounds.size) :
    i < bucketOf bounds sample ↔ bounds[i] < sample := by
  have hfront := pairwise_below hbounds.pairwise sample
  rw [bucketOf, lt_frontLength_iff hfront hi, decide_eq_true_eq]

/-- A sample is at or below a bound if its bucket is not behind it. -/
theorem le_getElem_iff {sample : Float} (hsample : sample.isNaN = false)
    {i : Nat} (hi : i < bounds.size) :
    sample ≤ bounds[i] ↔ bucketOf bounds sample ≤ i := by
  rw [← not_float_lt_iff (hbounds.numbers _ (Array.getElem_mem hi)) hsample,
    ← hbounds.lt_bucketOf_iff sample hi, Nat.not_lt]

/-- The bucket of a sample is the one whose range it is in. -/
theorem bucketOf_eq_iff {sample : Float} (hsample : sample.isNaN = false)
    {i : Nat} (hi : i < bounds.size) :
    bucketOf bounds sample = i ↔ inBucket bounds i sample = true := by
  have hupper := hbounds.le_getElem_iff hsample hi
  rw [inBucket, Array.getElem?_eq_getElem hi, Option.any_some,
    Bool.and_eq_true, decide_eq_true_eq, hupper]
  cases i with
  | zero => simp
  | succ i =>
      have hlower := hbounds.lt_bucketOf_iff sample (Nat.lt_of_succ_lt hi)
      rw [Nat.add_sub_cancel,
        Array.getElem?_eq_getElem (Nat.lt_of_succ_lt hi), Option.any_some,
        Bool.or_eq_true, decide_eq_true_eq, beq_iff_eq, ← hlower]
      omega

/-- The count of a bucket is the number of samples in its range. -/
theorem getElem?_tally {samples : List Float}
    (hsamples : ∀ sample ∈ samples, sample.isNaN = false) {i : Nat}
    (hi : i < bounds.size) :
    (tally bounds samples)[i]? =
      some (UInt64.ofNat (samples.countP (inBucket bounds i))) := by
  have hcount : (samples.countP fun sample =>
        decide (bucketOf bounds sample = i)) =
      samples.countP (inBucket bounds i) := by
    apply List.countP_congr
    intro sample hmem
    rw [decide_eq_true_eq]
    exact hbounds.bucketOf_eq_iff (hsamples sample hmem) hi
  rw [Array.getElem?_eq_getElem (by simpa using hi)]
  simp only [tally, Array.getElem_ofFn, hcount]

/-- The samples at or below a bound are those in its bucket or before it. -/
theorem countP_bucketOf_lt_succ {samples : List Float}
    (hsamples : ∀ sample ∈ samples, sample.isNaN = false) {i : Nat}
    (hi : i < bounds.size) :
    (samples.countP fun sample => decide (bucketOf bounds sample < i + 1)) =
      samples.countP fun sample => decide (sample ≤ bounds[i]) := by
  apply List.countP_congr
  intro sample hmem
  rw [decide_eq_true_eq, decide_eq_true_eq,
    hbounds.le_getElem_iff (hsamples sample hmem) hi, Nat.lt_succ_iff]

/-- A sample above the last bound has no bucket. -/
theorem size_le_bucketOf {last sample : Float}
    (hlast : bounds.back? = some last) (hsample : sample.isNaN = false)
    (habove : last < sample) : bounds.size ≤ bucketOf bounds sample := by
  rw [Array.back?_eq_getElem?] at hlast
  obtain ⟨hi, hget⟩ := Array.getElem?_eq_some_iff.mp hlast
  by_contra hfound
  have hle := (hbounds.le_getElem_iff hsample hi).mpr (by omega)
  rw [hget] at hle
  exact not_float_lt_of_le hle habove

end Ascending

/-! ### Running totals -/

theorem length_runningTotals (counts : List UInt64) (total : UInt64) :
    (runningTotals total counts).length = counts.length := by
  induction counts generalizing total with
  | nil => rfl
  | cons count rest ih => exact congrArg (· + 1) (ih (total + count))

theorem getElem?_runningTotals {counts : List UInt64} (total : UInt64)
    {i : Nat} (hi : i < counts.length) :
    (runningTotals total counts)[i]? =
      some ((counts.take (i + 1)).foldl (· + ·) total) := by
  induction counts generalizing total i with
  | nil => cases hi
  | cons count rest ih =>
      cases i with
      | zero => rfl
      | succ i => exact ih (total + count) (Nat.lt_of_succ_lt_succ hi)

theorem countP_lt_succ (bounds : Array Float) (samples : List Float)
    (k : Nat) :
    (samples.countP fun sample => decide (bucketOf bounds sample < k + 1)) =
      (samples.countP fun sample => decide (bucketOf bounds sample < k)) +
        samples.countP fun sample => decide (bucketOf bounds sample = k) := by
  induction samples with
  | nil => rfl
  | cons sample rest ih =>
      simp only [List.countP_cons, decide_eq_true_eq, ih]
      split <;> split <;> split <;> omega

/-- The first counts together are the samples in their buckets. -/
theorem foldl_take_tally (bounds : Array Float) (samples : List Float)
    {k : Nat} (hk : k ≤ bounds.size) :
    ((tally bounds samples).toList.take k).foldl (· + ·) 0 =
      UInt64.ofNat (samples.countP fun sample =>
        decide (bucketOf bounds sample < k)) := by
  induction k with
  | zero => simp
  | succ k ih =>
      have hcount : (tally bounds samples).toList[k]? =
          some (UInt64.ofNat (samples.countP fun sample =>
            decide (bucketOf bounds sample = k))) := by
        have hsize : k < (tally bounds samples).size := by
          rw [size_tally]
          omega
        rw [Array.getElem?_toList, Array.getElem?_eq_getElem hsize]
        simp only [tally, Array.getElem_ofFn]
      rw [List.take_add_one, hcount, List.foldl_append, ih (by omega),
        countP_lt_succ, UInt64.ofNat_add]
      rfl

/-- Running totals of counts are the samples at or below each bound. -/
theorem Ascending.getElem?_cumulativeCounts {bounds : Array Float}
    (hbounds : Ascending bounds) {samples : List Float}
    (hsamples : ∀ sample ∈ samples, sample.isNaN = false) {i : Nat}
    (hi : i < bounds.size) :
    (cumulativeCounts (tally bounds samples).toList)[i]? =
      some (UInt64.ofNat
        (samples.countP fun sample => decide (sample ≤ bounds[i]))) := by
  rw [cumulativeCounts, getElem?_runningTotals 0 (by simpa using hi),
    foldl_take_tally bounds samples hi,
    hbounds.countP_bucketOf_lt_succ hsamples hi]

/-- A higher bound has no fewer samples at or below it. -/
theorem countP_le_mono {bound above : Float} (hle : bound ≤ above)
    (samples : List Float) :
    (samples.countP fun sample => decide (sample ≤ bound)) ≤
      samples.countP fun sample => decide (sample ≤ above) := by
  apply List.countP_mono_left
  intro sample _ hbelow
  rw [decide_eq_true_eq] at hbelow ⊢
  exact float_le_trans hbelow hle

/-- No sample is above infinity. -/
theorem countP_le_infinity {samples : List Float}
    (hsamples : ∀ sample ∈ samples, sample.isNaN = false) :
    (samples.countP fun sample => decide (sample ≤ 1.0 / 0.0)) =
      samples.length := by
  rw [List.countP_eq_length]
  intro sample hmem
  rw [decide_eq_true_eq, ← not_float_lt_iff infinity_isNaN
    (hsamples sample hmem)]
  exact not_infinity_lt sample

/-- Running totals that fit are the numbers of samples at or below each
bound. -/
theorem Ascending.map_cumulativeCounts {bounds : Array Float}
    (hbounds : Ascending bounds) {samples : List Float}
    (hsamples : ∀ sample ∈ samples, sample.isNaN = false) {last : Float}
    (hlast : bounds.back? = some last)
    (hfit : (samples.countP fun sample => decide (sample ≤ last)) <
      UInt64.size) :
    (cumulativeCounts (tally bounds samples).toList).map UInt64.toNat =
      bounds.toList.map fun bound =>
        samples.countP fun sample => decide (sample ≤ bound) := by
  rw [Array.back?_eq_getElem?] at hlast
  obtain ⟨hend, rfl⟩ := Array.getElem?_eq_some_iff.mp hlast
  apply List.ext_getElem?
  intro i
  rcases Nat.lt_or_ge i bounds.size with hi | hi
  · have hle := countP_le_mono
      (hbounds.getElem_le (by omega : i ≤ bounds.size - 1) hend) samples
    rw [List.getElem?_map, hbounds.getElem?_cumulativeCounts hsamples hi,
      List.getElem?_map, Array.getElem?_toList,
      Array.getElem?_eq_getElem hi, Option.map_some, Option.map_some,
      UInt64.toNat_ofNat', Nat.mod_eq_of_lt (Nat.lt_of_le_of_lt hle hfit)]
  · rw [List.getElem?_eq_none, List.getElem?_eq_none]
    · simpa using hi
    · simpa [cumulativeCounts, length_runningTotals] using hi

end BucketCounts

/-! ### Runs -/

/-- What can be done with bucket counts. -/
inductive BucketCommand
  | record (sample : Float)
  | reset
  | merge

namespace BucketCommand

/-- The samples that count after a command, of those that counted before. -/
def keep (samples : List Float) : BucketCommand → List Float
  | record sample => samples ++ [sample]
  | reset => []
  | merge => samples

/-- The samples recorded since the last reset. -/
def samplesSinceReset (commands : List BucketCommand) : List Float :=
  commands.foldl keep []

theorem samplesSinceReset_append_singleton (commands : List BucketCommand)
    (c : BucketCommand) :
    samplesSinceReset (commands ++ [c]) =
      keep (samplesSinceReset commands) c := by
  simp [samplesSinceReset]

theorem mem_of_mem_samplesSinceReset {commands : List BucketCommand}
    {sample : Float} (hmem : sample ∈ samplesSinceReset commands) :
    record sample ∈ commands := by
  induction commands using List.reverseRecOn with
  | nil => cases hmem
  | append_singleton before c ih =>
      rw [samplesSinceReset_append_singleton] at hmem
      cases c with
      | record other =>
          rcases List.mem_append.mp hmem with hold | hnew
          · exact List.mem_append_left _ (ih hold)
          · rw [List.mem_singleton.mp hnew]
            exact List.mem_append_right _ (List.mem_singleton_self _)
      | reset => cases hmem
      | merge => exact List.mem_append_left _ (ih hmem)

end BucketCommand

/-- Bucket counts and the totals that they are merged into. -/
structure MergedCounts where
  counts : BucketCounts
  totals : Array UInt64

namespace MergedCounts

open BucketCounts BucketCommand

/-- Counts and totals after a command. -/
def perform (u : MergedCounts) : BucketCommand → MergedCounts
  | .record sample => { u with counts := u.counts.record sample }
  | .reset => { u with counts := u.counts.reset }
  | .merge => { u with totals := u.counts.addTo u.totals }

/-- Counts and totals after commands. -/
def run (u : MergedCounts) (commands : List BucketCommand) : MergedCounts :=
  commands.foldl perform u

theorem run_append_singleton (u : MergedCounts)
    (commands : List BucketCommand) (c : BucketCommand) :
    u.run (commands ++ [c]) = (u.run commands).perform c := by
  simp [run]

/-- The counts are those of the samples since the last reset, and the totals
are as many as before. -/
structure Follows (u : MergedCounts) (bounds : Array Float)
    (samples : List Float) (size : Nat) : Prop where
  counts_eq : u.counts = ⟨bounds, tally bounds samples⟩
  size_totals : u.totals.size = size

theorem Follows.perform {u : MergedCounts} {bounds : Array Float}
    {samples : List Float} {size : Nat} (hu : u.Follows bounds samples size)
    (c : BucketCommand) :
    (u.perform c).Follows bounds (keep samples c) size := by
  obtain ⟨hcounts, hsize⟩ := hu
  cases c with
  | record sample =>
      refine ⟨?_, hsize⟩
      simp only [MergedCounts.perform, hcounts, BucketCounts.record, keep,
        tally_append_singleton]
  | reset =>
      refine ⟨?_, hsize⟩
      simp only [MergedCounts.perform, hcounts, BucketCounts.reset, keep,
        tally_nil]
      congr 1
      apply Array.ext
      · simp
      · intro i _ _
        simp
  | merge =>
      refine ⟨hcounts, ?_⟩
      simpa [MergedCounts.perform, addTo] using hsize

/-- A sample without a bucket leaves no trace. -/
theorem Follows.perform_of_size_le {u : MergedCounts} {bounds : Array Float}
    {samples : List Float} {size : Nat} (hu : u.Follows bounds samples size)
    {sample : Float} (hbucket : bounds.size ≤ bucketOf bounds sample) :
    u.perform (.record sample) = u := by
  rcases u with ⟨counts, totals⟩
  obtain rfl : counts = ⟨bounds, tally bounds samples⟩ := hu.counts_eq
  have hcounts : (tally bounds samples).modify (bucketOf bounds sample)
      (· + 1) = tally bounds samples := by
    apply Array.ext
    · simp
    · intro i _ hi
      rw [size_tally] at hi
      rw [Array.getElem_modify, if_neg (by omega)]
  simp only [MergedCounts.perform, BucketCounts.record, hcounts]

theorem follows_run {u : MergedCounts} {bounds : Array Float} {size : Nat}
    (hu : u.Follows bounds [] size) (commands : List BucketCommand) :
    (u.run commands).Follows bounds (samplesSinceReset commands) size := by
  induction commands using List.reverseRecOn with
  | nil => exact hu
  | append_singleton before c ih =>
      rw [run_append_singleton, samplesSinceReset_append_singleton]
      exact ih.perform c

/-- For every run of records, resets and merges over ascending bounds, a merge
adds to each total the number of samples since the last reset that are at most
its bound and above the bound before.  A sample above the last bound changes
nothing.  As long as they fit, running totals of the counts are the samples at
or below each bound; they never fall, and end at the number of all samples if
the last bound is infinity. -/
theorem merge_adds_samples_since_reset {bounds : Array Float}
    (hbounds : Ascending bounds) (hsome : 0 < bounds.size)
    (commands : List BucketCommand)
    (hsamples : ∀ sample, .record sample ∈ commands → sample.isNaN = false)
    (totals : Array UInt64) (htotals : totals.size = bounds.size) :
    ∃ fresh, ofBounds? bounds = some fresh ∧
      let samples := samplesSinceReset commands
      let before := (MergedCounts.mk fresh totals).run commands
      let after := before.perform .merge
      let shown := cumulativeCounts
        (before.counts.addTo (Array.replicate bounds.size 0)).toList
      after.totals.size = bounds.size ∧
      (∀ i < bounds.size, ∃ total, before.totals[i]? = some total ∧
        after.totals[i]? = some (total +
          UInt64.ofNat (samples.countP (inBucket bounds i)))) ∧
      (∀ last sample, bounds.back? = some last → sample.isNaN = false →
        last < sample → before.perform (.record sample) = before) ∧
      (∀ last, bounds.back? = some last →
        samples.countP (fun sample => decide (sample ≤ last)) <
          UInt64.size →
        shown.map UInt64.toNat = bounds.toList.map (fun bound =>
          samples.countP fun sample => decide (sample ≤ bound)) ∧
        shown.Pairwise (· ≤ ·) ∧
        (last = 1.0 / 0.0 →
          shown.getLast?.map UInt64.toNat = some samples.length)) := by
  have hfresh : ofBounds? bounds =
      some ⟨bounds, Array.replicate bounds.size 0⟩ :=
    if_neg (by simpa using Nat.ne_of_gt hsome)
  refine ⟨_, hfresh, ?_⟩
  intro samples before after shown
  have hnumbers : ∀ sample ∈ samples, sample.isNaN = false := fun sample hmem =>
    hsamples sample (mem_of_mem_samplesSinceReset hmem)
  have hbefore : before.Follows bounds samples bounds.size :=
    follows_run ⟨by rw [tally_nil], htotals⟩ commands
  have hshown : shown = cumulativeCounts (tally bounds samples).toList := by
    simp only [shown, hbefore.counts_eq, ← tally_nil, addTo_tally,
      List.nil_append]
  refine ⟨(hbefore.perform .merge).size_totals, ?_, ?_, ?_⟩
  · intro i hi
    have htotal : i < before.totals.size := hbefore.size_totals ▸ hi
    refine ⟨before.totals[i], Array.getElem?_eq_getElem htotal, ?_⟩
    have hcount := hbounds.getElem?_tally hnumbers hi
    simp only [after, perform, hbefore.counts_eq, addTo,
      Array.getElem?_mapIdx, Array.getElem?_eq_getElem htotal,
      Option.map_some, Array.getD_eq_getD_getElem?, hcount, Option.getD_some]
  · intro last sample hlast hsample habove
    exact hbefore.perform_of_size_le
      (hbounds.size_le_bucketOf hlast hsample habove)
  · intro last hlast hfit
    have hcounts := hbounds.map_cumulativeCounts hnumbers hlast hfit
    rw [← hshown] at hcounts
    refine ⟨hcounts, ?_, ?_⟩
    · have hpairwise : (shown.map UInt64.toNat).Pairwise (· ≤ ·) := by
        rw [hcounts, List.pairwise_map]
        exact hbounds.pairwise.imp fun hle => countP_le_mono hle samples
      rw [List.pairwise_map] at hpairwise
      exact hpairwise.imp UInt64.le_iff_toNat_le.mpr
    · rintro rfl
      rw [← List.getLast?_map, hcounts, List.getLast?_map,
        Array.getLast?_toList, hlast, Option.map_some,
        countP_le_infinity hnumbers]

/-- Samples on a bound, between bounds and above all finite ones, after a
reset. -/
theorem merge_adds_samples_since_reset_of_latencies :
    let bounds : Array Float := #[10.0, 25.0, 1.0 / 0.0]
    let commands : List BucketCommand :=
      [.record 3.0, .merge, .reset, .record 10.0, .record 12.0,
        .record 202.0]
    ∃ fresh, ofBounds? bounds = some fresh ∧
      let before := (MergedCounts.mk fresh #[0, 0, 0]).run commands
      (before.perform .merge).totals[1]? =
        before.totals[1]?.map (· + 1) ∧
      (cumulativeCounts (before.counts.addTo
        (Array.replicate bounds.size 0)).toList).map UInt64.toNat =
          [1, 2, 3] := by
  intro bounds commands
  have hbounds : Ascending bounds :=
    ⟨by decide +kernel, by decide +kernel⟩
  have hsamples : ∀ sample, .record sample ∈ commands →
      sample.isNaN = false := by
    intro sample hmem
    simp only [commands, List.mem_cons, List.not_mem_nil, or_false,
      BucketCommand.record.injEq, reduceCtorEq, false_or] at hmem
    rcases hmem with rfl | rfl | rfl | rfl <;> decide +kernel
  have hcell : (samplesSinceReset commands).countP (inBucket bounds 1) = 1 := by
    decide +kernel
  have hrunning : (bounds.toList.map fun bound =>
      (samplesSinceReset commands).countP fun sample =>
        decide (sample ≤ bound)) = [1, 2, 3] := by
    decide +kernel
  have hfit : ((samplesSinceReset commands).countP fun sample =>
      decide (sample ≤ 1.0 / 0.0)) < UInt64.size := by
    decide +kernel
  obtain ⟨fresh, hfresh, -, hcells, -, hshown⟩ :=
    merge_adds_samples_since_reset hbounds (by decide) commands hsamples
      #[0, 0, 0] rfl
  refine ⟨fresh, hfresh, ?_, ?_⟩
  · obtain ⟨total, hbefore, hafter⟩ := hcells 1 (by decide)
    rw [hbefore, hafter, hcell]
    rfl
  · rw [(hshown (1.0 / 0.0) rfl hfit).1, hrunning]

end MergedCounts

end WindowedMetrics
