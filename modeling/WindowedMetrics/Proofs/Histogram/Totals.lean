/-
Bucket counts add up.  Bounds that end with infinity leave no sample above
them, so every sample is counted in exactly one bucket and the counts sum to
the number of samples.
-/
import WindowedMetrics.Proofs.Histogram.Contents

namespace WindowedMetrics

/-- Nothing is above infinity, NaN included. -/
theorem not_infinity_lt (sample : Float) : ¬ (1.0 / 0.0 : Float) < sample := by
  intro hlt
  have hmodel : Float.Model.UnpackedFloat.lt (1.0 / 0.0 : Float).toModel.unpack
      sample.toModel.unpack = true := by
    have hbool : (1.0 / 0.0 : Float).lt sample = true := hlt
    exact of_decide_eq_true hbool
  have hinfinity : (1.0 / 0.0 : Float).toModel.unpack =
      .infinity .positive := rfl
  have hnever : ∀ value : Float.Model.UnpackedFloat,
      Float.Model.UnpackedFloat.lt (.infinity .positive) value = false := by
    intro value
    cases value with
    | infinity sign => cases sign <;> rfl
    | _ => rfl
  rw [hinfinity, hnever] at hmodel
  cases hmodel

theorem bisect_lt {α : Type} (xs : Array α) (test : α → Bool)
    (base size : Nat) (hsize : 0 < size) :
    bisect xs test base size < base + size := by
  fun_induction bisect xs test base size with
  | case1 base size hsmall => omega
  | case2 base size hlarge half middle keep ih =>
      have hkept : (if keep = true then middle else base) ≤ base + half := by
        split <;> omega
      have hrest := ih (by omega)
      simp only [dite_eq_ite] at hrest
      exact Nat.lt_of_lt_of_le hrest (by omega)

/-- A front part that the last element is not in leaves it out. -/
theorem frontLength_lt {α : Type} {xs : Array α} {test : α → Bool} {last : α}
    (hlast : xs.back? = some last) (htest : test last = false) :
    frontLength xs test < xs.size := by
  obtain ⟨hsize, hback⟩ : ∃ hlt : xs.size - 1 < xs.size,
      xs[xs.size - 1] = last := by
    rw [Array.back?] at hlast
    exact Array.getElem?_eq_some_iff.mp hlast
  have hbase := bisect_lt xs test 0 xs.size (by omega)
  unfold frontLength
  rw [if_neg (by omega)]
  simp only
  by_cases hend : bisect xs test 0 xs.size = xs.size - 1
  · have hfound : xs[bisect xs test 0 xs.size]? = some last := by
      rw [hend, Array.getElem?_eq_getElem hsize, hback]
    simp only [hfound, Option.map_some, Option.getD_some, htest,
      Bool.false_eq_true, ↓reduceIte]
    omega
  · split <;> omega

namespace BucketCounts

/-- With infinity as the last bound, every sample has a bucket. -/
theorem bucketOf_lt {bounds : Array Float}
    (hbounds : bounds.back? = some (1.0 / 0.0)) (sample : Float) :
    bucketOf bounds sample < bounds.size :=
  frontLength_lt hbounds (decide_eq_false (not_infinity_lt sample))

/-- The sum of counts, modulo `2^64`. -/
def sum (counts : List UInt64) : UInt64 :=
  counts.foldl (· + ·) 0

theorem foldl_add_modify (counts : List UInt64) (held : UInt64) {i : Nat}
    (hi : i < counts.length) :
    (counts.modify i (· + 1)).foldl (· + ·) held =
      counts.foldl (· + ·) held + 1 := by
  have hone : ∀ (rest : List UInt64) (total : UInt64),
      rest.foldl (· + ·) (total + 1) = rest.foldl (· + ·) total + 1 := by
    intro rest
    induction rest with
    | nil => intro total; rfl
    | cons count rest ih =>
        intro total
        rw [List.foldl_cons, List.foldl_cons, ← ih]
        congr 1
        ac_rfl
  induction counts generalizing held i with
  | nil => simp at hi
  | cons count rest ih =>
      cases i with
      | zero =>
          rw [List.modify_zero_cons, List.foldl_cons, List.foldl_cons, ← hone]
          congr 1
          ac_rfl
      | succ i =>
          rw [List.modify_succ_cons, List.foldl_cons, List.foldl_cons]
          exact ih (held + count) (by simpa using hi)

/-- All samples are counted, each once. -/
theorem sum_tally {bounds : Array Float}
    (hbounds : bounds.back? = some (1.0 / 0.0)) (samples : List Float) :
    sum (tally bounds samples).toList = UInt64.ofNat samples.length := by
  induction samples using List.reverseRecOn with
  | nil =>
      rw [tally_nil, sum, Array.toList_replicate]
      induction bounds.size with
      | zero => rfl
      | succ size ih => exact ih
  | append_singleton before sample ih =>
      have hbucket : bucketOf bounds sample <
          (tally bounds before).toList.length := by
        simpa using bucketOf_lt hbounds sample
      rw [tally_append_singleton, Array.toList_modify, sum,
        foldl_add_modify _ 0 hbucket, List.length_append,
        List.length_singleton, UInt64.ofNat_add]
      exact congrArg (· + 1) ih

end BucketCounts

/-- The published bounds end with infinity, if there are any. -/
theorem DistributionSettings.upperBounds_back? (c : DistributionSettings)
    (hbounds : c.upperBounds.toArray.isEmpty = false) :
    c.upperBounds.toArray.back? = some (1.0 / 0.0) := by
  unfold upperBounds at hbounds ⊢
  split
  · simp
  · rename_i hnone
    rw [if_neg hnone] at hbounds
    cases hbounds

end WindowedMetrics
