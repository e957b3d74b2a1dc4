/-
The bucket of a value.  In bounds that ascend, the binary search ends at the
first bound that is not below the value.
-/
import WindowedMetrics.Proofs.Histogram.Totals
import WindowedMetrics.Proofs.Number.Order
import Mathlib.Data.List.Basic

namespace WindowedMetrics

/-! ### Searching a front part -/

section Searching

variable {α : Type} {xs : Array α} {test : α → Bool} {border : Nat}

/-- A block that reaches the border narrows down to the last element before
it, or to its first element if the border is not above that. -/
theorem bisect_eq_max
    (htest : ∀ i (hi : i < xs.size), test xs[i] = decide (i < border))
    {base size : Nat} (hsize : 0 < size) (hend : base + size ≤ xs.size)
    (hborder : border ≤ base + size) :
    bisect xs test base size = max base (border - 1) := by
  fun_induction bisect xs test base size with
  | case1 base size hsmall => omega
  | case2 base size hlarge half middle keep ih =>
      have hmiddle : middle < xs.size := by omega
      have hkeep : keep = decide (middle < border) := by
        simp only [keep, Array.getElem?_eq_getElem hmiddle, Option.map_some,
          Option.getD_some]
        exact htest middle hmiddle
      rw [hkeep] at ih ⊢
      simp only [dite_eq_ite] at ih
      by_cases hbelow : middle < border
      · simp only [hbelow, decide_true, ↓reduceIte] at ih ⊢
        rw [ih (by omega) (by omega) (by omega)]
        omega
      · simp only [hbelow, decide_false, Bool.false_eq_true,
          ↓reduceIte] at ih ⊢
        rw [ih (by omega) (by omega) (by omega)]

/-- The number of leading elements that satisfy a test, if no other element
satisfies it. -/
theorem frontLength_eq
    (htest : ∀ i (hi : i < xs.size), test xs[i] = decide (i < border))
    (hborder : border ≤ xs.size) : frontLength xs test = border := by
  unfold frontLength
  by_cases hempty : xs.size = 0
  · rw [if_pos hempty]
    omega
  · rw [if_neg hempty, bisect_eq_max htest (by omega) (by omega) (by omega)]
    have hlast : max 0 (border - 1) < xs.size := by omega
    simp only [Array.getElem?_eq_getElem hlast, Option.map_some,
      Option.getD_some, htest _ hlast, decide_eq_true_eq]
    split <;> omega

/-! Elements that satisfy a test come first: what precedes one of them
satisfies the test too. -/

variable {list : List α}

theorem lt_countP_iff
    (hfront : list.Pairwise fun x y => test y = true → test x = true)
    {i : Nat} (hi : i < list.length) :
    i < list.countP test ↔ test list[i] = true := by
  induction list generalizing i with
  | nil => cases hi
  | cons x rest ih =>
      rw [List.pairwise_cons] at hfront
      obtain ⟨hfirst, hrest⟩ := hfront
      cases htest : test x with
      | true =>
          rw [List.countP_cons_of_pos htest]
          cases i with
          | zero => exact iff_of_true (Nat.succ_pos _) htest
          | succ i =>
              rw [Nat.succ_lt_succ_iff]
              exact ih hrest (Nat.lt_of_succ_lt_succ hi)
      | false =>
          have hfails : ∀ y ∈ x :: rest, test y ≠ true := by
            intro y hy hsatisfied
            rcases List.mem_cons.mp hy with rfl | hmem
            · rw [htest] at hsatisfied
              cases hsatisfied
            · rw [hfirst y hmem hsatisfied] at htest
              cases htest
          rw [List.countP_eq_zero.mpr hfails]
          exact iff_of_false (Nat.not_lt_zero i)
            (hfails _ (List.getElem_mem hi))

theorem findIdx_not_eq_countP
    (hfront : list.Pairwise fun x y => test y = true → test x = true) :
    (list.findIdx fun x => !test x) = list.countP test := by
  apply Nat.le_antisymm
  · by_contra hlate
    rw [Nat.not_le] at hlate
    have hi := Nat.lt_of_lt_of_le hlate List.findIdx_le_length
    have hkept := List.not_of_lt_findIdx hlate
    exact Nat.lt_irrefl _
      ((lt_countP_iff hfront hi).mpr (by simpa using hkept))
  · by_contra hearly
    rw [Nat.not_le] at hearly
    have hi := Nat.lt_of_lt_of_le hearly List.countP_le_length
    have hfirst := List.findIdx_getElem (w := hi)
    simp [(lt_countP_iff hfront hi).mp hearly] at hfirst

variable (hfront : xs.toList.Pairwise fun x y => test y = true → test x = true)
include hfront

/-- The leading elements that are counted are all that satisfy the test. -/
theorem frontLength_eq_countP :
    frontLength xs test = xs.toList.countP test := by
  apply frontLength_eq
  · intro i hi
    rw [Bool.eq_iff_iff, decide_eq_true_eq]
    exact (lt_countP_iff hfront (by simpa using hi)).symm
  · rw [← Array.length_toList]
    exact List.countP_le_length

theorem lt_frontLength_iff {i : Nat} (hi : i < xs.size) :
    i < frontLength xs test ↔ test xs[i] = true := by
  rw [frontLength_eq_countP hfront]
  exact lt_countP_iff hfront (by simpa using hi)

end Searching

/-! ### Ascending bounds -/

/-- The position of the first bound that is not below a value. -/
def firstNotBelow (bounds : Array Float) (value : Float) : Nat :=
  bounds.toList.findIdx fun bound => !decide (bound < value)

/-- In ascending bounds, those below a value come first. -/
theorem pairwise_below {bounds : List Float}
    (hascending : bounds.Pairwise (· ≤ ·)) (value : Float) :
    bounds.Pairwise fun x y =>
      decide (y < value) = true → decide (x < value) = true := by
  refine hascending.imp ?_
  intro x y hle hbelow
  rw [decide_eq_true_eq] at hbelow ⊢
  exact float_lt_of_le_of_lt hle hbelow

/-- In ascending bounds, a value belongs to the bucket of the first bound that
is not below it. -/
theorem BucketCounts.bucketOf_eq_firstNotBelow {bounds : Array Float}
    (hascending : bounds.toList.Pairwise (· ≤ ·)) (value : Float) :
    bucketOf bounds value = firstNotBelow bounds value := by
  have hfront := pairwise_below hascending value
  rw [bucketOf, frontLength_eq_countP hfront, firstNotBelow,
    findIdx_not_eq_countP hfront]

end WindowedMetrics
