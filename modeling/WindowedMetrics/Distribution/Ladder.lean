/-
The default ladder of bucket bounds, and binary search for the border inside
an ordered array.
-/
import WindowedMetrics.Number.Dyadic

namespace WindowedMetrics

/-- Narrows the block of `size` elements from `base` on, by halves, to a
single element: the right half is kept when its first element satisfies
`test`.  Returns the position of that element. -/
def bisect {α : Type} (xs : Array α) (test : α → Bool) (base size : Nat) :
    Nat :=
  if size ≤ 1 then base
  else
    let half := size / 2
    let middle := base + half
    let keep := (xs[middle]?.map test).getD false
    bisect xs test (if keep then middle else base) (size - half)
termination_by size
decreasing_by omega

/-- The number of leading elements that satisfy `test`, found by bisection;
exact when the elements that satisfy it form a front part. -/
def frontLength {α : Type} (xs : Array α) (test : α → Bool) : Nat :=
  if xs.size = 0 then 0
  else
    let base := bisect xs test 0 xs.size
    if (xs[base]?.map test).getD false then base + 1 else base

/-- The rungs that follow a power of four: from `4^k` on in steps of a third
of it, up to its fourfold less one step. -/
def ladderRungs (start : Nat) : List Nat :=
  let delta := start / 3
  let next := 4 * start - delta
  (List.range ((next - start + delta - 1) / delta)).map fun i =>
    start + i * delta

/-- The whole ladder: one, two, three, the rungs after every power of four
from 4 to `2^60`, and the largest signed 64-bit number. -/
def ladder : Array Float :=
  let rungs := (List.range 30).flatMap fun k => ladderRungs (Nat.pow 4 (k + 1))
  (([1, 2, 3] ++ rungs ++ [(1 <<< 63) - 1]).map countToFloat).toArray

/-- A rung is one of the first three numbers, or some steps of a third away
from a power of four and at least one more below the next power, or the
largest signed 64-bit number. -/
inductive IsRung : Nat → Prop
  | first {n : Nat} : 1 ≤ n → n ≤ 3 → IsRung n
  | third {k start i : Nat} : 1 ≤ k → k ≤ 30 → start = Nat.pow 4 k →
      start + i * (start / 3) + start / 3 < 4 * start →
      IsRung (start + i * (start / 3))
  | last : IsRung ((1 <<< 63) - 1)

theorem mem_ladderRungs_iff {start : Nat} (hstart : 3 ≤ start) {n : Nat} :
    n ∈ ladderRungs start ↔
      ∃ i, n = start + i * (start / 3) ∧ n + start / 3 < 4 * start := by
  have hdelta : 0 < start / 3 := Nat.div_pos hstart (by decide)
  have hstep : ∀ i, i < (4 * start - start / 3 - start + start / 3 - 1) /
      (start / 3) ↔ start + i * (start / 3) + start / 3 < 4 * start := by
    intro i
    rw [Nat.lt_iff_add_one_le, Nat.le_div_iff_mul_le hdelta, Nat.add_mul]
    omega
  simp only [ladderRungs, List.mem_map, List.mem_range, hstep]
  constructor
  · rintro ⟨i, hbelow, rfl⟩
    exact ⟨i, rfl, hbelow⟩
  · rintro ⟨i, rfl, hbelow⟩
    exact ⟨i, hbelow, rfl⟩

/-- The ladder has exactly the rungs. -/
theorem mem_ladder_iff {x : Float} :
    x ∈ ladder.toList ↔ ∃ n, IsRung n ∧ countToFloat n = x := by
  have hthree : ∀ k, 3 ≤ Nat.pow 4 (k + 1) := fun k =>
    Nat.le_trans (by decide : 3 ≤ Nat.pow 4 1)
      (Nat.pow_le_pow_right (by decide) (Nat.le_add_left 1 k))
  have hfirst : ∀ n, n ∈ [1, 2, 3] ↔ 1 ≤ n ∧ n ≤ 3 := by
    intro n
    simp only [List.mem_cons, List.not_mem_nil, or_false]
    omega
  simp only [ladder, List.mem_map, List.mem_append, hfirst,
    List.mem_flatMap, List.mem_range, List.mem_singleton]
  constructor
  · rintro ⟨n, (⟨hlow, hhigh⟩ | ⟨k, hk, hrung⟩) | rfl, rfl⟩
    · exact ⟨n, .first hlow hhigh, rfl⟩
    · obtain ⟨i, rfl, hbelow⟩ := (mem_ladderRungs_iff (hthree k)).mp hrung
      exact ⟨_, .third (by omega) (by omega) rfl hbelow, rfl⟩
    · exact ⟨_, .last, rfl⟩
  · rintro ⟨n, hrung, rfl⟩
    refine ⟨n, ?_, rfl⟩
    cases hrung with
    | first hlow hhigh => exact .inl (.inl ⟨hlow, hhigh⟩)
    | @third k _ i hlow hhigh hstart hbelow =>
        obtain ⟨k, rfl⟩ : ∃ before, k = before + 1 := ⟨k - 1, by omega⟩
        subst hstart
        exact .inl (.inr ⟨k, by omega,
          (mem_ladderRungs_iff (hthree k)).mpr ⟨i, rfl, hbelow⟩⟩)
    | last => exact .inr rfl

theorem size_ladder : ladder.size = 276 := by decide +kernel

/-- The rungs of the ladder from `min` to `max`. -/
def ladderBetween (min max : Float) : List Float :=
  let start := frontLength ladder (· < min)
  let stop := frontLength ladder (· ≤ max)
  (ladder.extract start stop).toList

end WindowedMetrics
