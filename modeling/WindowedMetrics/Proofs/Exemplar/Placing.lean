/-
What cells hold.  By bucket, each cell holds the latest measurement of its
bucket.  By chance, the cells fill up in order and after that every draw
replaces one measurement or none, so no measurement is ever held twice.
-/
import WindowedMetrics.Exemplar.Reservoir
import WindowedMetrics.Proofs.Histogram.Buckets
import Mathlib.Data.List.Basic
import Mathlib.Data.List.Induction

namespace WindowedMetrics

/-- A measurement that asks for a cell, with the chance that it is taken
at. -/
structure Candidate where
  exemplar : Exemplar
  draw : Nat → Nat

namespace Reservoir

/-- The cells after several measurements, each put into its cell. -/
def placeAll (selector : CellChoice) (count : Nat)
    (candidates : List Candidate) : Cells :=
  candidates.foldl (fun cells c => place selector c.draw cells c.exemplar)
    (Cells.empty count)

theorem placeAll_append_singleton (selector : CellChoice) (count : Nat)
    (candidates : List Candidate) (c : Candidate) :
    placeAll selector count (candidates ++ [c]) =
      place selector c.draw (placeAll selector count candidates)
        c.exemplar := by
  simp [placeAll]

@[simp] theorem length_held_placeAll (selector : CellChoice) (count : Nat)
    (candidates : List Candidate) :
    (placeAll selector count candidates).held.length = count := by
  induction candidates using List.reverseRecOn with
  | nil => simp [placeAll, Cells.empty]
  | append_singleton before c ih =>
      rw [placeAll_append_singleton]
      cases selector <;> simpa [place] using ih

/-! ### By bucket -/

theorem place_buckets (bounds : Array Float) (draw : Nat → Nat)
    (cells : Cells) (e : Exemplar) :
    place (.buckets bounds) draw cells e =
      { cells with
        held := cells.held.set
          (min (BucketCounts.bucketOf bounds e.value)
            (cells.held.length - 1)) (some e) } :=
  rfl

theorem getLast?_filter_append_singleton {α : Type} (test : α → Bool)
    (before : List α) (x : α) :
    ((before ++ [x]).filter test).getLast? =
      if test x then some x else (before.filter test).getLast? := by
  cases htest : test x <;> simp [List.filter_append, htest]

/-- The cell of a bucket holds the latest measurement that belongs to it. -/
theorem held_placeAll_buckets (bounds : Array Float) (count : Nat)
    (candidates : List Candidate) :
    (placeAll (.buckets bounds) count candidates).held =
      (List.range count).map fun cell =>
        ((candidates.map Candidate.exemplar).filter fun e => decide
          (min (BucketCounts.bucketOf bounds e.value) (count - 1) =
            cell)).getLast? := by
  induction candidates using List.reverseRecOn with
  | nil => simp [placeAll, Cells.empty, List.map_const']
  | append_singleton before c ih =>
      rw [placeAll_append_singleton, place_buckets, length_held_placeAll, ih,
        List.map_append, List.map_singleton]
      apply List.ext_getElem
      · simp
      · intro cell hcell hrange
        rw [List.getElem_set, List.getElem_map, List.getElem_map,
          List.getElem_range, getLast?_filter_append_singleton]
        simp only [decide_eq_true_eq]

/-! ### By chance -/

/-- Every measurement is counted, whether it is kept or not. -/
theorem seen_placeAll_random (count : Nat) (candidates : List Candidate) :
    (placeAll .random count candidates).seen = candidates.length := by
  induction candidates using List.reverseRecOn with
  | nil => rfl
  | append_singleton before c ih =>
      rw [placeAll_append_singleton]
      simp [place, ih]

/-- One element exchanged for a new one, or none if the position is not
there, leaves different ones of the old and the new elements. -/
theorem set_subperm_append {α : Type} {kept all : List α}
    (hkept : kept.Subperm all) (i : Nat) (new : α) :
    (kept.set i new).Subperm (all ++ [new]) := by
  by_cases hi : i < kept.length
  · have hexchange := List.set_perm_cons_eraseIdx hi new
    have hrest : (kept.eraseIdx i).Subperm all :=
      (List.eraseIdx_sublist kept i).subperm.trans hkept
    have hnew : (new :: kept.eraseIdx i).Subperm (new :: all) :=
      List.subperm_cons new |>.mpr hrest
    exact hexchange.subperm.trans
      (hnew.trans (List.perm_append_singleton new all).symm.subperm)
  · rw [List.set_eq_of_length_le (by omega)]
    exact hkept.trans (List.sublist_append_left all [new]).subperm

/-- Whatever is drawn, the first cells hold different measurements, as many
of them as fit, and the other cells nothing; until the cells are full, the
measurements are held in their order. -/
theorem held_placeAll_random (count : Nat) (candidates : List Candidate) :
    ∃ kept : List Exemplar,
      (placeAll .random count candidates).held =
        kept.map some ++ List.replicate (count - kept.length) none ∧
      kept.length = min candidates.length count ∧
      kept.Subperm (candidates.map Candidate.exemplar) ∧
      (candidates.length ≤ count →
        kept = candidates.map Candidate.exemplar) := by
  induction candidates using List.reverseRecOn with
  | nil => exact ⟨[], by simp [placeAll, Cells.empty]⟩
  | append_singleton before c ih =>
      obtain ⟨kept, hheld, hlength, hsub, hall⟩ := ih
      have hplace := placeAll_append_singleton .random count before c
      simp only [place, seen_placeAll_random, length_held_placeAll] at hplace
      rw [hplace]
      by_cases hfree : before.length < count
      · have hcell : kept.length = before.length := by omega
        have hroom : count - kept.length =
            count - (kept.length + 1) + 1 := by omega
        have hset : (placeAll .random count before).held.set before.length
            (some c.exemplar) = (kept ++ [c.exemplar]).map some ++
              List.replicate (count - (kept.length + 1)) none := by
          rw [hheld, List.set_append_right _ _ (by simp [hcell]),
            List.length_map, hcell, Nat.sub_self, ← hcell, hroom,
            List.replicate_succ, List.set_cons_zero]
          simp
        refine ⟨kept ++ [c.exemplar], ?_, ?_, ?_, ?_⟩
        · simp [hfree, hset]
        · simp only [List.length_append, List.length_singleton]
          omega
        · rw [List.map_append]
          exact (List.subperm_append_right [c.exemplar]).mpr hsub
        · intro _
          rw [hall (by omega), List.map_append]
          rfl
      · have hfull : kept.length = count := by omega
        rw [hfull, Nat.sub_self, List.replicate_zero,
          List.append_nil] at hheld
        refine ⟨kept.set (c.draw (before.length + 1)) c.exemplar, ?_, ?_, ?_,
          ?_⟩
        · simp [hfree, hheld, hfull, List.map_set]
        · simp only [List.length_set, List.length_append]
          omega
        · rw [List.map_append]
          exact set_subperm_append hsub _ _
        · intro hfits
          simp only [List.length_append, List.length_singleton] at hfits
          omega

/-! ### What is read -/

/-- By chance, what is read are different ones of the measurements, as many
as fit, and all of them in their order if they fit. -/
theorem contents_placeAll_random (count : Nat)
    (candidates : List Candidate) :
    let kept := (placeAll .random count candidates).contents
    let all := candidates.map Candidate.exemplar
    kept.Subperm all ∧ kept.length = min all.length count ∧
      (all.length ≤ count → kept = all) := by
  intro kept all
  obtain ⟨held, hheld, hlength, hsub, hall⟩ :=
    held_placeAll_random count candidates
  have hkept : kept = held := by
    simp [kept, Cells.contents, hheld]
  rw [hkept]
  simp only [all, List.length_map]
  exact ⟨hsub, hlength, hall⟩

/-- In ascending bounds that end with infinity, what is read are the latest
measurements of the buckets, in the order of the buckets. -/
theorem contents_placeAll_buckets {bounds : Array Float}
    (hascending : bounds.toList.Pairwise (· ≤ ·))
    (hbounds : bounds.back? = some (1.0 / 0.0))
    (candidates : List Candidate) :
    (placeAll (.buckets bounds) bounds.size candidates).contents =
      (List.range bounds.size).filterMap fun bucket =>
        ((candidates.map Candidate.exemplar).filter fun e => decide
          (firstNotBelow bounds e.value = bucket)).getLast? := by
  rw [Cells.contents, held_placeAll_buckets, List.filterMap_map]
  apply List.filterMap_congr
  intro bucket _
  have hcell : ∀ value, min (BucketCounts.bucketOf bounds value)
      (bounds.size - 1) = firstNotBelow bounds value := by
    intro value
    have hlt := BucketCounts.bucketOf_lt hbounds value
    rw [← BucketCounts.bucketOf_eq_firstNotBelow hascending value]
    omega
  simp only [Function.comp, id, hcell]

end Reservoir

end WindowedMetrics
