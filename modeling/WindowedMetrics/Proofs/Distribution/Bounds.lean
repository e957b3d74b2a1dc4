/-
The bounds of published buckets.  Rungs of the ladder and objectives are put
in their total order, repeats are dropped, and infinity goes to the end, so
the bounds ascend strictly whatever was configured.
-/
import WindowedMetrics.Proofs.Histogram.Merging
import Mathlib.Data.List.Destutter

namespace WindowedMetrics

/-! ### Dropping repeats -/

theorem eraseRepsBy_loop {α : Type} (r : α → α → Bool) (a : α)
    (xs kept : List α) :
    List.eraseRepsBy.loop r a xs kept =
      kept.reverse ++ xs.destutter' (fun x y => r x y = false) a := by
  induction xs generalizing a kept with
  | nil => simp [List.eraseRepsBy.loop]
  | cons x rest ih =>
      cases hrepeat : r a x <;>
        simp [List.eraseRepsBy.loop, List.destutter', hrepeat, ih]

/-- Floats without the repeats among them, the first of each run kept. -/
theorem eraseReps_eq_destutter (xs : List Float) :
    xs.eraseReps = xs.destutter fun x y => (x == y) = false := by
  cases xs with
  | nil => rfl
  | cons x rest => exact eraseRepsBy_loop (· == ·) x rest []

theorem float_isChain_iff_pairwise {xs : List Float} :
    xs.IsChain (· < ·) ↔ xs.Pairwise (· < ·) := by
  have htrans : IsTrans Float (· < ·) := ⟨fun _ _ _ => float_lt_trans⟩
  exact List.isChain_iff_pairwise

/-- What is left of floats in order is in strict order. -/
theorem pairwise_eraseReps {xs : List Float} (h : xs.Pairwise (· ≤ ·)) :
    xs.eraseReps.Pairwise (· < ·) := by
  rw [eraseReps_eq_destutter]
  have hle : (xs.destutter fun x y => (x == y) = false).Pairwise (· ≤ ·) :=
    h.sublist (List.destutter_sublist _ _)
  have hne := List.isChain_destutter (fun x y : Float => (x == y) = false) xs
  generalize (xs.destutter fun x y => (x == y) = false) = kept at hle hne
  rw [← float_isChain_iff_pairwise, List.isChain_iff_getElem]
  intro i hi
  exact float_lt_of_le_of_bne
    (List.pairwise_iff_getElem.mp hle i (i + 1) (by omega) hi (by omega))
    (List.isChain_iff_getElem.mp hne i hi)

theorem exists_beq_of_mem_destutter' {x a : Float} {xs : List Float}
    (hself : ∀ y ∈ a :: xs, (y == y) = true) (hx : x ∈ a :: xs) :
    ∃ y ∈ xs.destutter' (fun x y => (x == y) = false) a,
      (y == x) = true := by
  induction xs generalizing a with
  | nil =>
      obtain rfl := List.mem_singleton.mp hx
      exact ⟨x, List.mem_singleton_self x, hself x List.mem_cons_self⟩
  | cons b rest ih =>
      rw [List.forall_mem_cons, List.forall_mem_cons] at hself
      obtain ⟨ha, hb, hrest⟩ := hself
      rw [List.mem_cons, List.mem_cons] at hx
      cases hrepeat : a == b with
      | true =>
          rw [List.destutter'_cons, if_neg (by simp [hrepeat])]
          have hkept := ih (List.forall_mem_cons.mpr ⟨ha, hrest⟩)
          rcases hx with rfl | rfl | hmem
          · exact hkept List.mem_cons_self
          · exact ⟨a, List.mem_destutter' _ _ _, hrepeat⟩
          · exact hkept (List.mem_cons_of_mem _ hmem)
      | false =>
          rw [List.destutter'_cons, if_pos hrepeat]
          rcases hx with rfl | hmem
          · exact ⟨x, List.mem_cons_self, ha⟩
          · obtain ⟨y, hy, hequal⟩ :=
              ih (List.forall_mem_cons.mpr ⟨hb, hrest⟩) (List.mem_cons.mpr hmem)
            exact ⟨y, List.mem_cons_of_mem _ hy, hequal⟩

/-- A repeat that was dropped equals one that was kept. -/
theorem exists_beq_of_mem {xs : List Float}
    (hself : ∀ y ∈ xs, (y == y) = true) {x : Float} (hx : x ∈ xs) :
    ∃ y ∈ xs.eraseReps, (y == x) = true := by
  rw [eraseReps_eq_destutter]
  cases xs with
  | nil => cases hx
  | cons a rest => exact exists_beq_of_mem_destutter' hself hx

/-! ### The ladder -/

/-- The rungs ascend strictly, all of them finite. -/
theorem ladder_ascends : ladder.toList.Pairwise (· < ·) := by
  rw [← float_isChain_iff_pairwise]
  decide +kernel

theorem ladder_isFinite : ∀ rung ∈ ladder.toList, rung.isFinite = true := by
  decide +kernel

theorem not_isNaN_of_isFinite {x : Float} (hx : x.isFinite = true) :
    x.isNaN = false := by
  obtain ⟨r, hr⟩ := exists_rank (proper_of_isFinite hx)
  exact isNaN_eq_false_iff.mpr ⟨r, hr⟩

theorem ascending_ladder : BucketCounts.Ascending ladder where
  pairwise := ladder_ascends.imp float_le_of_lt
  numbers := fun rung hrung =>
    not_isNaN_of_isFinite (ladder_isFinite rung (Array.mem_toList_iff.mpr hrung))

/-- The rungs of a range are those that are not outside of it. -/
theorem mem_ladderBetween {min max : Float} (hmin : min.isNaN = false)
    {b : Float} :
    b ∈ ladderBetween min max ↔ b ∈ ladder.toList ∧ min ≤ b ∧ b ≤ max := by
  have hstart : ∀ {i : Nat} (hi : i < ladder.size),
      min ≤ ladder[i] ↔ frontLength ladder (· < min) ≤ i :=
    fun hi => ascending_ladder.le_getElem_iff hmin hi
  have hstop : ∀ {i : Nat} (hi : i < ladder.size),
      i < frontLength ladder (· ≤ max) ↔ ladder[i] ≤ max := by
    intro i hi
    have hfront := pairwise_notAbove ascending_ladder.pairwise max
    rw [lt_frontLength_iff hfront hi, decide_eq_true_eq]
  rw [ladderBetween, Array.mem_toList_iff, Array.mem_extract_iff_getElem,
    Array.mem_toList_iff, Array.mem_iff_getElem]
  constructor
  · rintro ⟨k, hk, rfl⟩
    exact ⟨⟨_, by omega, rfl⟩, (hstart _).mpr (Nat.le_add_right _ _),
      (hstop _).mp (by omega)⟩
  · rintro ⟨⟨i, hi, rfl⟩, hlow, hhigh⟩
    have hfirst := (hstart hi).mp hlow
    have hlast := (hstop hi).mpr hhigh
    have hposition : frontLength ladder (· < min) +
        (i - frontLength ladder (· < min)) = i := by omega
    refine ⟨i - frontLength ladder (· < min), by omega, ?_⟩
    simp only [hposition]

theorem mem_ladder_of_mem {min max b : Float}
    (hb : b ∈ ladderBetween min max) : b ∈ ladder.toList := by
  rw [ladderBetween, Array.mem_toList_iff,
    Array.mem_extract_iff_getElem] at hb
  obtain ⟨k, _, rfl⟩ := hb
  exact Array.mem_toList_iff.mpr (Array.getElem_mem _)

/-! ### Published bounds -/

theorem beq_self_of_not_isNaN {x : Float} (hx : x.isNaN = false) :
    (x == x) = true := by
  obtain ⟨r, hr⟩ := isNaN_eq_false_iff.mp hx
  exact (beq_iff_rank _ _).mpr ⟨r, hr, hr⟩

theorem float_lt_infinity {x : Float} (hx : x.isFinite = true) :
    x < 1.0 / 0.0 := by
  have hproper := proper_of_isFinite hx
  have hinfinity : rank? (1.0 / 0.0 : Float).toModel.unpack =
      some (2, 0, 0) := rfl
  rw [float_lt_iff, lt_iff_rank, hinfinity]
  generalize x.toModel.unpack = u at hproper
  rcases u with _ | _ | s | ⟨_ | _, m, e, hpos⟩
  · cases hproper
  · cases hproper
  all_goals
    refine ⟨_, _, rfl, rfl, Or.inl ?_⟩
    dsimp only
    omega

namespace DistributionSettings

/-- Whether the settings ask for a bound: a finite objective, or a rung of the
ladder in the expected range if the ladder is published. -/
def AsksFor (c : DistributionSettings) (bound : Float) : Prop :=
  bound ∈ c.objectiveList ∧ bound.isFinite = true ∨
    c.usesLadder = true ∧ bound ∈ WindowedMetrics.ladder.toList ∧
      c.minimum ≤ bound ∧ bound ≤ c.maximum

/-- The rungs and objectives that bounds are made of. -/
def finiteBounds (c : DistributionSettings) : List Float :=
  (if c.usesLadder then ladderBetween c.minimum c.maximum else []) ++
    c.objectiveList.filter Float.isFinite

theorem mem_finiteBounds {c : DistributionSettings}
    (hmin : c.minimum.isNaN = false) {bound : Float} :
    bound ∈ c.finiteBounds ↔ c.AsksFor bound := by
  unfold finiteBounds AsksFor
  rw [List.mem_append, List.mem_filter]
  cases c.usesLadder <;> simp [mem_ladderBetween hmin, or_comm]

theorem isFinite_finiteBounds (c : DistributionSettings) :
    ∀ bound ∈ c.finiteBounds, bound.isFinite = true := by
  intro bound hbound
  rcases List.mem_append.mp hbound with hrung | hobjective
  · cases hladder : c.usesLadder with
    | false => simp [hladder] at hrung
    | true =>
        rw [hladder, if_pos rfl] at hrung
        exact ladder_isFinite bound (mem_ladder_of_mem hrung)
  · exact (List.mem_filter.mp hobjective).2

theorem upperBounds_of_publishes {c : DistributionSettings}
    (hpublishes : c.publishesBuckets = true) :
    c.upperBounds =
      (c.finiteBounds.mergeSort totalLe).eraseReps ++ [1.0 / 0.0] := by
  rw [upperBounds, if_pos hpublishes]
  rfl

/-- Bounds that are configured in order are only rid of repeats. -/
theorem upperBounds_of_ordered {c : DistributionSettings}
    {finite : List Float} (hpublishes : c.publishesBuckets = true)
    (hfinite : c.finiteBounds = finite)
    (hordered : finite.Pairwise fun a b => totalLe a b = true) :
    c.upperBounds = finite.eraseReps ++ [1.0 / 0.0] := by
  rw [upperBounds_of_publishes hpublishes, hfinite,
    List.mergeSort_of_pairwise hordered]

/-- Bounds are rungs and objectives in order, each once, and infinity. -/
theorem upperBounds_eq (c : DistributionSettings)
    (hpublishes : c.publishesBuckets = true) :
    ∃ finite, c.upperBounds = finite ++ [1.0 / 0.0] ∧
      finite.Pairwise (· < ·) ∧ finite ⊆ c.finiteBounds ∧
      ∀ bound ∈ c.finiteBounds, ∃ kept ∈ finite, (kept == bound) = true := by
  have hsorted := pairwise_mergeSort_totalLe c.isFinite_finiteBounds
  have hkept : (c.finiteBounds.mergeSort totalLe).eraseReps ⊆
      c.finiteBounds := by
    intro bound hbound
    rw [eraseReps_eq_destutter] at hbound
    exact List.mem_mergeSort.mp
      ((List.destutter_sublist _ _).subset hbound)
  refine ⟨(c.finiteBounds.mergeSort totalLe).eraseReps,
    upperBounds_of_publishes hpublishes, pairwise_eraseReps hsorted, hkept,
    ?_⟩
  intro bound hbound
  apply exists_beq_of_mem
  · intro other hother
    exact beq_self_of_not_isNaN (not_isNaN_of_isFinite
      (c.isFinite_finiteBounds other (List.mem_mergeSort.mp hother)))
  · exact List.mem_mergeSort.mpr hbound

theorem upperBounds_of_not_publishes {c : DistributionSettings}
    (hpublishes : c.publishesBuckets = false) : c.upperBounds = [] := by
  rw [upperBounds, hpublishes]
  rfl

/-- The bounds ascend strictly. -/
theorem pairwise_upperBounds (c : DistributionSettings) :
    c.upperBounds.Pairwise (· < ·) := by
  cases hpublishes : c.publishesBuckets with
  | false =>
      rw [upperBounds_of_not_publishes hpublishes]
      exact List.Pairwise.nil
  | true =>
      obtain ⟨finite, hbounds, hascend, hasked, -⟩ :=
        c.upperBounds_eq hpublishes
      rw [hbounds, List.pairwise_append]
      refine ⟨hascend, List.pairwise_singleton _ _, ?_⟩
      intro bound hbound last hlast
      rw [List.mem_singleton.mp hlast]
      exact float_lt_infinity (c.isFinite_finiteBounds bound (hasked hbound))

theorem ascending_upperBounds (c : DistributionSettings) :
    BucketCounts.Ascending c.upperBounds.toArray where
  pairwise := c.pairwise_upperBounds.imp float_le_of_lt
  numbers := by
    intro bound hbound
    rw [List.mem_toArray] at hbound
    cases hpublishes : c.publishesBuckets with
    | false =>
        rw [upperBounds_of_not_publishes hpublishes] at hbound
        cases hbound
    | true =>
        obtain ⟨finite, hbounds, -, hasked, -⟩ := c.upperBounds_eq hpublishes
        rw [hbounds, List.mem_append, List.mem_singleton] at hbound
        rcases hbound with hkept | rfl
        · exact not_isNaN_of_isFinite
            (c.isFinite_finiteBounds bound (hasked hkept))
        · exact infinity_isNaN

end DistributionSettings

end WindowedMetrics
