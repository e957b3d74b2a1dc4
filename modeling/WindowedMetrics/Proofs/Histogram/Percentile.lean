/-
Percentiles.  Counters written out one by one, in ascending order, are the
counters of the sorted values, so the walk to a rank ends at the counter of the
value of that rank, however the values were spread over counts and replayed
into one histogram.
-/
import WindowedMetrics.Proofs.Histogram.Contents
import WindowedMetrics.Proofs.Histogram.Grid
import WindowedMetrics.Proofs.Number.Exact
import Mathlib.Data.List.Sort
import Mathlib.Data.Rat.Floor

namespace WindowedMetrics

namespace LogLinearTally

/-! ### Counters written out -/

/-- Every counter as often as it counts. -/
def expand (counters : List (Nat × Nat)) : List Nat :=
  counters.flatMap fun e => List.replicate e.2 e.1

theorem expand_cons (e : Nat × Nat) (counters : List (Nat × Nat)) :
    expand (e :: counters) = List.replicate e.2 e.1 ++ expand counters := by
  simp [expand]

theorem expand_perm {counters others : List (Nat × Nat)}
    (hperm : counters.Perm others) :
    (expand counters).Perm (expand others) :=
  hperm.flatMap_right _

/-- The walk to a target counts the counters off one by one. -/
theorem counterAt?_eq (counters : List (Nat × Nat)) {target running : Nat}
    (hlt : running < target) :
    counterAt? target running counters =
      (expand counters)[target - running - 1]? := by
  induction counters generalizing running with
  | nil => rfl
  | cons e rest ih =>
      obtain ⟨index, n⟩ := e
      rw [counterAt?, expand_cons]
      by_cases hreached : target ≤ running + n
      · rw [if_pos hreached, List.getElem?_append_left (by simp; omega)]
        simp [List.getElem?_replicate]
        omega
      · rw [if_neg hreached, ih (by omega),
          List.getElem?_append_right (by simp; omega), List.length_replicate]
        congr 1
        omega

theorem length_expand (counters : List (Nat × Nat)) :
    (expand counters).length =
      counters.foldl (fun total e => total + e.2) 0 := by
  have hsum : ∀ start : Nat, counters.foldl (fun total e => total + e.2) start =
      start + (expand counters).length := by
    induction counters with
    | nil => simp [expand]
    | cons e rest ih =>
        intro start
        rw [List.foldl_cons, ih, expand_cons, List.length_append,
          List.length_replicate, Nat.add_assoc]
  rw [hsum, Nat.zero_add]

/-- Counters in the order in which they are held. -/
def Descending (counters : List (Nat × Nat)) : Prop :=
  counters.Pairwise fun a b => b.1 < a.1

theorem mem_addAt {index amount : Nat} {counters : List (Nat × Nat)}
    {e : Nat × Nat} (hmem : e ∈ addAt index amount counters) :
    e.1 = index ∨ e ∈ counters := by
  induction counters with
  | nil => simp_all [addAt]
  | cons head rest ih =>
      rw [addAt] at hmem
      split at hmem
      · rcases List.mem_cons.mp hmem with rfl | hrest
        · exact Or.inl rfl
        · exact Or.inr hrest
      · split at hmem
        · rcases List.mem_cons.mp hmem with rfl | hrest
          · next heq => exact Or.inl heq.symm
          · exact Or.inr (List.mem_cons_of_mem _ hrest)
        · rcases List.mem_cons.mp hmem with rfl | hrest
          · exact Or.inr List.mem_cons_self
          · exact (ih hrest).imp_right (List.mem_cons_of_mem _)

theorem Descending.addAt {counters : List (Nat × Nat)}
    (h : Descending counters) (index amount : Nat) :
    Descending (addAt index amount counters) := by
  induction counters with
  | nil => simp [Descending, LogLinearTally.addAt]
  | cons head rest ih =>
      obtain ⟨hhead, hrest⟩ := List.pairwise_cons.mp h
      rw [LogLinearTally.addAt]
      split
      · next hlt =>
          refine List.pairwise_cons.mpr ⟨fun e he => ?_, h⟩
          rcases List.mem_cons.mp he with rfl | hlater
          · exact hlt
          · exact (hhead e hlater).trans hlt
      · split
        · exact List.pairwise_cons.mpr ⟨hhead, hrest⟩
        · refine List.pairwise_cons.mpr ⟨fun e he => ?_, ih hrest⟩
          rcases mem_addAt he with hindex | hlater
          · omega
          · exact hhead e hlater

/-- Written out in reverse, counters ascend. -/
theorem Descending.pairwise_expand {counters : List (Nat × Nat)}
    (h : Descending counters) :
    (expand counters.reverse).Pairwise (· ≤ ·) := by
  refine List.pairwise_flatMap.mpr ⟨fun e _ => ?_, ?_⟩
  · exact List.pairwise_replicate.mpr (Or.inr (Nat.le_refl _))
  · refine (List.pairwise_reverse.mpr h).imp ?_
    intro a b hlt i hi j hj
    rw [List.eq_of_mem_replicate hi, List.eq_of_mem_replicate hj]
    exact hlt.le

/-- Raising a counter adds it that many times. -/
theorem expand_addAt_perm (index amount : Nat) (counters : List (Nat × Nat)) :
    (expand (addAt index amount counters)).Perm
      (List.replicate amount index ++ expand counters) := by
  induction counters with
  | nil => simp [addAt, expand]
  | cons head rest ih =>
      rw [addAt]
      split
      · rw [expand_cons]
      · split
        · next heq =>
            subst heq
            rw [expand_cons, expand_cons, Nat.add_comm, List.replicate_add,
              List.append_assoc]
        · rw [expand_cons, expand_cons]
          refine (ih.append_left _).trans ?_
          rw [← List.append_assoc, ← List.append_assoc]
          exact List.perm_append_comm.append_right _

/-! ### Recorded values in order -/

section Recorded

variable (grid : LogLinearGrid) (values : List Nat)

theorem descending_ofUnits : Descending (ofUnits grid values).counters := by
  induction values using List.reverseRecOn with
  | nil => exact List.Pairwise.nil
  | append_singleton before value ih =>
      rw [ofUnits_append]
      exact ih.addAt _ 1

theorem expand_ofUnits_perm :
    (expand (ofUnits grid values).counters).Perm
      (values.map grid.indexOf) := by
  induction values using List.reverseRecOn with
  | nil => rfl
  | append_singleton before value ih =>
      have hgrid : (ofUnits grid before).grid = grid :=
        grid_foldl_record _ _
      rw [ofUnits_append, List.map_append]
      refine (expand_addAt_perm _ 1 _).trans ?_
      rw [hgrid]
      exact (ih.append_left _).trans List.perm_append_comm

/-- In ascending order, the counters are those of the sorted values. -/
theorem expand_reverse_ofUnits :
    expand (ofUnits grid values).counters.reverse =
      values.mergeSort.map grid.indexOf := by
  have hcounters : (expand (ofUnits grid values).counters.reverse).Pairwise
      (· ≤ ·) := (descending_ofUnits grid values).pairwise_expand
  have hindexes : (values.mergeSort.map grid.indexOf).Pairwise (· ≤ ·) :=
    List.pairwise_map.mpr (values.sortedLE_mergeSort.pairwise.imp grid.indexOf_mono)
  refine List.Perm.eq_of_pairwise ?_ hcounters hindexes ?_
  · exact fun a b _ _ => Nat.le_antisymm
  · exact (expand_perm (List.reverse_perm _)).trans
      ((expand_ofUnits_perm grid values).trans
        ((List.mergeSort_perm values _).symm.map _))

theorem total_ofUnits : (ofUnits grid values).total = values.length := by
  rw [total, ← length_expand, (expand_ofUnits_perm grid values).length_eq,
    List.length_map]

end Recorded

/-! ### Replayed counts -/

/-- One value recorded several times. -/
def recordMany (c : LogLinearTally) (value amount : Nat) : LogLinearTally :=
  { c with counters := addAt (c.grid.indexOf value) amount c.counters }

/-- Counts replayed into others: the least value of every counter in use, as
often as it counts, from the first counter on. -/
def replay (c other : LogLinearTally) : LogLinearTally :=
  other.counters.foldr
    (fun e held => held.recordMany (other.grid.valueAt e.1) e.2) c

/-- A histogram into which several counts are replayed, one for each lot of
recorded values. -/
def replayed (grid : LogLinearGrid) (slots : List (List Nat)) :
    LogLinearTally :=
  slots.foldl (fun histogram values => histogram.replay (ofUnits grid values))
    (empty grid)

theorem exists_of_mem_counters {grid : LogLinearGrid} {values : List Nat}
    {e : Nat × Nat} (hmem : e ∈ (ofUnits grid values).counters) :
    ∃ value, e.1 = grid.indexOf value := by
  induction values using List.reverseRecOn with
  | nil => cases hmem
  | append_singleton before value ih =>
      have hgrid : (ofUnits grid before).grid = grid :=
        grid_foldl_record _ _
      rw [ofUnits_append] at hmem
      rcases mem_addAt hmem with hindex | hearlier
      · exact ⟨value, by rw [hindex, hgrid]⟩
      · exact ih hearlier

/-- Replaying keeps every count in its counter. -/
theorem replay_ofUnits (c : LogLinearTally) (values : List Nat) :
    c.replay (ofUnits c.grid values) = c.merge (ofUnits c.grid values) := by
  have hgrid : (ofUnits c.grid values).grid = c.grid := grid_foldl_record _ _
  have hcounters : ∀ counters : List (Nat × Nat),
      (∀ e ∈ counters, ∃ value, e.1 = c.grid.indexOf value) →
      counters.foldr
          (fun e held => held.recordMany (c.grid.valueAt e.1) e.2) c =
        { c with
          counters := counters.foldr (fun e held => addAt e.1 e.2 held)
            c.counters } := by
    intro counters hall
    induction counters with
    | nil => rfl
    | cons e rest ih =>
        obtain ⟨value, hvalue⟩ := hall e List.mem_cons_self
        rw [List.foldr_cons, ih fun e he => hall e (List.mem_cons_of_mem _ he),
          recordMany, hvalue, c.grid.indexOf_valueAt_indexOf]
        simp only [List.foldr_cons, hvalue]
  rw [replay, hgrid, hcounters _ fun e he => exists_of_mem_counters he]
  rfl

/-- Lots of values replayed one by one are all values together. -/
theorem replayed_eq (grid : LogLinearGrid) (slots : List (List Nat)) :
    replayed grid slots = ofUnits grid slots.flatten := by
  induction slots using List.reverseRecOn with
  | nil => rfl
  | append_singleton before values ih =>
      have hgrid : (ofUnits grid before.flatten).grid = grid :=
        grid_foldl_record _ _
      have hreplay := replay_ofUnits (ofUnits grid before.flatten) values
      have hmerge := merge_ofUnits (ofUnits grid before.flatten) values
      rw [hgrid] at hreplay hmerge
      rw [replayed, List.foldl_concat, ← replayed, ih, hreplay, hmerge,
        ← ofUnits_append]
      simp

/-- Slots are merged as if their counts were replayed. -/
theorem replayed_eq_mergedLogLinear (grid : LogLinearGrid)
    (slots : List (List Nat)) :
    replayed grid slots = SlotPlan.mergedLogLinear grid
      (slots.map fun held => ⟨none, some (ofUnits grid held)⟩) := by
  induction slots using List.reverseRecOn with
  | nil => rfl
  | append_singleton before values ih =>
      have hgrid : (replayed grid before).grid = grid := by
        rw [replayed_eq]
        exact grid_foldl_record _ _
      have hreplay := replay_ofUnits (replayed grid before) values
      rw [hgrid] at hreplay
      rw [List.map_append, List.map_singleton,
        SlotPlan.mergedLogLinear_append_singleton, ← ih, replayed,
        List.foldl_concat]
      exact hreplay

/-! ### Answers -/

/-- The highest value of the counter at which a walk to a rank ends. -/
def answerAt (c : LogLinearTally) (rank : Nat) : Nat :=
  match counterAt? rank 0 c.counters.reverse with
  | none => 0
  | some index => c.grid.highestAt index

/-- Above zero, the value at a quantile is the answer at the rank that it asks
for. -/
theorem valueAtRank_eq (c : LogLinearTally) {quantile : Float}
    (hpos : 0.0 < quantile) :
    c.valueAtRank quantile = c.answerAt (targetRank quantile c.total) := by
  simp only [valueAtRank, answerAt]
  rcases counterAt? (targetRank quantile c.total) 0 c.counters.reverse with
    _ | index
  · rfl
  · simp only [beq_zero_of_pos hpos, Bool.false_eq_true, ↓reduceIte]

theorem targetRank_le {quantile : Float} {total : Nat}
    (hpos : 0.0 < quantile) (hsome : 1 ≤ total) (htotal : total ≤ 2 ^ 53) :
    targetRank quantile total ≤ total := by
  unfold targetRank
  refine Nat.max_le.mpr ⟨hsome, ?_⟩
  by_cases hlarge : 1.0 < quantile
  · rw [if_pos hlarge]
    exact ceilSaturating_mul_le (by decide +kernel) (by decide +kernel) htotal
  · rw [if_neg hlarge]
    exact ceilSaturating_mul_le hpos hlarge htotal

section Ranks

variable (grid : LogLinearGrid) (values : List Nat)

/-- The answer at a rank comes from the counter of the value of that rank. -/
theorem answerAt_ofUnits {rank : Nat} (hpos : 1 ≤ rank)
    (hle : rank - 1 < values.mergeSort.length) :
    (ofUnits grid values).answerAt rank =
      grid.highestAt (grid.indexOf values.mergeSort[rank - 1]) := by
  have hgrid : (ofUnits grid values).grid = grid := grid_foldl_record _ _
  have hwalk : counterAt? rank 0 (ofUnits grid values).counters.reverse =
      some (grid.indexOf values.mergeSort[rank - 1]) := by
    rw [counterAt?_eq _ hpos, expand_reverse_ofUnits, Nat.sub_zero,
      List.getElem?_map, List.getElem?_eq_getElem hle, Option.map_some]
  simp only [answerAt, hwalk, hgrid]

/-- Answers are not below the value of the rank, and above it by less than the
precision. -/
theorem answerAt_within {rank : Nat} (hpos : 1 ≤ rank)
    (hle : rank ≤ values.length) :
    ∃ x, values.mergeSort[rank - 1]?.map grid.clamp = some x ∧
      x ≤ (ofUnits grid values).answerAt rank ∧
      ((ofUnits grid values).answerAt rank - x) * 10 ^ grid.digits < x := by
  have hindex : rank - 1 < values.mergeSort.length := by
    rw [List.length_mergeSort]
    omega
  rw [answerAt_ofUnits grid values hpos hindex,
    List.getElem?_eq_getElem hindex]
  refine ⟨_, rfl, ?_⟩
  generalize values.mergeSort[rank - 1] = value
  have hlow := grid.valueAt_indexOf_le value
  have hhigh := grid.lt_valueAt_indexOf_succ value
  unfold LogLinearGrid.highestAt
  refine ⟨by omega, lt_of_le_of_lt ?_ (grid.width_mul_lt value)⟩
  exact Nat.mul_le_mul_right _ (by omega)

/-- Higher ranks have no smaller answers. -/
theorem answerAt_mono {rank other : Nat} (hpos : 1 ≤ rank)
    (hrank : rank ≤ other) (hle : other ≤ values.length) :
    (ofUnits grid values).answerAt rank ≤
      (ofUnits grid values).answerAt other := by
  have hlength : values.mergeSort.length = values.length :=
    List.length_mergeSort values
  have hlower : rank - 1 < values.mergeSort.length := by omega
  have hupper : other - 1 < values.mergeSort.length := by omega
  rw [answerAt_ofUnits grid values hpos hlower,
    answerAt_ofUnits grid values (by omega) hupper]
  have hvalues : values.mergeSort[rank - 1] ≤ values.mergeSort[other - 1] :=
    values.sortedLE_mergeSort.getElem_le_getElem_of_le (by omega)
  have hnext := grid.valueAt_strictMono.monotone
    (Nat.succ_le_succ (grid.indexOf_mono hvalues))
  unfold LogLinearGrid.highestAt
  exact Nat.sub_le_sub_right hnext 1

end Ranks

/-- The rank that an exact quantile asks for. -/
def exactRank (quantile : ℚ) (total : Nat) : Nat :=
  max 1 ⌈min quantile 1 * total⌉₊

theorem exactRank_le (quantile : ℚ) {total : Nat} (hsome : 1 ≤ total) :
    exactRank quantile total ≤ total := by
  refine Nat.max_le.mpr ⟨hsome, Nat.ceil_le.mpr ?_⟩
  exact mul_le_of_le_one_left (Nat.cast_nonneg total) (min_le_right _ _)

/-! ### Percentiles of merged counts -/

/-- Percentiles are accurate to the digits of the layout.  Values recorded over
any number of counts and replayed into one histogram are all there, the answer
at a rank is not below the value of that rank and above it by less than the
precision, and higher ranks have no smaller answers.  The ranks that quantiles
above zero ask for are ranks of values, computed exactly and, as long as the
number of values has a float of its own, in floats. -/
theorem percentiles_keep_digits (grid : LogLinearGrid)
    (slots : List (List Nat)) :
    let values := slots.flatten
    let merged := replayed grid slots
    merged = SlotPlan.mergedLogLinear grid
      (slots.map fun held => ⟨none, some (ofUnits grid held)⟩) ∧
    merged.total = values.length ∧
    (∀ rank, 1 ≤ rank → rank ≤ merged.total →
      ∃ x, values.mergeSort[rank - 1]?.map grid.clamp = some x ∧
        x ≤ merged.answerAt rank ∧
        (merged.answerAt rank - x) * 10 ^ grid.digits < x) ∧
    (∀ rank other, 1 ≤ rank → rank ≤ other → other ≤ merged.total →
      merged.answerAt rank ≤ merged.answerAt other) ∧
    (∀ quantile : Float, 0.0 < quantile →
      merged.valueAtRank quantile =
        merged.answerAt (targetRank quantile merged.total)) ∧
    (1 ≤ values.length →
      (∀ quantile : ℚ, 1 ≤ exactRank quantile merged.total ∧
        exactRank quantile merged.total ≤ merged.total) ∧
      (values.length ≤ 2 ^ 53 → ∀ quantile : Float, 0.0 < quantile →
        1 ≤ targetRank quantile merged.total ∧
        targetRank quantile merged.total ≤ merged.total)) := by
  intro values merged
  have hmerged : merged = ofUnits grid values := replayed_eq grid slots
  have htotal : merged.total = values.length := by
    rw [hmerged, total_ofUnits]
  refine ⟨replayed_eq_mergedLogLinear grid slots, htotal, ?_, ?_, ?_, ?_⟩
  · intro rank hpos hle
    rw [htotal] at hle
    rw [hmerged]
    exact answerAt_within grid values hpos hle
  · intro rank other hpos hrank hle
    rw [htotal] at hle
    rw [hmerged]
    exact answerAt_mono grid values hpos hrank hle
  · intro quantile hpos
    exact merged.valueAtRank_eq hpos
  · intro hsome
    rw [← htotal] at hsome ⊢
    refine ⟨fun quantile => ⟨le_max_left _ _, exactRank_le quantile hsome⟩, ?_⟩
    intro hfew quantile hpos
    exact ⟨le_max_left _ _, targetRank_le hpos hsome hfew⟩

/-- The values 5 and 100 in one lot, 100 and 5000 in another: the third of four
values is answered by 103, with one digit. -/
theorem percentiles_keep_digits_of_two_lots :
    let grid := LogLinearGrid.of 1000000 1
    let merged := replayed grid [[100, 5], [5000, 100]]
    merged.total = 4 ∧ merged.answerAt 3 = 103 ∧
      (∃ x, ([100, 5, 5000, 100] : List Nat).mergeSort[2]?.map grid.clamp =
          some x ∧
        x ≤ merged.answerAt 3 ∧
        (merged.answerAt 3 - x) * 10 ^ grid.digits < x) ∧
      merged.answerAt 3 ≤ merged.answerAt 4 ∧
      merged.valueAtRank 0.75 = 103 ∧ exactRank (3 / 4) 4 ≤ 4 := by
  intro grid merged
  have hanswer : merged.answerAt 3 = 103 := by decide +kernel
  have hrank : targetRank 0.75 4 = 3 := by decide +kernel
  obtain ⟨-, htotal, hwithin, hmono, hvalue, hranks⟩ :=
    percentiles_keep_digits grid [[100, 5], [5000, 100]]
  have hfour : merged.total = 4 := htotal
  have hquantile := hvalue 0.75 (by decide +kernel)
  obtain ⟨hexact, -⟩ := hranks (by decide)
  refine ⟨hfour, hanswer, hwithin 3 (by decide) (by rw [htotal]; decide),
    hmono 3 4 (by decide) (by decide) (by rw [htotal]; decide), ?_, ?_⟩
  · rw [hquantile, htotal]
    exact (congrArg _ hrank).trans hanswer
  · have hle := (hexact (3 / 4)).2
    rw [htotal] at hle
    exact hle

end LogLinearTally

end WindowedMetrics
