/-
Ledgers of rollovers.  A ledger of a run notes the reading at every rollover
and the increase since the one before, from the touches of the run alone.  If
no step goes untouched, it has one increase for every step that the run leaves.
-/
import WindowedMetrics.Proofs.Meter.Uses
import Mathlib.Algebra.Order.Ring.Int
import Mathlib.Data.List.Induction

namespace WindowedMetrics

/-! ### Ledgers of rollovers -/

/-- How increases of totals are reckoned, and what counts as nothing. -/
structure Reckoning (A : Type) where
  nothing : A
  increase : A → A → A

namespace Reckoning

/-- A total below the one before it was reset and counts in full. -/
def counts : Reckoning Nat :=
  ⟨0, fun previous reading =>
    if previous ≤ reading then reading - previous else reading⟩

/-- Two totals that are read together. -/
def pairs : Reckoning (Nat × Nat) :=
  ⟨(0, 0), fun previous reading =>
    (counts.increase previous.1 reading.1,
      counts.increase previous.2 reading.2)⟩

end Reckoning

/-- The step that a run is in, the reading that was noted last, and the
increases noted at the rollovers so far. -/
structure Ledger (A : Type) where
  step : Int
  baseline : A
  increases : List A

namespace TimedUse

/-- Whether a use moves a function meter to the step of its moment. -/
def touches (u : TimedUse) : Bool :=
  match u.use with
  | .read .delta => true
  | .rollover => true
  | _ => false

/-- The step of the moment of a use. -/
def stepIn (u : TimedUse) (length : Int) : Int := u.moment.now.tdiv length

end TimedUse

namespace Ledger

variable {A : Type} (r : Reckoning A)

/-- A touch in a later step is a rollover.  Without a reading it notes
nothing, and the increase is left to the next one. -/
def touch (l : Ledger A) (step : Int) (reading : Option A) : Ledger A :=
  if l.step < step then
    match reading with
    | some total =>
        ⟨step, total, l.increases ++ [r.increase l.baseline total]⟩
    | none => ⟨step, l.baseline, l.increases ++ [r.nothing]⟩
  else l

/-- The ledger of the touches of a run in steps of `length` milliseconds. -/
def of (length start : Int) (reading : Moment → Option A)
    (uses : List TimedUse) : Ledger A :=
  (uses.filter TimedUse.touches).foldl
    (fun l u => l.touch r (u.stepIn length) (reading u.moment))
    ⟨start.tdiv length, r.nothing, []⟩

end Ledger

/-- The clock of a run never goes back, and up to its last touch every step
after the one that it starts in is touched. -/
structure TouchedThroughout (length start : Int) (uses : List TimedUse) :
    Prop where
  clock : (start :: uses.map (·.moment.now)).Pairwise (· ≤ ·)
  touched : ∀ step, start.tdiv length < step →
    (∃ u ∈ uses, u.touches = true ∧ step ≤ u.stepIn length) →
    ∃ u ∈ uses, u.touches = true ∧ u.stepIn length = step

namespace Ledger

variable {A : Type} (r : Reckoning A) {length start : Int}
  {reading : Moment → Option A} {uses : List TimedUse} {u : TimedUse}

theorem of_append_of_touches (htouches : u.touches = true) :
    of r length start reading (uses ++ [u]) =
      (of r length start reading uses).touch r (u.stepIn length)
        (reading u.moment) := by
  simp [of, htouches]

theorem of_append_of_not_touches (htouches : u.touches = false) :
    of r length start reading (uses ++ [u]) =
      of r length start reading uses := by
  simp [of, htouches]

theorem step_touch (l : Ledger A) (step : Int) (reading : Option A) :
    (l.touch r step reading).step = max l.step step := by
  unfold touch
  split
  · cases reading <;> simp only <;> omega
  · omega

/-- A run is in its latest touched step. -/
theorem step_of_le {bound : Int} (hstart : start.tdiv length ≤ bound)
    (huses : ∀ u ∈ uses, u.touches = true → u.stepIn length ≤ bound) :
    (of r length start reading uses).step ≤ bound := by
  induction uses using List.reverseRecOn with
  | nil => exact hstart
  | append_singleton before u ih =>
      have hbefore := ih fun v hv => huses v (List.mem_append_left [u] hv)
      rcases htouches : u.touches with _ | _
      · rw [of_append_of_not_touches r htouches]
        exact hbefore
      · rw [of_append_of_touches r htouches, step_touch]
        exact max_le hbefore (huses u (by simp) htouches)

theorem le_step_of (reading : Moment → Option A) (hmem : u ∈ uses)
    (htouches : u.touches = true) :
    u.stepIn length ≤ (of r length start reading uses).step := by
  induction uses using List.reverseRecOn with
  | nil => cases hmem
  | append_singleton before v ih =>
      rcases List.mem_append.mp hmem with hearlier | hlast
      · rcases hv : v.touches with _ | _
        · rw [of_append_of_not_touches r hv]
          exact ih hearlier
        · rw [of_append_of_touches r hv, step_touch]
          exact (ih hearlier).trans (le_max_left _ _)
      · obtain rfl := List.mem_singleton.mp hlast
        rw [of_append_of_touches r htouches, step_touch]
        exact le_max_right _ _

theorem start_le_step_of (reading : Moment → Option A)
    (uses : List TimedUse) :
    start.tdiv length ≤ (of r length start reading uses).step := by
  induction uses using List.reverseRecOn with
  | nil => exact le_rfl
  | append_singleton before u ih =>
      rcases htouches : u.touches with _ | _
      · rw [of_append_of_not_touches r htouches]
        exact ih
      · rw [of_append_of_touches r htouches, step_touch]
        exact ih.trans (le_max_left _ _)

end Ledger

namespace TouchedThroughout

variable {A : Type} (r : Reckoning A) {length start : Int}
  {reading : Moment → Option A} {before after : List TimedUse} {u : TimedUse}
  (hlength : 0 < length)
  (h : TouchedThroughout length start (before ++ u :: after))

include hlength h

/-- A use is not before the step that the run is in. -/
theorem step_le : (Ledger.of r length start reading before).step ≤
    u.stepIn length := by
  have hclock := h.clock
  rw [List.map_append, List.map_cons, ← List.cons_append,
    List.pairwise_append] at hclock
  have hearlier : ∀ now ∈ start :: before.map (·.moment.now),
      now ≤ u.moment.now :=
    fun now hnow => hclock.2.2 now hnow _ List.mem_cons_self
  apply Ledger.step_of_le
  · exact Int.tdiv_le_tdiv hlength (hearlier start List.mem_cons_self)
  · intro v hv _
    exact Int.tdiv_le_tdiv hlength (hearlier _
      (List.mem_cons_of_mem _ (List.mem_map_of_mem hv)))

/-- A touch is at most one step past the one that the run is in. -/
theorem le_step_succ (htouches : u.touches = true) :
    u.stepIn length ≤ (Ledger.of r length start reading before).step + 1 := by
  by_contra hlater
  have hclock := h.clock
  rw [List.map_append, List.map_cons, ← List.cons_append,
    List.pairwise_append] at hclock
  have hstart : start.tdiv length ≤
      (Ledger.of r length start reading before).step :=
    Ledger.start_le_step_of r reading before
  obtain ⟨v, hv, htouched, hstep⟩ :=
    h.touched ((Ledger.of r length start reading before).step + 1) (by omega)
      ⟨u, by simp, htouches, by omega⟩
  rcases List.mem_append.mp hv with hearlier | hlater
  · have hbefore : v.stepIn length ≤
        (Ledger.of r length start reading before).step :=
      Ledger.le_step_of r reading hearlier htouched
    omega
  · have hle : u.stepIn length ≤ v.stepIn length := by
      apply Int.tdiv_le_tdiv hlength
      rcases List.mem_cons.mp hlater with rfl | hrest
      · exact le_rfl
      · exact (List.pairwise_cons.mp hclock.2.1).1 _
          (List.mem_map_of_mem hrest)
    omega

end TouchedThroughout

theorem getElem?_cons_append_length {A : Type} (a : A) (xs ys : List A) :
    (a :: (xs ++ ys))[xs.length]? = some (xs.getLastD a) := by
  rcases List.eq_nil_or_concat xs with rfl | ⟨front, x, rfl⟩
  · rfl
  · simp

namespace Ledger

variable {A : Type} (r : Reckoning A) {length start : Int}
  {reading : Moment → Option A}

theorem prefix_touch (l : Ledger A) (step : Int) (reading : Option A) :
    l.increases <+: (l.touch r step reading).increases := by
  unfold touch
  split
  · rcases reading with _ | total <;> exact List.prefix_append _ _
  · exact List.prefix_refl _

/-- What was noted stays noted. -/
theorem prefix_of_append (before later : List TimedUse) :
    (of r length start reading before).increases <+:
      (of r length start reading (before ++ later)).increases := by
  induction later using List.reverseRecOn with
  | nil => exact (List.append_nil before).symm ▸ List.prefix_refl _
  | append_singleton later u ih =>
      rw [← List.append_assoc]
      rcases htouches : u.touches with _ | _
      · rw [of_append_of_not_touches r htouches]
        exact ih
      · rw [of_append_of_touches r htouches]
        exact ih.trans (prefix_touch r _ _ _)

/-- Every step that a run leaves has its increase. -/
theorem step_of_eq {uses : List TimedUse} (hlength : 0 < length)
    (h : TouchedThroughout length start uses) {before later : List TimedUse}
    (huses : uses = before ++ later) :
    (of r length start reading before).step = start.tdiv length +
      (of r length start reading before).increases.length := by
  induction before using List.reverseRecOn generalizing later with
  | nil => exact (Int.add_zero _).symm
  | append_singleton before u ih =>
      rw [List.append_assoc, List.singleton_append] at huses
      have hbefore := ih huses
      subst huses
      rcases htouches : u.touches with _ | _
      · rw [of_append_of_not_touches r htouches]
        exact hbefore
      · have hnext : u.stepIn length ≤
            (of r length start reading before).step + 1 :=
          h.le_step_succ r hlength htouches
        rw [of_append_of_touches r htouches, step_touch]
        unfold touch
        split
        · rcases reading u.moment with _ | total <;>
            simp only [List.length_append, List.length_singleton] <;> omega
        · omega

/-- The increase of the step before a touch is the last one noted by then. -/
theorem getElem?_increases (reading : Moment → Option A)
    {before later : List TimedUse} {u : TimedUse} (hlength : 0 < length)
    (h : TouchedThroughout length start (before ++ u :: later))
    (htouches : u.touches = true) :
    (r.nothing :: (of r length start reading
        (before ++ u :: later)).increases)[
      (u.stepIn length - start.tdiv length).toNat]? =
      some ((of r length start reading (before ++ [u])).increases.getLastD
        r.nothing) := by
  have hsplit : before ++ u :: later = before ++ [u] ++ later := by simp
  have hstep : (of r length start reading (before ++ [u])).step =
      u.stepIn length := by
    rw [of_append_of_touches r htouches, step_touch]
    exact max_eq_right (h.step_le r hlength)
  have hcount : (of r length start reading (before ++ [u])).step =
      start.tdiv length +
        (of r length start reading (before ++ [u])).increases.length :=
    step_of_eq r hlength h hsplit
  have hindex : (u.stepIn length - start.tdiv length).toNat =
      (of r length start reading (before ++ [u])).increases.length := by
    omega
  have hnoted : (of r length start reading (before ++ [u])).increases <+:
      (of r length start reading (before ++ [u] ++ later)).increases :=
    prefix_of_append r _ _
  obtain ⟨rest, hrest⟩ := hnoted
  rw [hindex, hsplit, ← hrest, getElem?_cons_append_length]

end Ledger

end WindowedMetrics
