/-
Windows that sample.  At every rollover a window takes the increase of a
reading into the step that it closes, so that what it shows follows the ledger
of the run.
-/
import WindowedMetrics.Proofs.Meter.Ledger
import WindowedMetrics.Proofs.Step.Window

namespace WindowedMetrics

/-! ### Sampled windows -/

/-- A window into which the increases of readings go, and the reading that was
accounted for last. -/
structure Sampling {V : Type} (acc : Accumulator V) where
  baseline : V
  window : RollingWindow acc

namespace Sampling

variable {V : Type} {acc : Accumulator V} (increase : V → V → V)

/-- The last closed step.  The reading is accounted for only if the step in
progress closes by this call. -/
def poll (s : Sampling acc) (now : Int) (reading : Option V) :
    V × Sampling acc :=
  match s.window.tracker.due? now, reading with
  | some _, some reading =>
      let (value, window) :=
        s.window.pollAdding now (increase s.baseline reading)
      (value, ⟨reading, window⟩)
  | _, _ =>
      let (value, window) := s.window.poll now
      (value, ⟨s.baseline, window⟩)

/-- The last closed step is shown as it is held. -/
theorem poll_fst (s : Sampling acc) (now : Int) (reading : Option V) :
    (s.poll increase now reading).1 =
      (s.poll increase now reading).2.window.previous := by
  unfold poll
  cases s.window.tracker.due? now <;> cases reading <;> rfl

/-- Touched in the step that it is in, a window stays as it is. -/
theorem poll_of_le (s : Sampling acc) {now : Int}
    (hle : s.window.tracker.stepAt now ≤ s.window.tracker.current)
    (reading : Option V) : (s.poll increase now reading).2 = s := by
  have hstays := fun last => s.window.rolloverWith_of_le hle last
  have hdue : s.window.tracker.due? now = none := by
    simp only [StepTracker.due?]
    rw [if_neg (by omega)]
  simp only [poll, hdue, RollingWindow.poll, RollingWindow.rollover, hstays]

/-- Touched in a later step, a window closes the step in progress with the
increase of the reading, if there is one.  It shows the closed step only if the
next one has begun. -/
theorem poll_of_lt (s : Sampling acc) {now : Int}
    (hlt : s.window.tracker.current < s.window.tracker.stepAt now)
    (reading : Option V) :
    (s.poll increase now reading).2 =
      ⟨reading.getD s.baseline,
        { tracker :=
            { s.window.tracker with current := s.window.tracker.stepAt now }
          current := acc.identity
          previous :=
            if s.window.tracker.stepAt now = s.window.tracker.current + 1 then
              reading.elim s.window.current fun total =>
                acc.merge s.window.current (increase s.baseline total)
            else acc.identity }⟩ := by
  have hmoves := fun last => s.window.rolloverWith_of_lt hlt last
  have hdue : s.window.tracker.due? now =
      some ⟨s.window.tracker.current, s.window.tracker.stepAt now⟩ := by
    simp only [StepTracker.due?]
    rw [if_pos hlt]
  rcases reading with _ | total
  · simp only [poll, hdue, RollingWindow.poll, RollingWindow.rollover, hmoves]
    rfl
  · simp only [poll, hdue, RollingWindow.pollAdding, RollingWindow.pollWith,
      hmoves]
    rfl

theorem poll_of_next (s : Sampling acc) {now : Int}
    (hnext : s.window.tracker.stepAt now = s.window.tracker.current + 1)
    (reading : Option V) :
    (s.poll increase now reading).2 =
      ⟨reading.getD s.baseline,
        { tracker :=
            { s.window.tracker with current := s.window.tracker.current + 1 }
          current := acc.identity
          previous := reading.elim s.window.current fun total =>
            acc.merge s.window.current (increase s.baseline total) }⟩ := by
  rw [poll_of_lt increase s (by omega), if_pos hnext, hnext]

end Sampling

/-! ### Windows follow ledgers -/

/-- Totals of one kind have values that windows add up exactly, as long as
they are small enough. -/
structure Reckoning.Exact {A V : Type} (r : Reckoning A) (acc : Accumulator V)
    (increase : V → V → V) (value : A → V) (Small : A → Prop) : Prop where
  nothing_small : Small r.nothing
  nothing_eq : value r.nothing = acc.identity
  merge_increase : ∀ {previous total}, Small previous → Small total →
    acc.merge acc.identity (increase (value previous) (value total)) =
      value (r.increase previous total)
  increase_small : ∀ {previous total}, Small previous → Small total →
    Small (r.increase previous total)

namespace Sampling

variable {A V : Type} {acc : Accumulator V} {increase : V → V → V}
  {r : Reckoning A} {value : A → V} {Small : A → Prop} {length start : Int}

/-- A window in the step of a ledger, with nothing in progress, that shows the
last increase noted. -/
structure Follows (s : Sampling acc) (r : Reckoning A) (value : A → V)
    (Small : A → Prop) (length : Int) (l : Ledger A) : Prop where
  length_eq : s.window.tracker.stepMillis = length
  step_eq : s.window.tracker.current = l.step
  current_eq : s.window.current = acc.identity
  previous_eq : s.window.previous = value (l.increases.getLastD r.nothing)
  baseline_eq : s.baseline = value l.baseline
  small : Small l.baseline
  noted : ∀ i ∈ l.increases, Small i

theorem Follows.poll (hexact : r.Exact acc increase value Small)
    {s : Sampling acc} {l : Ledger A} (h : s.Follows r value Small length l)
    {now : Int} (hnext : now.tdiv length ≤ l.step + 1) {reading : Option A}
    (hsmall : ∀ total, reading = some total → Small total) :
    (s.poll increase now (reading.map value)).2.Follows r value Small length
      (l.touch r (now.tdiv length) reading) := by
  have hat : s.window.tracker.stepAt now = now.tdiv length := by
    rw [StepTracker.stepAt, h.length_eq]
  by_cases hlater : l.step < now.tdiv length
  · rw [poll_of_next increase s (by rw [hat, h.step_eq]; omega)]
    unfold Ledger.touch
    rw [if_pos hlater]
    rcases reading with _ | total
    · refine ⟨h.length_eq, ?_, rfl, ?_, h.baseline_eq, h.small,
        List.forall_mem_append.mpr ⟨h.noted,
          List.forall_mem_singleton.mpr hexact.nothing_small⟩⟩
      · simp only [h.step_eq]
        omega
      · simp only [Option.map_none, Option.elim_none, List.getLastD_concat,
          h.current_eq, hexact.nothing_eq]
    · refine ⟨h.length_eq, ?_, rfl, ?_, rfl, hsmall total rfl,
        List.forall_mem_append.mpr ⟨h.noted, List.forall_mem_singleton.mpr
          (hexact.increase_small h.small (hsmall total rfl))⟩⟩
      · simp only [h.step_eq]
        omega
      · simp only [Option.map_some, Option.elim_some, List.getLastD_concat,
          h.current_eq, h.baseline_eq,
          hexact.merge_increase h.small (hsmall total rfl)]
  · rw [poll_of_le increase s (by rw [hat, h.step_eq]; omega)]
    unfold Ledger.touch
    rw [if_neg hlater]
    exact h

/-- The samplings of a run. -/
def after (increase : V → V → V) (reading : Moment → Option V)
    (s : Sampling acc) (uses : List TimedUse) : Sampling acc :=
  (uses.filter TimedUse.touches).foldl
    (fun s u => (s.poll increase u.moment.now (reading u.moment)).2) s

theorem after_append_of_touches {reading : Moment → Option V}
    (s : Sampling acc) {uses : List TimedUse} {u : TimedUse}
    (htouches : u.touches = true) :
    s.after increase reading (uses ++ [u]) =
      ((s.after increase reading uses).poll increase u.moment.now
        (reading u.moment)).2 := by
  simp [after, htouches]

theorem after_append_of_not_touches {reading : Moment → Option V}
    (s : Sampling acc) {uses : List TimedUse} {u : TimedUse}
    (htouches : u.touches = false) :
    s.after increase reading (uses ++ [u]) =
      s.after increase reading uses := by
  simp [after, htouches]

/-- A fresh window is at the start of a ledger. -/
theorem follows_starting (hexact : r.Exact acc increase value Small)
    (step : Duration) (start : Int) (reading : Moment → Option A) :
    Sampling.Follows
      ⟨acc.identity, RollingWindow.starting acc step start⟩ r value Small
      (StepTracker.lengthMillis step)
      (Ledger.of r (StepTracker.lengthMillis step) start reading []) :=
  ⟨rfl, rfl, rfl, hexact.nothing_eq.symm, hexact.nothing_eq.symm,
    hexact.nothing_small, by simp [Ledger.of]⟩

section Runs

variable {reading : Moment → Option A} {given : Moment → Option V}
  {uses : List TimedUse} {s : Sampling acc}
  (hexact : r.Exact acc increase value Small) (hlength : 0 < length)
  (hthroughout : TouchedThroughout length start uses)
  (hgiven : ∀ u ∈ uses, given u.moment = (reading u.moment).map value)
  (hsmall : ∀ u ∈ uses, ∀ total, reading u.moment = some total → Small total)
  (hstart : s.Follows r value Small length
    (Ledger.of r length start reading []))

include hexact hlength hthroughout hgiven hsmall hstart

/-- Through every part of a run, a window follows the ledger. -/
theorem follows_after {before later : List TimedUse}
    (huses : uses = before ++ later) :
    (s.after increase given before).Follows r value Small length
      (Ledger.of r length start reading before) := by
  induction before using List.reverseRecOn generalizing later with
  | nil => exact hstart
  | append_singleton before u ih =>
      rw [List.append_assoc, List.singleton_append] at huses
      have hbefore := ih huses
      subst huses
      rcases htouches : u.touches with _ | _
      · rw [after_append_of_not_touches s htouches,
          Ledger.of_append_of_not_touches r htouches]
        exact hbefore
      · rw [after_append_of_touches s htouches,
          Ledger.of_append_of_touches r htouches, hgiven u (by simp)]
        exact hbefore.poll hexact
          (hthroughout.le_step_succ r hlength htouches) (hsmall u (by simp))

end Runs

end Sampling

/-! ### Deltas -/

/-- Every step that a run closes has a delta, the increase that the ledger
notes for it.  Each touch shows the delta of the step before its own, and
nothing in the first step. -/
structure ShowsDeltas {A V : Type} (r : Reckoning A) (value : A → V)
    (length start : Int) (reading : Moment → Option A)
    (uses : List TimedUse) (shown : List TimedUse → Moment → V)
    (deltas : List V) : Prop where
  closed_steps : (Ledger.of r length start reading uses).step =
    start.tdiv length + deltas.length
  shown_eq : ∀ before later u, uses = before ++ u :: later →
    u.touches = true →
    (value r.nothing :: deltas)[
        (u.stepIn length - start.tdiv length).toNat]? =
      some (shown before u.moment)
  eq_increases : deltas =
    (Ledger.of r length start reading uses).increases.map value

namespace Sampling

section Shown

variable {A V : Type} {acc : Accumulator V} {increase : V → V → V}
  {r : Reckoning A} {value : A → V} {Small : A → Prop} {step : Duration}
  {start : Int} {uses : List TimedUse} (reading : Moment → Option A)
  (given : Moment → Option V) (hexact : r.Exact acc increase value Small)
  (hthroughout : TouchedThroughout (StepTracker.lengthMillis step) start uses)
  (hgiven : ∀ u ∈ uses, given u.moment = (reading u.moment).map value)
  (hsmall : ∀ u ∈ uses, ∀ total, reading u.moment = some total → Small total)

include hexact hthroughout hgiven hsmall

/-- A window sampled in all steps from its start on shows the increases of the
ledger, all of them small. -/
theorem showsDeltas (shown : List TimedUse → Moment → V)
    (hshown : ∀ before u later, uses = before ++ u :: later →
      shown before u.moment =
        ((Sampling.after increase given
          ⟨acc.identity, RollingWindow.starting acc step start⟩ before).poll
            increase u.moment.now (given u.moment)).1) :
    ShowsDeltas r value (StepTracker.lengthMillis step) start reading uses
        shown ((Ledger.of r (StepTracker.lengthMillis step) start reading
          uses).increases.map value) ∧
      ∀ i ∈ (Ledger.of r (StepTracker.lengthMillis step) start reading
        uses).increases, Small i := by
  have hlength : 0 < StepTracker.lengthMillis step :=
    Int.lt_of_lt_of_le Int.one_pos (Int.le_max_right _ _)
  have hstart := follows_starting hexact step start reading
  have hall := (List.append_nil uses).symm
  refine ⟨⟨?_, ?_, rfl⟩, ?_⟩
  · rw [List.length_map]
    exact Ledger.step_of_eq r hlength hthroughout hall
  · rintro before later u rfl htouches
    have hsplit : before ++ u :: later = before ++ [u] ++ later := by simp
    have hafter := follows_after hexact hlength hthroughout hgiven hsmall
      hstart hsplit
    have hlast := Ledger.getElem?_increases r reading hlength hthroughout
      htouches
    rw [after_append_of_touches _ htouches] at hafter
    rw [← List.map_cons, List.getElem?_map, hlast, Option.map_some,
      hshown before u later rfl, poll_fst, ← hafter.previous_eq]
  · exact (follows_after hexact hlength hthroughout hgiven hsmall hstart
      hall).noted

end Shown

end Sampling

end WindowedMetrics
