/-
A reservoir against the history of its use.  Its two sets of cells stand for
an unbounded log of traced measurements by steps: whatever the order of the
operations, the moves of the clock and the draws of chance, a read shows what
the cells make of the measurements of the step before, until they are drained.
-/
import WindowedMetrics.Proofs.Exemplar.Placing
import WindowedMetrics.Proofs.Step.Log

namespace WindowedMetrics

/-- What can be done with a reservoir.  An offer is made in the trace context
of its moment, if there is one, and brings its draws of chance. -/
inductive ReservoirCommand
  | offer (context : Option TraceContext) (draw : Nat → Nat) (value : Float)
  | collect
  | drain

/-- A measurement taken at a wall time in a trace context. -/
def Candidate.taken (now : Int) (context : TraceContext)
    (draw : Nat → Nat) (value : Float) : Candidate :=
  ⟨⟨value, clampInt64 (now * 1000000), context⟩, draw⟩

/-- The step of a reservoir, every traced measurement with the step it belongs
to, and the steps in which the reservoir was drained. -/
structure ReservoirHistory where
  step : Int
  samples : StepLog Candidate
  drains : List Int

namespace ReservoirHistory

/-- A history goes on by one command at a wall time, in steps of `length`
milliseconds.  An offer without a context is not even seen. -/
def next (h : ReservoirHistory) (length now : Int) :
    ReservoirCommand → ReservoirHistory
  | .offer none _ _ => h
  | .offer (some context) draw value =>
      let step := max h.step (now.tdiv length)
      { h with
        step := step
        samples := h.samples ++
          StepLog.ofStep step [Candidate.taken now context draw value] }
  | .collect => { h with step := max h.step (now.tdiv length) }
  | .drain =>
      let step := max h.step (now.tdiv length)
      { h with step := step, drains := h.drains ++ [step] }

/-- A history goes on by several commands. -/
def extend (h : ReservoirHistory) (length : Int)
    (commands : List (Int × ReservoirCommand)) : ReservoirHistory :=
  commands.foldl (fun h c => h.next length c.1 c.2) h

/-- The history of commands at wall times. -/
def of (length start : Int) (commands : List (Int × ReservoirCommand)) :
    ReservoirHistory :=
  extend ⟨start.tdiv length, [], []⟩ length commands

/-- The measurements that can be read in the step `seen`: those taken one step
before, unless they were drained. -/
def readable (h : ReservoirHistory) (seen : Int) : List Candidate :=
  let present := max h.step seen
  if present ∈ h.drains then [] else h.samples.valuesIn (present - 1)

theorem readable_of_le (h : ReservoirHistory) {seen : Int}
    (hle : seen ≤ h.step) : h.readable seen = h.readable h.step := by
  simp only [readable, Int.max_eq_left hle, Int.max_self]

section Stays

variable {h : ReservoirHistory} {length now : Int}

/-- A command in a step that began before leaves a history in its step. -/
theorem step_next_of_le (hle : now.tdiv length ≤ h.step)
    (c : ReservoirCommand) : (h.next length now c).step = h.step := by
  rcases c with ⟨_ | context, draw, value⟩ | _ | _ <;>
    simp only [next] <;> omega

/-- Within a step, only a drain changes what can be read. -/
theorem readable_next_of_le (hle : now.tdiv length ≤ h.step)
    {c : ReservoirCommand} (hc : c ≠ .drain) :
    (h.next length now c).readable h.step = h.readable h.step := by
  have hmax : max h.step (now.tdiv length) = h.step := by omega
  rcases c with ⟨_ | context, draw, value⟩ | _ | _
  · rfl
  · have hother : (StepLog.ofStep h.step
        [Candidate.taken now context draw value]).valuesIn (h.step - 1) =
        [] := StepLog.valuesIn_ofStep_of_ne (by omega) _
    simp [next, readable, hmax, StepLog.valuesIn_append, hother]
  · simp [next, readable, hmax]
  · exact absurd rfl hc

/-- After a drain, nothing can be read in its step. -/
theorem readable_drain (h : ReservoirHistory) (length now : Int) :
    let drained := h.next length now .drain
    drained.readable drained.step = [] := by
  simp [next, readable]

/-- What cannot be read any more does not come back within the step. -/
theorem readable_next_eq_nil (hle : now.tdiv length ≤ h.step)
    (hnone : h.readable h.step = []) (c : ReservoirCommand) :
    (h.next length now c).readable h.step = [] := by
  by_cases hc : c = .drain
  · have hstep := step_next_of_le hle .drain
    rw [hc, ← hstep]
    exact readable_drain h length now
  · rw [readable_next_of_le hle hc, hnone]

variable {more : List (Int × ReservoirCommand)}

/-- Commands in a step that began before leave a history in its step, with
what each of them keeps. -/
theorem extend_of_kept {P : ReservoirHistory → Prop}
    (hle : ∀ c ∈ more, c.1.tdiv length ≤ h.step) (hstart : P h)
    (hkeeps : ∀ later : ReservoirHistory, later.step = h.step → P later →
      ∀ c ∈ more, P (later.next length c.1 c.2)) :
    (h.extend length more).step = h.step ∧ P (h.extend length more) := by
  refine List.foldlRecOn more _ (motive := fun later : ReservoirHistory =>
    later.step = h.step ∧ P later) ⟨rfl, hstart⟩ ?_
  rintro later ⟨hstep, hlater⟩ c hc
  have hseen : c.1.tdiv length ≤ later.step := by
    rw [hstep]
    exact hle c hc
  exact ⟨(step_next_of_le hseen c.2).trans hstep,
    hkeeps later hstep hlater c hc⟩

/-- Within a step, what can be read stays until it is drained. -/
theorem extend_of_le (hle : ∀ c ∈ more, c.1.tdiv length ≤ h.step)
    (hundrained : ∀ c ∈ more, c.2 ≠ .drain) :
    (h.extend length more).step = h.step ∧
      (h.extend length more).readable h.step = h.readable h.step := by
  refine extend_of_kept (P := fun later =>
    later.readable h.step = h.readable h.step) hle rfl ?_
  intro later hstep hlater c hc
  rw [← hstep] at hle hlater ⊢
  exact (readable_next_of_le (hle c hc) (hundrained c hc)).trans hlater

/-- Within a step, a drain leaves nothing to read for good. -/
theorem extend_of_readable_eq_nil
    (hle : ∀ c ∈ more, c.1.tdiv length ≤ h.step)
    (hnone : h.readable h.step = []) :
    (h.extend length more).step = h.step ∧
      (h.extend length more).readable h.step = [] := by
  refine extend_of_kept (P := fun later => later.readable h.step = []) hle
    hnone ?_
  intro later hstep hlater c hc
  rw [← hstep] at hle hlater ⊢
  exact readable_next_eq_nil (hle c hc) hlater c.2

end Stays

end ReservoirHistory

namespace Reservoir

/-- The reservoir after a command at a wall time. -/
def perform (r : Reservoir) (now : Int) : ReservoirCommand → Reservoir
  | .offer context draw value => r.offer now context draw value
  | .collect => (r.collect now).2
  | .drain => (r.drain now).2

/-- The reservoir after commands at wall times, in any order of times. -/
def run (r : Reservoir) (commands : List (Int × ReservoirCommand)) :
    Reservoir :=
  commands.foldl (fun r c => r.perform c.1 c.2) r

/-! ### What a rollover does -/

theorem rollover_of_le (r : Reservoir) {now : Int}
    (hle : r.tracker.stepAt now ≤ r.tracker.current) :
    r.rollover now = r := by
  have hdue : r.tracker.due? now = none := by
    rw [StepTracker.due?, if_neg (by omega)]
  simp only [rollover, hdue]

theorem rollover_of_lt (r : Reservoir) {now : Int}
    (hlt : r.tracker.current < r.tracker.stepAt now) :
    r.rollover now =
      { r with
        filling := r.freshCells
        closed :=
          if r.tracker.stepAt now = r.tracker.current + 1 then r.filling
          else r.freshCells
        tracker :=
          { r.tracker with current := r.tracker.stepAt now } } := by
  have hdue : r.tracker.due? now =
      some ⟨r.tracker.current, r.tracker.stepAt now⟩ := by
    rw [StepTracker.due?, if_pos hlt]
  simp only [rollover, StepTracker.advance, hdue, StepMove.contiguous,
    decide_eq_true_eq]

/-! ### The cells follow a history -/

/-- The reservoir is at the step of a history.  The cells in use are those of
the measurements of that step; the others are those of the step before, or
empty after a drain. -/
structure Mirrors (r : Reservoir) (selector : CellChoice) (count : Nat)
    (length : Int) (h : ReservoirHistory) : Prop where
  selector_eq : r.selector = selector
  length_eq : r.tracker.stepMillis = length
  step_eq : r.tracker.current = h.step
  drains_le : ∀ step ∈ h.drains, step ≤ h.step
  samples_le : ∀ e ∈ h.samples, e.1 ≤ h.step
  filling_eq :
    r.filling = placeAll selector count (h.samples.valuesIn h.step)
  closed_eq : r.closed.contents =
    (placeAll selector count (h.readable h.step)).contents

section Mirrors

variable {r : Reservoir} {selector : CellChoice} {count : Nat} {length : Int}
  {h : ReservoirHistory}

theorem placeAll_nil (selector : CellChoice) (count : Nat) :
    placeAll selector count [] = Cells.empty count :=
  rfl

theorem Mirrors.freshCells_eq (hr : r.Mirrors selector count length h) :
    r.freshCells = placeAll selector count [] := by
  rw [freshCells, size, hr.filling_eq, length_held_placeAll, placeAll_nil]

theorem mirrors_create (selector : CellChoice) (count : Nat)
    (step : Duration) (start : Int) :
    (create selector count step start).Mirrors selector
      (cellsFor selector count) (StepTracker.lengthMillis step)
      (ReservoirHistory.of (StepTracker.lengthMillis step) start []) where
  selector_eq := rfl
  length_eq := rfl
  step_eq := rfl
  drains_le := by simp [ReservoirHistory.of, ReservoirHistory.extend]
  samples_le := by simp [ReservoirHistory.of, ReservoirHistory.extend]
  filling_eq := rfl
  closed_eq := by
    simp [create, ReservoirHistory.of, ReservoirHistory.extend,
      ReservoirHistory.readable, StepLog.valuesIn, placeAll_nil]

/-- A rollover turns what the present step took into what can be read if the
steps are adjacent; if not, nothing was taken in the step before. -/
theorem Mirrors.rollover (hr : r.Mirrors selector count length h)
    (now : Int) :
    (r.rollover now).Mirrors selector count length
      { h with step := max h.step (now.tdiv length) } := by
  have hseen : r.tracker.stepAt now = now.tdiv length := by
    rw [StepTracker.stepAt, hr.length_eq]
  by_cases hlt : h.step < now.tdiv length
  · have hmax : max h.step (now.tdiv length) = now.tdiv length := by omega
    have hlater : ∀ step, h.step < step → h.samples.valuesIn step = [] := by
      intro step hstep
      apply StepLog.valuesIn_eq_nil
      intro e he
      exact Int.lt_of_le_of_lt (hr.samples_le e he) hstep
    have hundrained : now.tdiv length ∉ h.drains := by
      intro hdrain
      have := hr.drains_le _ hdrain
      omega
    rw [rollover_of_lt r (by rw [hseen, hr.step_eq]; exact hlt), hmax, hseen,
      hr.step_eq, hr.freshCells_eq]
    refine ⟨hr.selector_eq, hr.length_eq, rfl, ?_, ?_, ?_, ?_⟩
    · exact fun step hstep =>
        Int.le_trans (hr.drains_le step hstep) (Int.le_of_lt hlt)
    · exact fun e he =>
        Int.le_trans (hr.samples_le e he) (Int.le_of_lt hlt)
    · simp only [hlater _ hlt]
    · simp only [ReservoirHistory.readable, Int.max_self, hundrained,
        ↓reduceIte]
      by_cases hnext : now.tdiv length = h.step + 1
      · rw [if_pos hnext, hr.filling_eq, hnext, Int.add_sub_cancel]
      · rw [if_neg hnext, hlater _ (by omega)]
  · have hmax : max h.step (now.tdiv length) = h.step := by omega
    rw [rollover_of_le r (by rw [hseen, hr.step_eq]; omega), hmax]
    exact hr

/-- A measurement in the step in progress reaches the cells in use alone. -/
theorem Mirrors.place (hr : r.Mirrors selector count length h)
    (c : Candidate) :
    ({ r with filling := place r.selector c.draw r.filling c.exemplar } :
      Reservoir).Mirrors selector count length
      { h with samples := h.samples ++ StepLog.ofStep h.step [c] } where
  selector_eq := hr.selector_eq
  length_eq := hr.length_eq
  step_eq := hr.step_eq
  drains_le := hr.drains_le
  samples_le := by
    intro e he
    rcases List.mem_append.mp he with hold | hnew
    · exact hr.samples_le e hold
    · obtain ⟨value, _, rfl⟩ := List.mem_map.mp hnew
      exact Int.le_refl h.step
  filling_eq := by
    rw [StepLog.valuesIn_append, StepLog.valuesIn_ofStep_self,
      placeAll_append_singleton, ← hr.filling_eq, hr.selector_eq]
  closed_eq := by
    have hother : (StepLog.ofStep h.step [c]).valuesIn (h.step - 1) = [] :=
      StepLog.valuesIn_ofStep_of_ne (by omega) _
    rw [hr.closed_eq]
    simp only [ReservoirHistory.readable, StepLog.valuesIn_append,
      Int.max_self, hother, List.append_nil]

theorem Mirrors.perform (hr : r.Mirrors selector count length h) (now : Int)
    (c : ReservoirCommand) :
    (r.perform now c).Mirrors selector count length
      (h.next length now c) := by
  have hroll := hr.rollover now
  cases c with
  | offer context draw value =>
      cases context with
      | none => exact hr
      | some context =>
          exact hroll.place (Candidate.taken now context draw value)
  | collect => exact hroll
  | drain =>
      refine ⟨hroll.selector_eq, hroll.length_eq, hroll.step_eq, ?_,
        hroll.samples_le, hroll.filling_eq, ?_⟩
      · intro step hstep
        rcases List.mem_append.mp hstep with hold | hnew
        · exact hroll.drains_le step hold
        · exact Int.le_of_eq (List.mem_singleton.mp hnew)
      · rw [ReservoirHistory.readable_drain, placeAll_nil]
        simp [Reservoir.perform, drain, Cells.empty, Cells.contents]

theorem Mirrors.run (hr : r.Mirrors selector count length h)
    (commands : List (Int × ReservoirCommand)) :
    (r.run commands).Mirrors selector count length
      (h.extend length commands) := by
  induction commands generalizing r h with
  | nil => exact hr
  | cons c rest ih => exact ih (hr.perform c.1 c.2)

/-- A read shows what the cells make of the measurements that can be read by
then. -/
theorem Mirrors.collect_fst (hr : r.Mirrors selector count length h)
    (now : Int) :
    (r.collect now).1 =
      (placeAll selector count (h.readable (now.tdiv length))).contents := by
  have hclosed := (hr.rollover now).closed_eq
  simp only [ReservoirHistory.readable, Int.max_self] at hclosed
  exact hclosed

/-! ### Reads one after another -/

/-- A later read in the same step shows the same again. -/
theorem Mirrors.collect_of_collect (hr : r.Mirrors selector count length h)
    {now later : Int} {more : List (Int × ReservoirCommand)}
    (hmore : ∀ c ∈ more,
      c.1.tdiv length ≤ max h.step (now.tdiv length))
    (hundrained : ∀ c ∈ more, c.2 ≠ .drain)
    (hlater : later.tdiv length ≤ max h.step (now.tdiv length)) :
    (((r.collect now).2.run more).collect later).1 = (r.collect now).1 := by
  have hafter := (hr.perform now .collect).run more
  obtain ⟨hstep, hreadable⟩ := ReservoirHistory.extend_of_le
    (h := h.next length now .collect) hmore hundrained
  have hcollect := hafter.collect_fst later
  rw [ReservoirHistory.readable_of_le _ (by rw [hstep]; exact hlater), hstep,
    hreadable] at hcollect
  rw [hr.collect_fst now]
  refine hcollect.trans ?_
  simp only [ReservoirHistory.next, ReservoirHistory.readable, Int.max_self]

/-- Nothing can be read after a drain until the next rollover. -/
theorem Mirrors.collect_of_drain (hr : r.Mirrors selector count length h)
    {now later : Int} {more : List (Int × ReservoirCommand)}
    (hmore : ∀ c ∈ more,
      c.1.tdiv length ≤ max h.step (now.tdiv length))
    (hlater : later.tdiv length ≤ max h.step (now.tdiv length)) :
    (((r.drain now).2.run more).collect later).1 = [] := by
  have hafter := (hr.perform now .drain).run more
  obtain ⟨hstep, hreadable⟩ := ReservoirHistory.extend_of_readable_eq_nil
    (h := h.next length now .drain) hmore
    (ReservoirHistory.readable_drain h length now)
  have hcollect := hafter.collect_fst later
  rw [ReservoirHistory.readable_of_le _ (by rw [hstep]; exact hlater), hstep,
    hreadable, placeAll_nil] at hcollect
  refine hcollect.trans ?_
  simp [Cells.contents, Cells.empty]

/-- A read makes no difference to a read in the same or a later step. -/
theorem Mirrors.collect_collect (hr : r.Mirrors selector count length h)
    {now later : Int} (hle : now.tdiv length ≤ later.tdiv length) :
    ((r.collect now).2.collect later).1 = (r.collect later).1 := by
  have hafter := (hr.perform now .collect).collect_fst later
  have hmax : max (max h.step (now.tdiv length)) (later.tdiv length) =
      max h.step (later.tdiv length) := by omega
  rw [hr.collect_fst later]
  refine hafter.trans ?_
  simp only [ReservoirHistory.next, ReservoirHistory.readable, hmax]

end Mirrors

/-! ### Runs -/

theorem run_mirrors (selector : CellChoice) (count : Nat) (step : Duration)
    (start : Int) (commands : List (Int × ReservoirCommand)) :
    ((create selector count step start).run commands).Mirrors selector
      (cellsFor selector count) (StepTracker.lengthMillis step)
      (ReservoirHistory.of (StepTracker.lengthMillis step) start commands) :=
  (mirrors_create selector count step start).run commands

/-- A reservoir is refined by its history, for every order of operations,
every move of the clock, every change of context and all draws of chance.  An
offer without a context changes nothing.  Both reads show measurements of the
step before that were not drained: by bucket the latest of each bucket, by
chance different ones and as many as fit.  Reading again in the same step
shows the same, after a drain nothing, and a read makes no difference to
later ones. -/
theorem run_refines_samples (selector : CellChoice) (count : Nat)
    (step : Duration) (start now : Int)
    (commands : List (Int × ReservoirCommand)) :
    let length := StepTracker.lengthMillis step
    let r := (create selector count step start).run commands
    let h := ReservoirHistory.of length start commands
    let present := max h.step (now.tdiv length)
    let kept := (h.readable (now.tdiv length)).map Candidate.exemplar
    let read := (r.collect now).1
    (∀ draw value, r.offer now none draw value = r) ∧
    (r.drain now).1 = read ∧
    (∀ bounds, selector = .buckets bounds →
      bounds.toList.Pairwise (· ≤ ·) → bounds.back? = some (1.0 / 0.0) →
      read = (List.range bounds.size).filterMap fun bucket =>
        (kept.filter fun e => decide
          (firstNotBelow bounds e.value = bucket)).getLast?) ∧
    (selector = .random →
      read.Subperm kept ∧ read.length = min kept.length (max count 1) ∧
      (kept.length ≤ max count 1 → read = kept)) ∧
    (∀ more later, (∀ c ∈ more, c.1.tdiv length ≤ present) →
      later.tdiv length ≤ present →
      (((r.drain now).2.run more).collect later).1 = [] ∧
      ((∀ c ∈ more, c.2 ≠ .drain) →
        (((r.collect now).2.run more).collect later).1 = read)) ∧
    ∀ later, now.tdiv length ≤ later.tdiv length →
      ((r.collect now).2.collect later).1 = (r.collect later).1 := by
  intro length r h present kept read
  have hr : r.Mirrors selector (cellsFor selector count) length h :=
    run_mirrors selector count step start commands
  have hread := hr.collect_fst now
  refine ⟨fun draw value => rfl, rfl, ?_, ?_, ?_, ?_⟩
  · rintro bounds rfl hascending hbounds
    have hcells : cellsFor (.buckets bounds) count = bounds.size := by
      have hlt := BucketCounts.bucketOf_lt hbounds 0
      rw [cellsFor]
      omega
    rw [hcells, contents_placeAll_buckets hascending hbounds] at hread
    exact hread
  · rintro rfl
    have hkept := contents_placeAll_random (cellsFor .random count)
      (h.readable (now.tdiv length))
    rw [← hread] at hkept
    exact hkept
  · intro more later hmore hlater
    exact ⟨hr.collect_of_drain hmore hlater,
      fun hundrained => hr.collect_of_collect hmore hundrained hlater⟩
  · exact fun later hle => hr.collect_collect hle

/-- The later of two measurements in a bucket is read, and one of another
bucket; a measurement without a context does not count, and nothing is left
after a drain. -/
theorem run_refines_samples_buckets :
    let bounds := #[10.0, 100.0, 1.0 / 0.0]
    let context := TraceContext.empty
    let r := (create (.buckets bounds) 4 (.ofSeconds 60) 0).run
      [(1000, .offer (some context) id 5.0), (2000, .offer none id 6.0),
       (3000, .offer (some context) id 7.0), (500, .collect),
       (4000, .offer (some context) id 500.0)]
    (r.collect 61000).1.map Exemplar.timeNanos = [3000000000, 4000000000] ∧
      ((r.drain 61000).2.collect 62000).1 = [] := by
  intro bounds context r
  have hrefines := run_refines_samples (.buckets bounds) 4 (.ofSeconds 60) 0
    61000 [(1000, .offer (some context) id 5.0),
      (2000, .offer none id 6.0), (3000, .offer (some context) id 7.0),
      (500, .collect), (4000, .offer (some context) id 500.0)]
  obtain ⟨_, _, hbuckets, _, hafter, _⟩ := hrefines
  have hascending : bounds.toList.Pairwise (· ≤ ·) := by decide +kernel
  constructor
  · rw [hbuckets bounds rfl hascending rfl]
    decide +kernel
  · exact (hafter [] 62000 (by simp) (by decide +kernel)).1

end Reservoir

end WindowedMetrics
