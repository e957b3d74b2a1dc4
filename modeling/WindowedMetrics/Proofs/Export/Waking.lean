/-
The waits of the publisher.  It cuts time at the multiples of a step, while
trackers count steps toward zero: how many steps a wait passes is decided by
the length of a step and the side of the epoch.
-/
import WindowedMetrics.Export.Publication

namespace WindowedMetrics

namespace ExportSettings

/-- The wall time of a publisher that is never late, after some waits. -/
def wakeTime (c : ExportSettings) (start : Int) : Nat → Int
  | 0 => start
  | waits + 1 =>
      c.wakeTime start waits + (c.wakeDelay (c.wakeTime start waits)).millis

/-- A tracker that is advanced at every wake. -/
def trackerAt (c : ExportSettings) (start : Int) : Nat → StepTracker
  | 0 => StepTracker.starting c.step start
  | waits + 1 =>
      (c.trackerAt start waits).advance (c.wakeTime start (waits + 1))

/-- How many steps a wait passes.  The step around the epoch has twice the
length of the others, so a wait within it before the epoch ends in it; a wait
from a boundary before it, and every wait if steps have one millisecond,
passes two. -/
def stepsAhead (length now : Int) : Int :=
  if -length < now ∧ now < 0 then 0
  else if length = 1 ∨ now < -length ∧ now % length = 0 then 2
  else 1

/-- A wait ends one millisecond into the next multiple of a step. -/
theorem wakeTime_succ (c : ExportSettings) (start : Int) (waits : Nat) :
    c.wakeTime start (waits + 1) =
      StepTracker.lengthMillis c.step *
        (c.wakeTime start waits / StepTracker.lengthMillis c.step + 1) + 1 := by
  have hpos : 0 < StepTracker.lengthMillis c.step :=
    Int.lt_of_lt_of_le Int.one_pos (Int.le_max_right _ _)
  have hdelay (n : Nat) : (Duration.ofMillis n).millis = n :=
    Nat.mul_div_cancel n (by decide)
  rw [wakeTime, wakeDelay, hdelay]
  generalize c.wakeTime start waits = now
  generalize StepTracker.lengthMillis c.step = length at hpos
  have hrest := Int.emod_lt_of_pos now hpos
  have hsplit := Int.mul_ediv_add_emod now length
  rw [Int.toNat_of_nonneg (by omega), Int.mul_add, Int.mul_one]
  omega

end ExportSettings

/-- The step that the publisher wakes in, counted toward zero. -/
theorem tdiv_wake {length : Int} (hlength : 0 < length) (now : Int) :
    (length * (now / length + 1) + 1).tdiv length =
      now.tdiv length + ExportSettings.stepsAhead length now := by
  have hne : length ≠ 0 := Int.ne_of_gt hlength
  have hsplit := Int.mul_ediv_add_emod now length
  have hrest := Int.emod_nonneg now hne
  have hbelow := Int.emod_lt_of_pos now hlength
  unfold ExportSettings.stepsAhead
  rcases (by omega : length = 1 ∨ 2 ≤ length) with rfl | hlong
  · rw [if_neg (by omega), if_pos (Or.inl rfl), Int.tdiv_one, Int.tdiv_one]
    omega
  · have hpast (k : Int) : (length * k + 1) / length = k ∧
        (length * k + 1) % length = 1 := by
      rw [Int.add_comm, Int.add_mul_ediv_left _ _ hne,
        Int.add_mul_emod_self_left, Int.emod_eq_of_lt (by decide) (by omega),
        Int.ediv_eq_zero_of_lt (by decide) (by omega), Int.zero_add]
      exact ⟨rfl, rfl⟩
    have hsign : length.sign = 1 := Int.sign_eq_one_of_pos hlength
    simp only [Int.tdiv_eq_ediv, hsign, Int.dvd_iff_emod_eq_zero, hpast]
    rcases Int.lt_trichotomy (now / length) (-1) with hearly | hlast | hlate
    · have hfar := Int.mul_le_mul_of_nonneg_left
        (by omega : now / length + 1 ≤ -1) (Int.le_of_lt hlength)
      have hnow : length * (now / length) ≤ length * -2 :=
        Int.mul_le_mul_of_nonneg_left (by omega) (Int.le_of_lt hlength)
      split <;> split <;> split <;> omega
    · rw [hlast] at hsplit ⊢
      split <;> split <;> split <;> omega
    · have hnow := Int.mul_nonneg (Int.le_of_lt hlength)
        (by omega : 0 ≤ now / length)
      have hfar := Int.mul_nonneg (Int.le_of_lt hlength)
        (by omega : 0 ≤ now / length + 1)
      split <;> split <;> split <;> omega

namespace ExportSettings

/-- A wait passes as many steps as the length of a step and the side of the
epoch say. -/
theorem stepAt_wakeTime_succ (c : ExportSettings) (start : Int) (waits : Nat) :
    (c.wakeTime start (waits + 1)).tdiv (StepTracker.lengthMillis c.step) =
      (c.wakeTime start waits).tdiv (StepTracker.lengthMillis c.step) +
        stepsAhead (StepTracker.lengthMillis c.step)
          (c.wakeTime start waits) := by
  rw [wakeTime_succ]
  exact tdiv_wake (Int.lt_of_lt_of_le Int.one_pos (Int.le_max_right _ _)) _

theorem stepsAhead_of_nonneg {length now : Int} (hlength : 2 ≤ length)
    (hnow : 0 ≤ now) : stepsAhead length now = 1 := by
  unfold stepsAhead
  rw [if_neg (by omega), if_neg (by omega)]

theorem wakeTime_nonneg (c : ExportSettings) {start : Int} (hstart : 0 ≤ start)
    (waits : Nat) : 0 ≤ c.wakeTime start waits := by
  induction waits with
  | zero => exact hstart
  | succ waits ih => exact Int.add_nonneg ih (Int.natCast_nonneg _)

theorem stepMillis_trackerAt (c : ExportSettings) (start : Int) (waits : Nat) :
    (c.trackerAt start waits).stepMillis = StepTracker.lengthMillis c.step := by
  induction waits with
  | zero => rfl
  | succ waits ih =>
      rw [trackerAt, StepTracker.stepMillis_advance]
      exact ih

section FromEpoch

variable (c : ExportSettings) {start : Int} (hstart : 0 ≤ start)
  (hlength : 2 ≤ StepTracker.lengthMillis c.step)

include hstart hlength

/-- From the epoch on, every wait passes one step. -/
theorem tdiv_wakeTime (waits : Nat) :
    (c.wakeTime start waits).tdiv (StepTracker.lengthMillis c.step) =
      start.tdiv (StepTracker.lengthMillis c.step) + waits := by
  induction waits with
  | zero => exact (Int.add_zero _).symm
  | succ waits ih =>
      rw [stepAt_wakeTime_succ, ih,
        stepsAhead_of_nonneg hlength (c.wakeTime_nonneg hstart waits)]
      omega

/-- A tracker that is advanced at every wake is in the step of the last. -/
theorem current_trackerAt (waits : Nat) :
    (c.trackerAt start waits).current =
      start.tdiv (StepTracker.lengthMillis c.step) + waits := by
  induction waits with
  | zero => exact (Int.add_zero _).symm
  | succ waits ih =>
      rw [trackerAt, StepTracker.current_advance, StepTracker.stepAt,
        stepMillis_trackerAt, tdiv_wakeTime c hstart hlength, ih]
      omega

end FromEpoch

/-- The publisher's waits and the trackers' steps.  A wait from any time
passes as many steps as `stepsAhead` says.  So from the epoch on and with
steps of two milliseconds or more, every wake finds exactly one rollover due,
to the step after the one before: no step is skipped and none is visited
twice. -/
theorem publisher_visits_steps (c : ExportSettings) (start : Int) :
    let length := StepTracker.lengthMillis c.step
    let tracker := StepTracker.starting c.step start
    tracker.stepAt (start + (c.wakeDelay start).millis) =
        tracker.current + stepsAhead length start ∧
      (0 ≤ start → 2 ≤ length → ∀ waits : Nat,
        (c.trackerAt start waits).due? (c.wakeTime start (waits + 1)) =
          some ⟨tracker.current + waits, tracker.current + waits + 1⟩) := by
  intro length tracker
  refine ⟨c.stepAt_wakeTime_succ start 0, fun hstart hlength waits => ?_⟩
  have hcurrent := c.current_trackerAt hstart hlength waits
  have hnext := c.tdiv_wakeTime hstart hlength (waits + 1)
  rw [StepTracker.due?, StepTracker.stepAt, stepMillis_trackerAt, hcurrent,
    hnext, if_pos (by omega), Int.natCast_add_one, ← Int.add_assoc]
  rfl

/-- With one-minute steps, the third wake of a publisher that starts in the
second step finds the rollover from the fourth step to the fifth. -/
theorem publisher_visits_steps_of_minutes :
    (standard.trackerAt 90000 2).due? (standard.wakeTime 90000 3) =
      some ⟨3, 4⟩ :=
  (publisher_visits_steps standard 90000).2 (by decide) (by decide) 2

/-- Not every wait passes one step.  With one-minute steps, a wait in the last
minute before the epoch passes none, and one from a boundary before it two;
with steps of a millisecond every wait passes two. -/
theorem exists_wait_off_by_one :
    let minutes := { standard with step := .ofSeconds 60 }
    let millis := { standard with step := .ofMillis 1 }
    let before := fun (c : ExportSettings) (now : Int) =>
      (StepTracker.starting c.step now).current
    let after := fun (c : ExportSettings) (now : Int) =>
      (StepTracker.starting c.step now).stepAt
        (now + (c.wakeDelay now).millis)
    (before minutes (-1) = 0 ∧ after minutes (-1) = 0) ∧
      (before minutes (-120000) = -2 ∧ after minutes (-120000) = 0) ∧
      (before millis 0 = 0 ∧ after millis 0 = 2) := by
  decide

end ExportSettings

end WindowedMetrics
