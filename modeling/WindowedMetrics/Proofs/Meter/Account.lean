/-
Accounts of function meters.  An account keeps of a run what its function
meter shows: the readings at the two ends of the step that was closed last.
It covers all runs, also those that leave steps untouched, go back in time or
close the meter.
-/
import WindowedMetrics.Proofs.Meter.Telescoping
import WindowedMetrics.Proofs.Meter.Windows

namespace WindowedMetrics

/-! ### Accounts -/

/-- The step that a run is in, the reading that was noted last, and the
readings at the ends of the step that is shown, if it was closed with one. -/
structure Account (A : Type) where
  step : Int
  noted : A
  shown : Option (A × A)

namespace Account

variable {A B : Type}

/-- A touch in a later step is a rollover.  It shows what was noted before
and the reading, unless a whole step went by in between. -/
def touch (a : Account A) (step : Int) (reading : Option A) : Account A :=
  if a.step < step then
    { step := step
      noted := reading.getD a.noted
      shown := if step = a.step + 1 then reading.map (a.noted, ·) else none }
  else a

theorem touch_of_lt {a : Account A} {step : Int} (hlater : a.step < step)
    (reading : Option A) :
    a.touch step reading =
      ⟨step, reading.getD a.noted,
        if step = a.step + 1 then reading.map (a.noted, ·) else none⟩ :=
  if_pos hlater

theorem touch_of_le {a : Account A} {step : Int} (hle : step ≤ a.step)
    (reading : Option A) : a.touch step reading = a :=
  if_neg (Int.not_lt.mpr hle)

theorem le_step_touch (a : Account A) (step : Int) (reading : Option A) :
    step ≤ (a.touch step reading).step := by
  unfold touch
  split
  · exact Int.le_refl step
  · next hle => exact Int.not_lt.mp hle

/-- A closed meter shows the reading against what was noted before.  After
that no step begins and nothing else is shown. -/
def shut (a : Account A) (reading : Option A) : Account A where
  step := StepTracker.closedStep
  noted := reading.getD a.noted
  shown :=
    if a.step = StepTracker.closedStep then a.shown
    else reading.map (a.noted, ·)

theorem shut_of_open {a : Account A} (h : a.step ≠ StepTracker.closedStep)
    (reading : Option A) :
    a.shut reading = ⟨StepTracker.closedStep, reading.getD a.noted,
      reading.map (a.noted, ·)⟩ := by
  rw [shut, if_neg h]

theorem shut_of_closed {a : Account A} (h : a.step = StepTracker.closedStep)
    (reading : Option A) :
    a.shut reading =
      ⟨StepTracker.closedStep, reading.getD a.noted, a.shown⟩ := by
  rw [shut, if_pos h]

/-- Closing touches the step first, so that the reading may be noted by the
touch already. -/
def close (a : Account A) (step : Int) (reading : Option A) : Account A :=
  (a.touch step reading).shut reading

/-- The account goes on by a use. -/
def next (length : Int) (reading : Moment → Option A) (a : Account A)
    (u : TimedUse) : Account A :=
  match u.use with
  | .close => a.close (u.stepIn length) (reading u.moment)
  | _ =>
      if u.touches then a.touch (u.stepIn length) (reading u.moment) else a

/-- The account of a run in steps of `length` milliseconds. -/
def of (nothing : A) (length start : Int) (reading : Moment → Option A)
    (uses : List TimedUse) : Account A :=
  uses.foldl (next length reading) ⟨start.tdiv length, nothing, none⟩

/-- The amount that is shown. -/
def amount (r : Reckoning A) (a : Account A) : A :=
  a.shown.elim r.nothing fun ends => r.increase ends.1 ends.2

section Uses

variable {nothing : A} {length start : Int} {reading : Moment → Option A}
  {uses : List TimedUse} {u : TimedUse}

theorem of_append_singleton :
    of nothing length start reading (uses ++ [u]) =
      (of nothing length start reading uses).next length reading u := by
  simp [of]

theorem next_of_close (a : Account A) (hclose : u.use = .close) :
    a.next length reading u =
      a.close (u.stepIn length) (reading u.moment) := by
  simp only [next, hclose]

theorem next_of_touches (a : Account A) (htouches : u.touches = true) :
    a.next length reading u =
      a.touch (u.stepIn length) (reading u.moment) := by
  obtain ⟨m, use⟩ := u
  rcases use with _ | _ | ⟨_ | _⟩ | _ | _ | _
  all_goals first | rfl | cases htouches

theorem next_of_not_touches (a : Account A) (htouches : u.touches = false)
    (hopen : u.use ≠ .close) : a.next length reading u = a := by
  obtain ⟨m, use⟩ := u
  rcases use with _ | _ | ⟨_ | _⟩ | _ | _ | _
  all_goals first | rfl | exact absurd rfl hopen | cases htouches

end Uses

/-! ### What is noted -/

/-- All readings that an account still has. -/
structure AllNoted (P : A → Prop) (a : Account A) : Prop where
  noted : P a.noted
  shown : ∀ ends ∈ a.shown, P ends.1 ∧ P ends.2

section Noted

variable {P : A → Prop} {a : Account A} (h : a.AllNoted P)
  {reading : Option A} (hreading : ∀ total ∈ reading, P total)

include h hreading

theorem AllNoted.getD : P (reading.getD a.noted) := by
  cases reading with
  | none => exact h.noted
  | some total => exact hreading total rfl

theorem AllNoted.ends : ∀ ends ∈ reading.map (a.noted, ·),
    P ends.1 ∧ P ends.2 := by
  intro ends hends
  obtain ⟨total, htotal, rfl⟩ := Option.map_eq_some_iff.mp hends
  exact ⟨h.noted, hreading total htotal⟩

theorem AllNoted.touch (step : Int) : (a.touch step reading).AllNoted P := by
  unfold Account.touch
  split
  · refine ⟨h.getD hreading, ?_⟩
    dsimp only
    split
    · exact h.ends hreading
    · rintro _ ⟨⟩
  · exact h

theorem AllNoted.shut : (a.shut reading).AllNoted P := by
  by_cases hclosed : a.step = StepTracker.closedStep
  · rw [shut_of_closed hclosed]
    exact ⟨h.getD hreading, h.shown⟩
  · rw [shut_of_open hclosed]
    exact ⟨h.getD hreading, h.ends hreading⟩

end Noted

theorem allNoted_of {P : A → Prop} {nothing : A} {length start : Int}
    {reading : Moment → Option A} {uses : List TimedUse}
    (hnothing : P nothing)
    (hreading : ∀ u ∈ uses, ∀ total ∈ reading u.moment, P total) :
    (of nothing length start reading uses).AllNoted P := by
  induction uses using List.reverseRecOn with
  | nil => exact ⟨hnothing, by rintro _ ⟨⟩⟩
  | append_singleton before u ih =>
      have hbefore := ih fun v hv => hreading v (List.mem_append_left [u] hv)
      have hlast := hreading u (by simp)
      rw [of_append_singleton]
      unfold next
      split
      · exact (hbefore.touch hlast _).shut hlast
      · split
        · exact hbefore.touch hlast _
        · exact hbefore

/-! ### Readings of another kind -/

/-- An account of readings as one of what they stand for. -/
def map (f : A → B) (a : Account A) : Account B :=
  ⟨a.step, f a.noted, a.shown.map (Prod.map f f)⟩

theorem map_ends (f : A → B) (noted : A) (reading : Option A) :
    (reading.map (noted, ·)).map (Prod.map f f) =
      (reading.map f).map (f noted, ·) := by
  cases reading <;> rfl

theorem map_touch (f : A → B) (a : Account A) (step : Int)
    (reading : Option A) :
    (a.touch step reading).map f = (a.map f).touch step (reading.map f) := by
  by_cases hlater : a.step < step
  · rw [touch_of_lt hlater,
      touch_of_lt (show (a.map f).step < step from hlater)]
    simp only [map, Option.getD_map]
    by_cases hnext : step = a.step + 1
    · simp only [hnext, if_true, map_ends]
    · simp only [hnext, if_false, Option.map_none]
  · rw [touch_of_le (Int.not_lt.mp hlater),
      touch_of_le (show step ≤ (a.map f).step from Int.not_lt.mp hlater)]

theorem map_shut (f : A → B) (a : Account A) (reading : Option A) :
    (a.shut reading).map f = (a.map f).shut (reading.map f) := by
  by_cases hclosed : a.step = StepTracker.closedStep
  · rw [shut_of_closed hclosed,
      shut_of_closed (show (a.map f).step = _ from hclosed)]
    simp only [map, Option.getD_map]
  · rw [shut_of_open hclosed,
      shut_of_open (show (a.map f).step ≠ _ from hclosed)]
    simp only [map, Option.getD_map, map_ends]

theorem map_of (f : A → B) {nothing : A} {length start : Int}
    {reading : Moment → Option A} {given : Moment → Option B}
    {uses : List TimedUse}
    (hgiven : ∀ u ∈ uses, given u.moment = (reading u.moment).map f) :
    (of nothing length start reading uses).map f =
      of (f nothing) length start given uses := by
  induction uses using List.reverseRecOn with
  | nil => rfl
  | append_singleton before u ih =>
      have hbefore := ih fun v hv => hgiven v (List.mem_append_left [u] hv)
      have hlast := hgiven u (by simp)
      rw [of_append_singleton, of_append_singleton, ← hbefore]
      unfold next
      rw [hlast]
      split
      · rw [close, map_shut, map_touch, close]
      · split
        · exact map_touch f _ _ _
        · rfl

end Account

/-! ### Windows keep accounts -/

/-- How the increases of readings add up in a window: each step has one. -/
def Accumulator.reckoning {V : Type} (acc : Accumulator V)
    (increase : V → V → V) : Reckoning V :=
  ⟨acc.identity, fun previous total =>
    acc.merge acc.identity (increase previous total)⟩

namespace RollingWindow

variable {V : Type} {acc : Accumulator V} (w : RollingWindow acc)

theorem record_of_le {now : Int}
    (hle : w.tracker.stepAt now ≤ w.tracker.current) (value : V) :
    w.record now value = { w with current := acc.merge w.current value } := by
  rw [record, rollover, w.rolloverWith_of_le hle]

theorem close_of_closed (h : w.tracker.current = StepTracker.closedStep) :
    w.close = w :=
  if_pos (decide_eq_true h)

theorem close_of_open (h : w.tracker.current ≠ StepTracker.closedStep) :
    w.close = ⟨w.tracker.close, acc.identity, w.current⟩ :=
  if_neg (by simp [StepTracker.isClosed, h])

end RollingWindow

namespace Sampling

variable {V : Type} {acc : Accumulator V} {increase : V → V → V}
  {s : Sampling acc} {length : Int} {a : Account V}

/-- The sampling after its window closes, which takes the increase of the
reading and shows it as the last step. -/
def shut (increase : V → V → V) (s : Sampling acc) (now : Int)
    (reading : Option V) : Sampling acc :=
  match reading with
  | none => ⟨s.baseline, s.window.close⟩
  | some reading =>
      ⟨reading, (s.window.record now (increase s.baseline reading)).close⟩

/-- A window in the step of an account shows its amount.  What a closed
window still takes stays in a step that never ends. -/
structure Keeps (s : Sampling acc) (increase : V → V → V) (length : Int)
    (a : Account V) : Prop where
  length_eq : s.window.tracker.stepMillis = length
  step_eq : s.window.tracker.current = a.step
  baseline_eq : s.baseline = a.noted
  current_eq : a.step < StepTracker.closedStep →
    s.window.current = acc.identity
  previous_eq : s.window.previous = a.amount (acc.reckoning increase)
  step_le : a.step ≤ StepTracker.closedStep

theorem Keeps.poll (h : s.Keeps increase length a) (hlength : 0 < length)
    {now : Int} (hnow : now ≤ maxInt64) (reading : Option V) :
    (s.poll increase now reading).2.Keeps increase length
      (a.touch (now.tdiv length) reading) := by
  have hat : s.window.tracker.stepAt now = now.tdiv length := by
    rw [StepTracker.stepAt, h.length_eq]
  have hlimit := tdiv_le_closedStep hlength hnow
  by_cases hlater : a.step < now.tdiv length
  · have hcurrent := h.current_eq (Int.lt_of_lt_of_le hlater hlimit)
    rw [poll_of_lt increase s (by rw [hat, h.step_eq]; exact hlater),
      Account.touch_of_lt hlater, hat, h.step_eq, hcurrent, h.baseline_eq]
    refine ⟨h.length_eq, rfl, rfl, fun _ => rfl, ?_, hlimit⟩
    by_cases hnext : now.tdiv length = a.step + 1
    · simp only [if_pos hnext]
      cases reading <;> rfl
    · simp only [if_neg hnext]
      rfl
  · rw [poll_of_le increase s (by rw [hat, h.step_eq]; omega),
      Account.touch_of_le (Int.not_lt.mp hlater)]
    exact h

/-- Closing an open window shows the increase of the last reading since the
baseline; closing it again changes nothing that is shown. -/
theorem Keeps.shut (h : s.Keeps increase length a) {now : Int}
    (hseen : now.tdiv length ≤ a.step) (reading : Option V) :
    (s.shut increase now reading).Keeps increase length (a.shut reading) := by
  have hle : s.window.tracker.stepAt now ≤ s.window.tracker.current := by
    rw [StepTracker.stepAt, h.length_eq, h.step_eq]
    exact hseen
  have hnever {p : Prop}
      (hopen : StepTracker.closedStep < StepTracker.closedStep) : p :=
    absurd hopen (Int.lt_irrefl _)
  unfold Sampling.shut
  by_cases hclosed : a.step = StepTracker.closedStep
  · have hcurrent : s.window.tracker.current = StepTracker.closedStep :=
      h.step_eq.trans hclosed
    rw [Account.shut_of_closed hclosed]
    cases reading with
    | none =>
        dsimp only
        rw [s.window.close_of_closed hcurrent]
        exact ⟨h.length_eq, hcurrent, h.baseline_eq, hnever, h.previous_eq,
          Int.le_refl _⟩
    | some total =>
        have hrecord := s.window.record_of_le hle (increase s.baseline total)
        dsimp only
        rw [(s.window.record now _).close_of_closed
          (by rw [hrecord]; exact hcurrent), hrecord]
        exact ⟨h.length_eq, hcurrent, rfl, hnever, h.previous_eq,
          Int.le_refl _⟩
  · have hcurrent : s.window.tracker.current ≠ StepTracker.closedStep := by
      rw [h.step_eq]
      exact hclosed
    have hnothing : s.window.current = acc.identity :=
      h.current_eq (lt_of_le_of_ne h.step_le hclosed)
    rw [Account.shut_of_open hclosed]
    cases reading with
    | none =>
        dsimp only
        rw [s.window.close_of_open hcurrent]
        exact ⟨h.length_eq, rfl, h.baseline_eq, hnever, hnothing,
          Int.le_refl _⟩
    | some total =>
        have hrecord := s.window.record_of_le hle (increase s.baseline total)
        dsimp only
        rw [(s.window.record now _).close_of_open
          (by rw [hrecord]; exact hcurrent), hrecord]
        refine ⟨h.length_eq, rfl, rfl, hnever, ?_, Int.le_refl _⟩
        simp only [hnothing, h.baseline_eq]
        rfl

theorem keeps_starting (acc : Accumulator V) (increase : V → V → V)
    (step : Duration) {start : Int} (hstart : start ≤ maxInt64) :
    Sampling.Keeps ⟨acc.identity, RollingWindow.starting acc step start⟩
      increase (StepTracker.lengthMillis step)
      ⟨start.tdiv (StepTracker.lengthMillis step), acc.identity, none⟩ :=
  ⟨rfl, rfl, rfl, fun _ => rfl, rfl,
    tdiv_le_closedStep (StepTracker.timed_starting step start) hstart⟩

/-- What is shown at a time is the amount of the account touched then. -/
theorem Keeps.poll_fst (h : s.Keeps increase length a) (hlength : 0 < length)
    {now : Int} (hnow : now ≤ maxInt64) (reading : Option V) :
    (s.poll increase now reading).1 =
      (a.touch (now.tdiv length) reading).amount (acc.reckoning increase) := by
  rw [Sampling.poll_fst]
  exact (h.poll hlength hnow reading).previous_eq

end Sampling

/-! ### Function meters keep accounts -/

theorem FunctionCounter.closeReading_eq (f : FunctionCounter) (now : Int)
    (reading : Option Float) :
    let s := (f.sampling.poll increase now reading).2.shut increase now reading
    f.closeReading now reading =
      { f with baseline := s.baseline, step := s.window } := by
  unfold closeReading
  rw [pollReading_eq]
  cases reading <;> rfl

theorem FunctionTimer.closeReading_eq (f : FunctionTimer) (now : Int)
    (reading : Option (Float × Float)) :
    let s := (f.sampling.poll increaseBoth now reading).2.shut increaseBoth now
      reading
    f.closeReading now reading =
      { f with
        countBaseline := s.baseline.1
        totalBaseline := s.baseline.2
        step := s.window } := by
  unfold closeReading
  rw [pollReading_eq]
  cases reading <;> rfl

section Runs

variable {length : Int} (hlength : 0 < length)

include hlength

/-- A use of a function counter is one of its account, and leaves the
source. -/
theorem FunctionCounter.keeps_use {f : FunctionCounter} {a : Account Float}
    (h : f.sampling.Keeps increase length a) {u : TimedUse}
    (hnow : u.moment.now ≤ maxInt64) :
    (f.use u).source = f.source ∧
      (f.use u).sampling.Keeps increase length
        (a.next length (given f.source) u) := by
  by_cases hclose : u.use = .close
  · have huse : f.use u =
        f.closeReading u.moment.now (given f.source u.moment) := by
      simp only [use, hclose]
      rfl
    rw [huse, closeReading_eq, Account.next_of_close a hclose]
    exact ⟨rfl, (h.poll hlength hnow _).shut (Account.le_step_touch ..) _⟩
  · rcases htouches : u.touches with _ | _
    · rw [use_of_not_touches htouches hclose,
        Account.next_of_not_touches a htouches hclose]
      exact ⟨rfl, h⟩
    · rw [use_of_touches htouches, pollReading_eq,
        Account.next_of_touches a htouches]
      exact ⟨rfl, h.poll hlength hnow _⟩

/-- A use of a function timer is one of its account, and leaves the
sources. -/
theorem FunctionTimer.keeps_use {f : FunctionTimer}
    {a : Account (Float × Float)}
    (h : f.sampling.Keeps increaseBoth length a) {u : TimedUse}
    (hnow : u.moment.now ≤ maxInt64) :
    f.SameSources (f.use u) ∧
      (f.use u).sampling.Keeps increaseBoth length
        (a.next length (fun m => f.readings? m.readings) u) := by
  by_cases hclose : u.use = .close
  · have huse : f.use u =
        f.closeReading u.moment.now (f.readings? u.moment.readings) := by
      simp only [use, hclose]
      rfl
    rw [huse, closeReading_eq, Account.next_of_close a hclose]
    exact ⟨⟨rfl, rfl, rfl⟩,
      (h.poll hlength hnow _).shut (Account.le_step_touch ..) _⟩
  · rcases htouches : u.touches with _ | _
    · rw [use_of_not_touches htouches hclose,
        Account.next_of_not_touches a htouches hclose]
      exact ⟨⟨rfl, rfl, rfl⟩, h⟩
    · rw [use_of_touches htouches, pollReading_eq,
        Account.next_of_touches a htouches]
      exact ⟨⟨rfl, rfl, rfl⟩, h.poll hlength hnow _⟩

end Runs

section Runs

variable {c : RegistrySettings} {start : Int} (hstart : start ≤ maxInt64)
  {uses : List TimedUse} (hnow : ∀ u ∈ uses, u.moment.now ≤ maxInt64)

include hstart hnow

theorem FunctionCounter.keeps_useAll (source : Source) :
    ((create source c start).useAll uses).source = source ∧
      ((create source c start).useAll uses).sampling.Keeps increase
        (StepTracker.lengthMillis c.step)
        (Account.of 0.0 (StepTracker.lengthMillis c.step) start (given source)
          uses) := by
  induction uses using List.reverseRecOn with
  | nil => exact ⟨rfl, Sampling.keeps_starting _ increase c.step hstart⟩
  | append_singleton before u ih =>
      obtain ⟨hsource, hkeeps⟩ := ih fun v hv =>
        hnow v (List.mem_append_left [u] hv)
      have huse : (create source c start).useAll (before ++ [u]) =
          ((create source c start).useAll before).use u := by
        simp [useAll]
      obtain ⟨hsame, hnext⟩ :=
        keeps_use (StepTracker.timed_starting c.step start) hkeeps
          (hnow u (by simp))
      rw [huse, Account.of_append_singleton]
      rw [hsource] at hsame hnext
      exact ⟨hsame, hnext⟩

theorem FunctionTimer.keeps_useAll (count total : Source) (unit : TimeUnit) :
    let f := create count total unit c start
    f.SameSources (f.useAll uses) ∧
      (f.useAll uses).sampling.Keeps increaseBoth
        (StepTracker.lengthMillis c.step)
        (Account.of (0.0, 0.0) (StepTracker.lengthMillis c.step) start
          (fun m => f.readings? m.readings) uses) := by
  intro f
  induction uses using List.reverseRecOn with
  | nil =>
      exact ⟨⟨rfl, rfl, rfl⟩,
        Sampling.keeps_starting _ increaseBoth c.step hstart⟩
  | append_singleton before u ih =>
      obtain ⟨hsources, hkeeps⟩ := ih fun v hv =>
        hnow v (List.mem_append_left [u] hv)
      have huse : f.useAll (before ++ [u]) = (f.useAll before).use u := by
        simp [useAll]
      obtain ⟨hsame, hnext⟩ :=
        keeps_use (StepTracker.timed_starting c.step start) hkeeps
          (hnow u (by simp))
      rw [huse, Account.of_append_singleton]
      simp only [hsources.readings?_eq] at hnext
      exact ⟨⟨hsame.1.trans hsources.1, hsame.2.1.trans hsources.2.1,
        hsame.2.2.trans hsources.2.2⟩, hnext⟩

variable {m : Moment} (hm : m.now ≤ maxInt64)

include hm

/-- What a function counter shows of a run is the amount of the account. -/
theorem FunctionCounter.value_eq_amount (source : Source) :
    (((create source c start).useAll uses).value .delta m).1 =
      ((Account.of 0.0 (StepTracker.lengthMillis c.step) start (given source)
        uses).touch (m.now.tdiv (StepTracker.lengthMillis c.step))
          (given source m)).amount
        (Accumulator.doubleSum.reckoning increase) := by
  obtain ⟨hsource, hkeeps⟩ := keeps_useAll hstart hnow (c := c) source
  rw [← hkeeps.poll_fst (StepTracker.timed_starting c.step start) hm, value,
    pollReading_eq]
  simp only [given, hsource]

/-- What a function timer shows of a run is the amount of the account. -/
theorem FunctionTimer.values_eq_amount (count total : Source)
    (unit : TimeUnit) :
    let f := create count total unit c start
    ((f.useAll uses).values .delta m).1 =
      ((Account.of (0.0, 0.0) (StepTracker.lengthMillis c.step) start
        (fun m => f.readings? m.readings) uses).touch
          (m.now.tdiv (StepTracker.lengthMillis c.step))
          (f.readings? m.readings)).amount
        (twoSums.reckoning increaseBoth) := by
  intro f
  obtain ⟨hsources, hkeeps⟩ :=
    keeps_useAll hstart hnow (c := c) count total unit
  have hread : (f.useAll uses).readings? m.readings = f.readings? m.readings :=
    hsources.readings?_eq m.readings
  rw [← hkeeps.poll_fst (StepTracker.timed_starting c.step start) hm, values,
    pollReading_eq, hread]

end Runs

end WindowedMetrics
