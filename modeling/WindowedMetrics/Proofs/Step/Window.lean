/-
A rolling window against the history of its use.  The two cells of the window
stand for an unbounded log of values by steps: whatever the order of the
operations and the moves of the clock, the current cell is the fold of the
step in progress and the previous one the fold of the step before it.
-/
import WindowedMetrics.Proofs.Step.Log
import WindowedMetrics.Step.Window
import Mathlib.Data.List.Induction

namespace WindowedMetrics

namespace Accumulator

variable {V W : Type}

theorem fold_append (acc : Accumulator V) (values more : List V) :
    acc.fold (values ++ more) = more.foldl acc.merge (acc.fold values) := by
  simp [fold]

/-- A pair folds each side on its own. -/
theorem fold_pair (a : Accumulator V) (b : Accumulator W)
    (values : List (V × W)) :
    (a.pair b).fold values =
      (a.fold (values.map Prod.fst), b.fold (values.map Prod.snd)) := by
  have hfrom : ∀ held : V × W, values.foldl (a.pair b).merge held =
      ((values.map Prod.fst).foldl a.merge held.1,
        (values.map Prod.snd).foldl b.merge held.2) := by
    induction values with
    | nil => intro held; rfl
    | cons head rest ih =>
        intro held
        exact ih ((a.pair b).merge held head)
  exact hfrom (a.identity, b.identity)

end Accumulator

/-- What can be done with a window.  A poll may bring values that are merged
into the step in progress should it close. -/
inductive WindowCommand (V : Type)
  | record (value : V)
  | poll
  | pollAdding (added : List V)
  | latest
  | rollover
  | close

/-- The step of a window and every value with the step it belongs to.  Unlike
the window itself, a history never forgets. -/
structure WindowHistory (V : Type) where
  step : Int
  log : StepLog V

namespace WindowHistory

variable {V : Type}

/-- A history goes on by one command in the step `seen`.  All commands but
`close` see their step; values belong to the latest step seen, those of a poll
to the step that the poll leaves. -/
def next (h : WindowHistory V) (seen : Int) :
    WindowCommand V → WindowHistory V
  | .record value =>
      let step := max h.step seen
      ⟨step, h.log ++ StepLog.ofStep step [value]⟩
  | .pollAdding added =>
      let last := if h.step < seen then StepLog.ofStep h.step added else []
      ⟨max h.step seen, h.log ++ last⟩
  | .close => h
  | _ => ⟨max h.step seen, h.log⟩

/-- The history of commands at wall times, in steps of `length`
milliseconds. -/
def of (length start : Int) (commands : List (Int × WindowCommand V)) :
    WindowHistory V :=
  commands.foldl (fun h c => h.next (c.1.tdiv length) c.2)
    ⟨start.tdiv length, []⟩

theorem of_append_singleton (length start : Int)
    (commands : List (Int × WindowCommand V)) (c : Int × WindowCommand V) :
    of length start (commands ++ [c]) =
      (of length start commands).next (c.1.tdiv length) c.2 := by
  simp [of]

/-- A history stays below a bound that no step seen reaches. -/
theorem step_of_lt (length start bound : Int)
    (commands : List (Int × WindowCommand V))
    (hstart : start.tdiv length < bound)
    (hbelow : ∀ c ∈ commands, c.1.tdiv length < bound) :
    (of length start commands).step < bound := by
  induction commands using List.reverseRecOn with
  | nil => exact hstart
  | append_singleton before c ih =>
      have hbefore := ih fun e he => hbelow e (List.mem_append_left [c] he)
      have hc := hbelow c (by simp)
      rw [of_append_singleton]
      cases c.2 <;> simp only [next] <;> omega

end WindowHistory

namespace RollingWindow

variable {V : Type} {acc : Accumulator V}

/-- Merges values into what a step holds, in order. -/
def adding (acc : Accumulator V) (added : List V) (held : V) : V :=
  added.foldl acc.merge held

/-- The window after a command at a wall time. -/
def perform (w : RollingWindow acc) (now : Int) :
    WindowCommand V → RollingWindow acc
  | .record value => w.record now value
  | .poll => (w.poll now).2
  | .pollAdding added => (w.pollWith now (adding acc added)).2
  | .latest => (w.latest now).2
  | .rollover => w.rollover now
  | .close => w.close

/-- The window after commands at wall times, in any order of times. -/
def run (w : RollingWindow acc) (commands : List (Int × WindowCommand V)) :
    RollingWindow acc :=
  commands.foldl (fun w c => w.perform c.1 c.2) w

theorem run_append (w : RollingWindow acc)
    (commands later : List (Int × WindowCommand V)) :
    w.run (commands ++ later) = (w.run commands).run later := by
  simp [run]

/-! ### What a rollover does -/

theorem tracker_rolloverWith (w : RollingWindow acc) (now : Int)
    (last : V → V) :
    (w.rolloverWith now last).tracker = w.tracker.advance now := by
  unfold rolloverWith StepTracker.advance
  cases w.tracker.due? now <;> rfl

theorem rolloverWith_of_le (w : RollingWindow acc) {now : Int}
    (hle : w.tracker.stepAt now ≤ w.tracker.current) (last : V → V) :
    w.rolloverWith now last = w := by
  have hdue : w.tracker.due? now = none := by
    simp only [StepTracker.due?]
    rw [if_neg (by omega)]
  simp only [rolloverWith, hdue]

theorem rolloverWith_of_lt (w : RollingWindow acc) {now : Int}
    (hlt : w.tracker.current < w.tracker.stepAt now) (last : V → V) :
    w.rolloverWith now last =
      { tracker := { w.tracker with current := w.tracker.stepAt now }
        current := acc.identity
        previous :=
          if w.tracker.stepAt now = w.tracker.current + 1 then last w.current
          else acc.identity } := by
  have hdue : w.tracker.due? now =
      some ⟨w.tracker.current, w.tracker.stepAt now⟩ := by
    simp only [StepTracker.due?]
    rw [if_pos hlt]
  simp only [rolloverWith, StepTracker.advance, hdue, StepMove.contiguous,
    decide_eq_true_eq]

theorem current_rolloverWith (w : RollingWindow acc) (now : Int)
    (last : V → V) :
    (w.rolloverWith now last).tracker.current =
      max w.tracker.current (w.tracker.stepAt now) := by
  rw [tracker_rolloverWith, StepTracker.current_advance]

theorem stepMillis_rolloverWith (w : RollingWindow acc) (now : Int)
    (last : V → V) :
    (w.rolloverWith now last).tracker.stepMillis = w.tracker.stepMillis := by
  rw [tracker_rolloverWith, StepTracker.stepMillis_advance]

/-! ### The cells follow a log -/

/-- The cells of the window show a log at the window's step. -/
def Follows (w : RollingWindow acc) (log : StepLog V) : Prop :=
  StepLog.Shows acc.fold log w.tracker.current w.current w.previous

theorem follows_starting (acc : Accumulator V) (step : Duration)
    (start : Int) : (starting acc step start).Follows [] :=
  StepLog.Shows.nil acc.fold _

namespace Follows

variable {w : RollingWindow acc} {log : StepLog V}

theorem rolloverWith (h : w.Follows log) (now : Int) (added : List V) :
    (w.rolloverWith now (adding acc added)).Follows
      (log ++ if w.tracker.current < w.tracker.stepAt now then
        StepLog.ofStep w.tracker.current added else []) := by
  by_cases hlt : w.tracker.current < w.tracker.stepAt now
  · rw [rolloverWith_of_lt w hlt, if_pos hlt]
    have hclosing := (StepLog.Shows.append h added).enter hlt
    rw [Accumulator.fold_append, ← h.current_eq] at hclosing
    exact hclosing
  · rw [rolloverWith_of_le w (by omega), if_neg hlt, List.append_nil]
    exact h

theorem rollover (h : w.Follows log) (now : Int) :
    (w.rollover now).Follows log := by
  have hroll := h.rolloverWith now []
  have hnothing : adding acc [] = id := rfl
  simpa [hnothing, StepLog.ofStep, RollingWindow.rollover] using hroll

theorem record (h : w.Follows log) (now : Int) (value : V) :
    (w.record now value).Follows
      (log ++ StepLog.ofStep
        (max w.tracker.current (w.tracker.stepAt now)) [value]) := by
  have hroll := h.rollover now
  have hstep := current_rolloverWith w now id
  have happend := StepLog.Shows.append hroll [value]
  rw [Accumulator.fold_append, ← hroll.current_eq] at happend
  rw [← hstep]
  exact happend

end Follows

/-! ### Runs -/

/-- The window at the end of a run is at the step of the history, and its
cells follow the log of the history. -/
structure Mirrors (w : RollingWindow acc) (length : Int)
    (h : WindowHistory V) : Prop where
  length_eq : w.tracker.stepMillis = length
  step_eq : w.tracker.current = h.step
  follows : w.Follows h.log

theorem Mirrors.perform {w : RollingWindow acc} {length : Int}
    {h : WindowHistory V} (hw : w.Mirrors length h) (now : Int)
    (c : WindowCommand V) (hopen : c ≠ .close) :
    (w.perform now c).Mirrors length (h.next (now.tdiv length) c) := by
  have hseen : w.tracker.stepAt now = now.tdiv length := by
    rw [StepTracker.stepAt, hw.length_eq]
  have hlength : ∀ last, (w.rolloverWith now last).tracker.stepMillis =
      length := by
    intro last
    rw [stepMillis_rolloverWith, hw.length_eq]
  have hstep : ∀ last, (w.rolloverWith now last).tracker.current =
      max h.step (now.tdiv length) := by
    intro last
    rw [current_rolloverWith, hseen, hw.step_eq]
  have hroll : (w.rollover now).Mirrors length
      ⟨max h.step (now.tdiv length), h.log⟩ :=
    ⟨hlength id, hstep id, hw.follows.rollover now⟩
  cases c with
  | record value =>
      refine ⟨hlength id, hstep id, ?_⟩
      have hrecord := hw.follows.record now value
      rw [hseen, hw.step_eq] at hrecord
      exact hrecord
  | poll => exact hroll
  | pollAdding added =>
      refine ⟨hlength _, hstep _, ?_⟩
      have hadding := hw.follows.rolloverWith now added
      rw [hseen, hw.step_eq] at hadding
      exact hadding
  | latest => exact hroll
  | rollover => exact hroll
  | close => exact absurd rfl hopen

theorem run_mirrors (acc : Accumulator V) (step : Duration) (start : Int)
    (commands : List (Int × WindowCommand V))
    (hopen : ∀ c ∈ commands, c.2 ≠ .close) :
    ((starting acc step start).run commands).Mirrors
      (StepTracker.lengthMillis step)
      (WindowHistory.of (StepTracker.lengthMillis step) start commands) := by
  induction commands using List.reverseRecOn with
  | nil => exact ⟨rfl, rfl, follows_starting acc step start⟩
  | append_singleton before c ih =>
      rw [run_append, WindowHistory.of_append_singleton]
      apply Mirrors.perform
      · apply ih
        intro e he
        exact hopen e (List.mem_append_left [c] he)
      · exact hopen c (by simp)

/-! ### What windows show -/

section Shows

variable {w : RollingWindow acc} {length : Int} {h : WindowHistory V}

/-- The amount in progress is that of the step the window is in by then. -/
theorem Mirrors.latest_fst (hw : w.Mirrors length h) (now : Int) :
    (w.latest now).1 =
      acc.fold (h.log.valuesIn (max h.step (now.tdiv length))) := by
  have hlatest := hw.perform now .latest (by simp)
  have hcurrent := hlatest.follows.current_eq
  rw [hlatest.step_eq] at hcurrent
  exact hcurrent

theorem Mirrors.poll_fst (hw : w.Mirrors length h) (now : Int) :
    (w.poll now).1 =
      acc.fold (h.log.valuesIn (max h.step (now.tdiv length) - 1)) := by
  have hpoll := hw.perform now .poll (by simp)
  have hprevious := hpoll.follows.previous_eq
  rw [hpoll.step_eq] at hprevious
  exact hprevious

theorem Mirrors.pollAdding_fst (hw : w.Mirrors length h) (now : Int)
    (added : List V) :
    (w.pollWith now (adding acc added)).1 =
      acc.fold ((h.next (now.tdiv length) (.pollAdding added)).log.valuesIn
        (max h.step (now.tdiv length) - 1)) := by
  have hadding := hw.perform now (.pollAdding added) (by simp)
  have hprevious := hadding.follows.previous_eq
  rw [hadding.step_eq] at hprevious
  exact hprevious

/-- A poll that leaves the window in its step makes no change. -/
theorem pollWith_of_stays (w : RollingWindow acc) {now : Int} {last : V → V}
    (hstays : (w.pollWith now last).2.tracker.current = w.tracker.current) :
    w.pollWith now last = (w.previous, w) := by
  have hmax := current_rolloverWith w now last
  have hstay : (w.rolloverWith now last).tracker.current =
      w.tracker.current := hstays
  rw [pollWith, rolloverWith_of_le w (by omega)]

end Shows

/-! ### After closing -/

/-- A closed window with the value of its last step. -/
structure Frozen (w : RollingWindow acc) (length : Int) (value : V) :
    Prop where
  length_eq : w.tracker.stepMillis = length
  closed : w.tracker.current = StepTracker.closedStep
  previous_eq : w.previous = value

namespace Frozen

variable {w : RollingWindow acc} {length : Int} {value : V}

/-- No time reaches past the step of a closed window. -/
theorem rolloverWith (hw : w.Frozen length value) {now : Int}
    (hbelow : now.tdiv length < StepTracker.closedStep) (last : V → V) :
    w.rolloverWith now last = w := by
  apply rolloverWith_of_le
  rw [StepTracker.stepAt, hw.length_eq, hw.closed]
  omega

theorem perform (hw : w.Frozen length value) {now : Int}
    (hbelow : now.tdiv length < StepTracker.closedStep)
    (c : WindowCommand V) : (w.perform now c).Frozen length value := by
  have hroll : ∀ last, (w.rolloverWith now last).Frozen length value := by
    intro last
    rw [hw.rolloverWith hbelow last]
    exact hw
  cases c with
  | record recorded =>
      have hidle := hroll id
      exact ⟨hidle.length_eq, hidle.closed, hidle.previous_eq⟩
  | poll => exact hroll id
  | pollAdding added => exact hroll (adding acc added)
  | latest => exact hroll id
  | rollover => exact hroll id
  | close =>
      have hclosed : w.tracker.isClosed = true := by
        simp [StepTracker.isClosed, hw.closed]
      simp only [RollingWindow.perform, RollingWindow.close, hclosed,
        ↓reduceIte]
      exact hw

theorem run (hw : w.Frozen length value)
    (commands : List (Int × WindowCommand V))
    (hbelow : ∀ c ∈ commands, c.1.tdiv length < StepTracker.closedStep) :
    (w.run commands).Frozen length value := by
  induction commands generalizing w with
  | nil => exact hw
  | cons c rest ih =>
      apply ih
      · exact hw.perform (hbelow c List.mem_cons_self) c.2
      · intro e he
        exact hbelow e (List.mem_cons_of_mem c he)

end Frozen

theorem Mirrors.frozen_close {w : RollingWindow acc} {length : Int}
    {h : WindowHistory V} (hw : w.Mirrors length h)
    (hbelow : h.step < StepTracker.closedStep) :
    w.close.Frozen length (acc.fold (h.log.valuesIn h.step)) := by
  have hopen : w.tracker.isClosed = false := by
    rw [StepTracker.isClosed, hw.step_eq]
    exact decide_eq_false (by omega)
  simp only [RollingWindow.close, hopen, Bool.false_eq_true, ↓reduceIte]
  refine ⟨hw.length_eq, rfl, ?_⟩
  rw [← hw.step_eq]
  exact hw.follows.current_eq

/-- A run in which a window is closed freezes it, whatever comes later. -/
theorem run_frozen (acc : Accumulator V) (step : Duration) (start : Int)
    (before later : List (Int × WindowCommand V)) (time : Int)
    (hopen : ∀ c ∈ before, c.2 ≠ .close)
    (hstart : start.tdiv (StepTracker.lengthMillis step) <
      StepTracker.closedStep)
    (hbelow : ∀ c ∈ before ++ (time, .close) :: later,
      c.1.tdiv (StepTracker.lengthMillis step) < StepTracker.closedStep) :
    let last := WindowHistory.of (StepTracker.lengthMillis step) start before
    ((starting acc step start).run (before ++ (time, .close) :: later)).Frozen
      (StepTracker.lengthMillis step)
      (acc.fold (last.log.valuesIn last.step)) := by
  intro last
  have hlast : last.step < StepTracker.closedStep := by
    apply WindowHistory.step_of_lt _ start _ before hstart
    exact fun c hc => hbelow c (List.mem_append_left _ hc)
  have hbefore := run_mirrors acc step start before hopen
  rw [run_append]
  apply (hbefore.frozen_close hlast).run later
  intro c hc
  exact hbelow c (List.mem_append_right _ (List.mem_cons_of_mem _ hc))

/-- A window is refined by its history, for every order of operations and
moves of the clock.  Until it is closed, it shows the folds of the step in
progress and of the step before; a change that comes with a poll is made only
if the poll moves the window; and once closed, the window shows its last step
for good. -/
theorem run_refines_history (acc : Accumulator V) (step : Duration)
    (start now : Int) (commands : List (Int × WindowCommand V))
    (hbelow : ∀ time ∈ start :: now :: commands.map Prod.fst,
      time.tdiv (StepTracker.lengthMillis step) < StepTracker.closedStep) :
    let length := StepTracker.lengthMillis step
    let w := (starting acc step start).run commands
    let h := WindowHistory.of length start commands
    let present := max h.step (now.tdiv length)
    ((∀ c ∈ commands, c.2 ≠ .close) →
      (w.latest now).1 = acc.fold (h.log.valuesIn present) ∧
      (w.poll now).1 = acc.fold (h.log.valuesIn (present - 1)) ∧
      ∀ added, (w.pollWith now (adding acc added)).1 =
        acc.fold ((h.next (now.tdiv length) (.pollAdding added)).log.valuesIn
          (present - 1))) ∧
    (∀ last, (w.pollWith now last).2.tracker.current = w.tracker.current →
      w.pollWith now last = (w.previous, w)) ∧
    ∀ before time later, commands = before ++ (time, .close) :: later →
      (∀ c ∈ before, c.2 ≠ .close) →
      let last := WindowHistory.of length start before
      (w.poll now).1 = acc.fold (last.log.valuesIn last.step) ∧
      ∀ change, (w.pollWith now change).1 =
        acc.fold (last.log.valuesIn last.step) := by
  intro length w h present
  have hcommands : ∀ c ∈ commands,
      c.1.tdiv length < StepTracker.closedStep := by
    intro c hc
    apply hbelow
    simp only [List.mem_cons, List.mem_map]
    exact Or.inr (Or.inr ⟨c, hc, rfl⟩)
  have hstart := hbelow start (by simp)
  have hnow := hbelow now (by simp)
  refine ⟨?_, fun last => w.pollWith_of_stays, ?_⟩
  · intro hopen
    have hw : w.Mirrors length h := run_mirrors acc step start commands hopen
    exact ⟨hw.latest_fst now, hw.poll_fst now, hw.pollAdding_fst now⟩
  · intro before time later hsplit hopen last
    have hw : w.Frozen length (acc.fold (last.log.valuesIn last.step)) := by
      simp only [w, hsplit]
      rw [hsplit] at hcommands
      exact run_frozen acc step start before later time hopen hstart hcommands
    constructor
    · rw [← hw.previous_eq]
      simp only [poll, rollover, hw.rolloverWith hnow]
    · intro change
      rw [← hw.previous_eq]
      simp only [pollWith, hw.rolloverWith hnow]

/-- A late poll, a clock that moves back, and closing in the middle of a step:
the amount of the step that was closed stays readable. -/
theorem run_refines_history_closed :
    (((starting Accumulator.longSum (.ofSeconds 60) 0).run
      [(1000, .record 3), (61000, .pollAdding [4]), (20000, .record 5),
       (62000, .close), (63000, .record 9)]).poll 500000).1 = 5 := by
  have hrefines := run_refines_history Accumulator.longSum (.ofSeconds 60)
    0 500000 [(1000, .record 3), (61000, .pollAdding [4]),
      (20000, .record 5), (62000, .close), (63000, .record 9)] (by decide)
  have hclosed := hrefines.2.2 [(1000, .record 3), (61000, .pollAdding [4]),
    (20000, .record 5)] 62000 [(63000, .record 9)] rfl (by simp)
  exact hclosed.1.trans (by decide)

end RollingWindow

end WindowedMetrics
