/-
Ledgers of running tasks.  A ledger says of starts, stops and passing time
which tasks run and for how long; a timer in the same run keeps these tasks
with the times of their starts.
-/
import WindowedMetrics.Meter.Basic
import Mathlib.Data.List.Induction
import Mathlib.Data.List.Nodup
import Mathlib.Data.List.Count

namespace WindowedMetrics

/-! ### Ledgers of tasks -/

/-- What happens around a timer of running tasks.  Tasks are numbered in the
order of their starts. -/
inductive TaskCommand
  | start
  | stop (task : Nat)
  | advance (elapsed : Duration)

namespace TaskCommand

/-- The nanoseconds that a command takes. -/
def nanos : TaskCommand → Nat
  | advance elapsed => elapsed.nanos
  | _ => 0

/-- The nanoseconds that commands take together. -/
def passed (commands : List TaskCommand) : Nat :=
  commands.foldl (fun total c => total + c.nanos) 0

theorem passed_append_singleton (commands : List TaskCommand)
    (c : TaskCommand) : passed (commands ++ [c]) = passed commands + c.nanos := by
  simp [passed]

end TaskCommand

/-- How many tasks were started and stopped, and those that run, each with its
number and the nanoseconds since its own start. -/
structure TaskLedger where
  started : Nat
  stopped : Nat
  running : List (Nat × Nat)
deriving DecidableEq

namespace TaskLedger

/-- The ledger after a command.  Only a task that runs can be stopped. -/
def note (l : TaskLedger) : TaskCommand → TaskLedger
  | .start =>
      { l with
        started := l.started + 1
        running := l.running ++ [(l.started, 0)] }
  | .stop task =>
      if l.running.any fun e => decide (e.1 = task) then
        { l with
          stopped := l.stopped + 1
          running := l.running.filter fun e => decide (e.1 ≠ task) }
      else l
  | .advance elapsed =>
      { l with running := l.running.map fun e => (e.1, e.2 + elapsed.nanos) }

/-- The ledger of commands. -/
def of (commands : List TaskCommand) : TaskLedger :=
  commands.foldl note ⟨0, 0, []⟩

theorem of_append_singleton (commands : List TaskCommand) (c : TaskCommand) :
    of (commands ++ [c]) = (of commands).note c := by
  simp [of]

/-- Running tasks are in the order of their numbers, the ones that have run
longer first, and every task that was started runs or was stopped. -/
structure Consistent (l : TaskLedger) (passed : Nat) : Prop where
  ordered : l.running.Pairwise fun a b => a.1 < b.1 ∧ b.2 ≤ a.2
  numbered : ∀ e ∈ l.running, e.1 < l.started
  within : ∀ e ∈ l.running, e.2 ≤ passed
  balanced : l.stopped + l.running.length = l.started

variable {l : TaskLedger} {passed : Nat}

/-- Stopping a task takes out one. -/
theorem Consistent.length_filter (hl : l.Consistent passed) {task : Nat}
    (hruns : (l.running.any fun e => decide (e.1 = task)) = true) :
    (l.running.filter fun e => decide (e.1 ≠ task)).length + 1 =
      l.running.length := by
  have hnodup : (l.running.map Prod.fst).Nodup := by
    rw [List.Nodup, List.pairwise_map]
    exact hl.ordered.imp fun h => Nat.ne_of_lt h.1
  have hmem : task ∈ l.running.map Prod.fst := by
    obtain ⟨e, he, htask⟩ := List.any_eq_true.mp hruns
    exact List.mem_map.mpr ⟨e, he, of_decide_eq_true htask⟩
  have hone : (l.running.countP fun e => decide (e.1 = task)) = 1 := by
    have hcount := List.count_eq_one_of_mem hnodup hmem
    rw [List.count, List.countP_map] at hcount
    exact hcount
  have hboth := List.length_eq_countP_add_countP
    (fun e : Nat × Nat => decide (e.1 = task)) (l := l.running)
  rw [hone, Nat.add_comm] at hboth
  rw [hboth, ← List.countP_eq_length_filter]
  simp

theorem Consistent.start (hl : l.Consistent passed) :
    (l.note .start).Consistent passed where
  ordered := by
    simp only [TaskLedger.note, List.pairwise_append, List.mem_singleton,
      List.pairwise_singleton, true_and]
    refine ⟨hl.ordered, ?_⟩
    rintro e he _ rfl
    exact ⟨hl.numbered e he, Nat.zero_le _⟩
  numbered := List.forall_mem_append.mpr
    ⟨fun e he => Nat.lt_succ_of_lt (hl.numbered e he),
      by simp [TaskLedger.note]⟩
  within := List.forall_mem_append.mpr ⟨hl.within, by simp⟩
  balanced := by
    have hbalanced := hl.balanced
    simp only [TaskLedger.note, List.length_append, List.length_singleton]
    omega

theorem Consistent.stop (hl : l.Consistent passed) (task : Nat) :
    (l.note (.stop task)).Consistent passed := by
  by_cases hruns : (l.running.any fun e => decide (e.1 = task)) = true
  · have hkept := List.filter_sublist
      (p := fun e : Nat × Nat => decide (e.1 ≠ task)) (l := l.running)
    have hbalanced := hl.balanced
    have hlength := hl.length_filter hruns
    rw [TaskLedger.note, if_pos hruns]
    refine ⟨hl.ordered.sublist hkept,
      fun e he => hl.numbered e (hkept.subset he),
      fun e he => hl.within e (hkept.subset he), ?_⟩
    dsimp only
    omega
  · rw [TaskLedger.note, if_neg hruns]
    exact hl

theorem Consistent.advance (hl : l.Consistent passed) (elapsed : Duration) :
    (l.note (.advance elapsed)).Consistent (passed + elapsed.nanos) where
  ordered := by
    simp only [TaskLedger.note, List.pairwise_map]
    exact hl.ordered.imp fun h => ⟨h.1, Nat.add_le_add_right h.2 _⟩
  numbered := List.forall_mem_map.mpr hl.numbered
  within := List.forall_mem_map.mpr
    fun e he => Nat.add_le_add_right (hl.within e he) _
  balanced := by
    simpa [TaskLedger.note] using hl.balanced

theorem consistent_of (commands : List TaskCommand) :
    (of commands).Consistent (TaskCommand.passed commands) := by
  induction commands using List.reverseRecOn with
  | nil => exact ⟨.nil, by simp [of], by simp [of], rfl⟩
  | append_singleton before c ih =>
      rw [of_append_singleton, TaskCommand.passed_append_singleton]
      cases c with
      | start => exact ih.start
      | stop task => exact ih.stop task
      | advance elapsed => exact ih.advance elapsed

/-- The task that was started first has run the longest. -/
theorem Consistent.max?_eq (hl : l.Consistent passed) :
    (l.running.map Prod.snd).max? = l.running.head?.map Prod.snd := by
  have hordered := hl.ordered
  cases hrunning : l.running with
  | nil => rfl
  | cons oldest rest =>
      rw [hrunning, List.pairwise_cons] at hordered
      rw [List.head?_cons, Option.map_some, List.max?_eq_some_iff]
      refine ⟨List.mem_cons_self, ?_⟩
      intro time htime
      obtain ⟨e, he, rfl⟩ := List.mem_map.mp htime
      rcases List.mem_cons.mp he with rfl | hmem
      · exact Nat.le_refl _
      · exact (hordered.1 e hmem).2

end TaskLedger

/-! ### What a timer keeps of a ledger -/

/-- While so much time passes, neither the clock's readings nor the differences
between them leave 64 bits. -/
structure Clock.Endures (clock : Clock) (nanos : Nat) : Prop where
  low : minInt64 ≤ clock.monotonic
  high : clock.monotonic + nanos ≤ maxInt64
  span : (nanos : Int) ≤ maxInt64

theorem Clock.since_sub (clock : Clock) {nanos : Nat}
    (hspan : (nanos : Int) ≤ maxInt64) :
    clock.since (clock.monotonic - nanos) = .ofNanos nanos := by
  have hclamp : clampInt64 (clock.monotonic - (clock.monotonic - nanos)) =
      nanos := by
    simp only [clampInt64, minInt64, maxInt64] at hspan ⊢
    omega
  rw [Clock.since, hclamp, Int.toNat_natCast]

namespace TaskLedger

/-- The running tasks, as a timer keeps them. -/
def tasks (l : TaskLedger) (config : DistributionSettings) (now : Int) :
    LongTasks :=
  { LongTasks.create config with
    nextTask := l.started
    active := l.running.map fun e => (e.1, now - e.2) }

/-- The samples of the running tasks. -/
def samples (l : TaskLedger) (now : Int) : List TaskSample :=
  l.running.map fun e => ⟨e.1, now - e.2⟩

variable {l : TaskLedger} {config : DistributionSettings}

theorem start_tasks (clock : Clock) :
    (l.tasks config clock.monotonic).start clock =
      (⟨l.started, clock.monotonic⟩,
        (l.note .start).tasks config clock.monotonic) := by
  simp [LongTasks.start, tasks, note]

theorem stop_tasks (clock : Clock) {now : Int} {sample : TaskSample}
    (hruns : (l.running.any fun e => decide (e.1 = sample.task)) = true) :
    (l.tasks config now).stop clock sample =
      (clock.since sample.start,
        (l.note (.stop sample.task)).tasks config now) := by
  have hactive : ((l.tasks config now).active.any fun entry =>
      decide (entry.1 = sample.task)) = true := by
    rw [tasks, List.any_map]
    exact hruns
  rw [LongTasks.stop, if_pos hactive, note, if_pos hruns]
  simp only [tasks, List.filter_map]
  rfl

/-- What passes is added to the present and to the running time, so a start
stays where it was. -/
theorem start_eq_of_advance (now : Int) (ran passed : Nat) :
    now + passed - (ran + passed : Nat) = now - ran := by
  omega

theorem tasks_advance (elapsed : Duration) (now : Int) :
    (l.note (.advance elapsed)).tasks config (now + elapsed.nanos) =
      l.tasks config now := by
  simp only [tasks, note, List.map_map, Function.comp_def,
    start_eq_of_advance]

theorem samples_advance (elapsed : Duration) (now : Int) :
    (l.note (.advance elapsed)).samples (now + elapsed.nanos) =
      l.samples now := by
  simp only [samples, note, List.map_map, Function.comp_def,
    start_eq_of_advance]

theorem samples_start (now : Int) :
    (l.note .start).samples now = l.samples now ++ [⟨l.started, now⟩] := by
  simp [samples, note]

theorem samples_stop {task : Nat}
    (hruns : (l.running.any fun e => decide (e.1 = task)) = true)
    (now : Int) :
    (l.note (.stop task)).samples now =
      (l.samples now).filter fun s => decide (s.task ≠ task) := by
  rw [note, if_pos hruns, samples, samples, List.filter_map]
  rfl

theorem any_of_mem_samples {now : Int} {sample : TaskSample}
    (hsample : sample ∈ l.samples now) :
    (l.running.any fun e => decide (e.1 = sample.task)) = true := by
  obtain ⟨e, he, rfl⟩ := List.mem_map.mp hsample
  exact List.any_eq_true.mpr ⟨e, he, decide_eq_true rfl⟩

end TaskLedger

/-! ### Runs -/

/-- A timer with its clock, and the samples of the tasks that were not stopped
yet. -/
structure TaskRun where
  clock : Clock
  timer : Meter
  samples : List TaskSample

namespace TaskRun

/-- Starts a task and keeps its sample; a timer that measures nothing has
none. -/
def start (r : TaskRun) : TaskRun :=
  match r.timer.startTask? r.clock with
  | some (sample, timer) =>
      { r with timer := timer, samples := r.samples ++ sample.toList }
  | none => r

/-- Stops a task by its sample, which is used up. -/
def stop (r : TaskRun) (task : Nat) : TaskRun :=
  match r.samples.find? fun sample => decide (sample.task = task) with
  | some sample =>
      { r with
        timer := (r.timer.stopTask r.clock sample).2
        samples := r.samples.filter fun s => decide (s.task ≠ task) }
  | none => r

/-- The state after a command. -/
def perform (r : TaskRun) : TaskCommand → TaskRun
  | .start => r.start
  | .stop task => r.stop task
  | .advance elapsed => { r with clock := r.clock.advance elapsed }

/-- The state after commands. -/
def run (r : TaskRun) (commands : List TaskCommand) : TaskRun :=
  commands.foldl perform r

theorem run_append_singleton (r : TaskRun) (commands : List TaskCommand)
    (c : TaskCommand) : r.run (commands ++ [c]) = (r.run commands).perform c := by
  simp [run]

/-- A timer that measures nothing starts no tasks. -/
theorem run_of_idle {r : TaskRun}
    (htimer : r.timer.instrument = .longTaskTimer none)
    (hsamples : r.samples = []) (commands : List TaskCommand) :
    (r.run commands).timer = r.timer ∧ (r.run commands).samples = [] := by
  induction commands using List.reverseRecOn with
  | nil => exact ⟨rfl, hsamples⟩
  | append_singleton before c ih =>
      obtain ⟨hsame, hnone⟩ := ih
      rw [run_append_singleton]
      cases c with
      | start =>
          have hstart : (r.run before).timer.startTask?
              (r.run before).clock = some (none, r.timer) := by
            rw [hsame, Meter.startTask?, htimer]
          simp only [perform, start, hstart, hnone, Option.toList_none,
            List.append_nil, and_self]
      | stop task =>
          simp only [perform, stop, hnone, List.find?_nil, hsame, and_self]
      | advance elapsed => exact ⟨hsame, hnone⟩

/-- The timer keeps the running tasks of the ledger, and their samples are at
hand. -/
structure Follows (r : TaskRun) (config : DistributionSettings)
    (l : TaskLedger) : Prop where
  timer_eq : r.timer.instrument =
    .longTaskTimer (some (l.tasks config r.clock.monotonic))
  samples_eq : r.samples = l.samples r.clock.monotonic

section Following

variable {r : TaskRun} {config : DistributionSettings} {l : TaskLedger}

theorem Follows.start (hr : r.Follows config l) :
    r.start.Follows config (l.note .start) ∧ r.start.clock = r.clock := by
  obtain ⟨htimer, hsamples⟩ := hr
  have hstart : r.timer.startTask? r.clock =
      some (some ⟨l.started, r.clock.monotonic⟩, r.timer.withInstrument
        (.longTaskTimer
          (some ((l.note .start).tasks config r.clock.monotonic)))) := by
    rw [Meter.startTask?, htimer]
    simp only [TaskLedger.start_tasks]
  simp only [TaskRun.start, hstart, and_true]
  refine ⟨rfl, ?_⟩
  dsimp only
  rw [hsamples, TaskLedger.samples_start]
  rfl

/-- A sample at hand is one of a running task. -/
theorem Follows.stop (hr : r.Follows config l) (task : Nat) :
    (r.stop task).Follows config (l.note (.stop task)) ∧
      (r.stop task).clock = r.clock := by
  obtain ⟨htimer, hsamples⟩ := hr
  cases hfound : r.samples.find? fun sample => decide (sample.task = task) with
  | some sample =>
      obtain rfl : sample.task = task := by
        simpa using List.find?_some hfound
      have hmem := List.mem_of_find?_eq_some hfound
      rw [hsamples] at hmem
      have hruns := TaskLedger.any_of_mem_samples hmem
      simp only [TaskRun.stop, hfound, and_true]
      constructor
      · simp only [Meter.stopTask, htimer, TaskLedger.stop_tasks _ hruns,
          Meter.withInstrument]
      · dsimp only
        rw [hsamples, TaskLedger.samples_stop hruns]
  | none =>
      have hrests : ¬ (l.running.any fun e => decide (e.1 = task)) = true := by
        intro hruns
        obtain ⟨e, he, htask⟩ := List.any_eq_true.mp hruns
        rw [hsamples, List.find?_eq_none] at hfound
        exact hfound _ (List.mem_map_of_mem he) htask
      simp only [TaskRun.stop, hfound, and_true]
      rw [TaskLedger.note, if_neg hrests]
      exact ⟨htimer, hsamples⟩

theorem Follows.perform (hr : r.Follows config l) {c : TaskCommand}
    (hclock : r.clock.Endures c.nanos) :
    (r.perform c).Follows config (l.note c) ∧
      (r.perform c).clock.monotonic = r.clock.monotonic + c.nanos := by
  cases c with
  | start =>
      obtain ⟨hstarted, hsame⟩ := hr.start
      exact ⟨hstarted, (congrArg _ hsame).trans (Int.add_zero _).symm⟩
  | stop task =>
      obtain ⟨hstopped, hsame⟩ := hr.stop task
      exact ⟨hstopped, (congrArg _ hsame).trans (Int.add_zero _).symm⟩
  | advance elapsed =>
      have hmonotonic : (r.clock.advance elapsed).monotonic =
          r.clock.monotonic + elapsed.nanos := by
        have hlow := hclock.low
        exact wrapInt64_of_mem (by omega) hclock.high
      refine ⟨⟨?_, ?_⟩, hmonotonic⟩
      · simp only [TaskRun.perform, hmonotonic, hr.timer_eq,
          TaskLedger.tasks_advance]
      · simp only [TaskRun.perform, hmonotonic, hr.samples_eq,
          TaskLedger.samples_advance]

theorem Follows.run (hr : r.Follows config (.of []))
    {commands : List TaskCommand}
    (hclock : r.clock.Endures (TaskCommand.passed commands)) :
    (r.run commands).Follows config (.of commands) ∧
      (r.run commands).clock.monotonic =
        r.clock.monotonic + TaskCommand.passed commands := by
  induction commands using List.reverseRecOn with
  | nil => exact ⟨hr, (Int.add_zero _).symm⟩
  | append_singleton before c ih =>
      rw [TaskCommand.passed_append_singleton] at hclock
      obtain ⟨hlow, hhigh, hspan⟩ := hclock
      obtain ⟨hfollows, hmonotonic⟩ := ih ⟨hlow, by omega, by omega⟩
      have hnext : (r.run before).clock.Endures c.nanos :=
        ⟨by omega, by omega, by omega⟩
      obtain ⟨hafter, hpassed⟩ := hfollows.perform hnext
      rw [run_append_singleton, TaskLedger.of_append_singleton,
        TaskCommand.passed_append_singleton]
      refine ⟨hafter, ?_⟩
      rw [hpassed, hmonotonic]
      omega

end Following

end TaskRun

end WindowedMetrics
