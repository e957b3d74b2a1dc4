/-
What timers of running tasks show.  Whatever the order of stops, the oldest
task has run the longest, and the counts between bounds are the running times
in their buckets.
-/
import WindowedMetrics.Proofs.Distribution.Bounds
import WindowedMetrics.Proofs.Meter.Lifetime
import WindowedMetrics.Proofs.Meter.TaskLedger
import WindowedMetrics.Proofs.Number.Words

namespace WindowedMetrics

open BucketCounts

/-! ### Running times in order -/

/-- The last of sorted floats is the greatest. -/
theorem getLast?_mergeSort_totalLe {xs : List Float} {greatest : Float}
    (hmem : greatest ∈ xs) (hall : ∀ x ∈ xs, totalLe x greatest = true) :
    (xs.mergeSort totalLe).getLast? = some greatest := by
  have hsorted := List.pairwise_mergeSort totalLe_trans totalLe_total xs
  have hkept : greatest ∈ xs.mergeSort totalLe := List.mem_mergeSort.mpr hmem
  have hlimit : ∀ x ∈ xs.mergeSort totalLe, totalLe x greatest = true :=
    fun x hx => hall x (List.mem_mergeSort.mp hx)
  generalize xs.mergeSort totalLe = sorted at hsorted hkept hlimit ⊢
  cases sorted using List.reverseRecOn with
  | nil => cases hkept
  | append_singleton front last _ =>
      rw [List.getLast?_concat]
      rcases List.mem_append.mp hkept with hfront | hlast
      · have hle := (List.pairwise_append.mp hsorted).2.2 greatest hfront last
          (List.mem_singleton_self last)
        have hge := hlimit last (List.mem_append_right _ (by simp))
        rw [totalLe_antisymm hge hle]
      · rw [List.mem_singleton.mp hlast]

namespace LongTasks

/-- Counts between bounds are differences of front parts; they are the samples
in the buckets of the bounds. -/
theorem countsBetween_eq {bounds sorted : Array Float}
    (hbounds : Ascending bounds)
    (hsorted : sorted.toList.Pairwise (· ≤ ·))
    (hnumbers : ∀ sample ∈ sorted.toList, sample.isNaN = false)
    {before rest : List Float} (hsplit : before ++ rest = bounds.toList) :
    countsBetween sorted (sorted.toList.countP fun sample =>
        decide (bucketOf bounds sample < before.length)) rest =
      List.zipWith Bucket.mk rest
        ((tally bounds sorted.toList).toList.drop before.length) := by
  induction rest generalizing before with
  | nil => rfl
  | cons bound rest ih =>
      have hget : bounds.toList[before.length]? = some bound := by
        rw [← hsplit, List.getElem?_append_right le_rfl, Nat.sub_self]
        rfl
      rw [Array.getElem?_toList, Array.getElem?_eq_some_iff] at hget
      obtain ⟨hi, hbound⟩ := hget
      have hupper : frontLength sorted (· ≤ bound) =
          sorted.toList.countP fun sample =>
            decide (bucketOf bounds sample < before.length + 1) := by
        rw [frontLength_eq_countP (pairwise_notAbove hsorted bound),
          hbounds.countP_bucketOf_lt_succ hnumbers hi, hbound]
      have hsize :
          before.length < (tally bounds sorted.toList).toList.length := by
        simpa using hi
      have hcount : (tally bounds sorted.toList).toList[before.length] =
          (sorted.toList.countP fun sample =>
            decide (bucketOf bounds sample = before.length)).toUInt64 := by
        simp only [tally, Array.getElem_toList, Array.getElem_ofFn]
      have hmore : (before ++ [bound]) ++ rest = bounds.toList := by
        simpa using hsplit
      have hrest := ih hmore
      rw [List.length_append, List.length_singleton] at hrest
      rw [countsBetween, hupper, hrest, countP_lt_succ,
        Nat.add_sub_cancel_left, List.drop_eq_getElem_cons hsize,
        List.zipWith_cons_cons, hcount]

theorem isFinite_runningTimes (l : LongTasks) (clock : Clock) :
    ∀ time ∈ l.runningTimes clock, time.isFinite = true := by
  intro time htime
  obtain ⟨entry, -, rfl⟩ := List.mem_map.mp htime
  exact isFinite_countToFloat _

/-- In ascending bounds, the counts of a snapshot are the running times in
each bucket. -/
theorem buckets_snapshot {l : LongTasks} (hbounds : Ascending l.bounds)
    (clock : Clock) :
    (l.snapshot clock).buckets =
      Bucket.listOf l.bounds (l.runningTimes clock) := by
  have hfinite := l.isFinite_runningTimes clock
  have hsorted := pairwise_mergeSort_totalLe hfinite
  have hnumbers : ∀ time ∈ (l.runningTimes clock).mergeSort totalLe,
      time.isNaN = false := fun time htime =>
    not_isNaN_of_isFinite (hfinite time (List.mem_mergeSort.mp htime))
  have hcounts := @countsBetween_eq _
    ((l.runningTimes clock).mergeSort totalLe).toArray hbounds hsorted
    hnumbers _ _ (List.nil_append _)
  have hperm := List.mergeSort_perm (l.runningTimes clock) totalLe
  rw [Bucket.listOf, ← tally_perm l.bounds hperm]
  simpa [snapshot] using hcounts

end LongTasks

/-! ### What a timer shows of a ledger -/

namespace TaskLedger

/-- The nanoseconds that each running task has run. -/
def times (l : TaskLedger) : List Nat := l.running.map Prod.snd

/-- The longest time that a running task has run; zero without tasks. -/
def longest (l : TaskLedger) : Float :=
  (l.times.max?.map countToFloat).getD 0.0

namespace Consistent

variable {l : TaskLedger} {passed : Nat} (hl : l.Consistent passed)
  (hspan : (passed : Int) ≤ maxInt64)
include hl hspan

theorem since_start (clock : Clock) {e : Nat × Nat} (he : e ∈ l.running) :
    clock.since (clock.monotonic - e.2) = .ofNanos e.2 := by
  have hwithin := hl.within e he
  exact clock.since_sub (by omega)

theorem time_lt {e : Nat × Nat} (he : e ∈ l.running) : e.2 < 2 ^ 64 := by
  have hwithin := hl.within e he
  simp only [maxInt64] at hspan
  omega

theorem runningTimes_tasks (config : DistributionSettings) (clock : Clock) :
    (l.tasks config clock.monotonic).runningTimes clock =
      l.times.map countToFloat := by
  simp only [LongTasks.runningTimes, tasks, times, List.map_map]
  apply List.map_congr_left
  intro e he
  have hsince := hl.since_start hspan clock he
  simp only [Function.comp_apply, LongTasks.runningTime, hsince]
  rfl

/-- The first task that is kept is the one that has run the longest. -/
theorem max_tasks (config : DistributionSettings) (clock : Clock) :
    (l.tasks config clock.monotonic).max clock .nanoseconds = l.longest := by
  rw [longest, times, hl.max?_eq, LongTasks.max, tasks]
  cases hrunning : l.running with
  | nil => rfl
  | cons oldest rest =>
      have holdest : oldest ∈ l.running := by
        rw [hrunning]
        exact List.mem_cons_self
      have hsince := hl.since_start hspan clock holdest
      simp only [List.map_cons, LongTasks.runningTime, hsince]
      exact countToFloat_div_one (hl.time_lt hspan holdest)

theorem max_snapshot (config : DistributionSettings) (clock : Clock) :
    ((l.tasks config clock.monotonic).snapshot clock).max = l.longest := by
  rw [LongTasks.snapshot, hl.runningTimes_tasks hspan]
  dsimp only
  rw [longest]
  cases hmax : l.times.max? with
  | none =>
      rw [List.max?_eq_none_iff.mp hmax, List.map_nil, List.mergeSort_nil]
      rfl
  | some greatest =>
      obtain ⟨hmem, hall⟩ := List.max?_eq_some_iff.mp hmax
      have hword : greatest < 2 ^ 64 := by
        obtain ⟨e, he, rfl⟩ := List.mem_map.mp hmem
        exact hl.time_lt hspan he
      have hkeys : ∀ x ∈ l.times.map countToFloat,
          totalLe x (countToFloat greatest) = true := by
        intro x hx
        obtain ⟨time, htime, rfl⟩ := List.mem_map.mp hx
        rw [totalLe, decide_eq_true_eq]
        exact totalKey_countToFloat_mono (hall time htime) hword
      rw [getLast?_mergeSort_totalLe (List.mem_map_of_mem hmem) hkeys]
      rfl

end Consistent

/-- What is shown are the tasks of a ledger: how many were started and not
stopped, both as a number of its own and as the count of the snapshot, the
longest running time, and the running times in buckets, as counts that recorded
all of them. -/
structure ShownBy (l : TaskLedger) (active : Nat) (max : Float)
    (snapshot : Snapshot) (bounds : List Float) : Prop where
  stopped_le : l.stopped ≤ l.started
  active_eq : active = l.started - l.stopped
  count_eq : snapshot.count = UInt64.ofNat active
  max_eq : max = snapshot.max
  longest_eq : max = l.longest
  buckets : bounds ≠ [] → ∃ fresh, ofBounds? bounds.toArray = some fresh ∧
    snapshot.buckets = List.zipWith Bucket.mk bounds
      ((l.times.map countToFloat).foldl record fresh).counts.toList ∧
    Bucket.sum snapshot.buckets = snapshot.count

theorem shownBy_empty :
    (of []).ShownBy 0 0.0 Snapshot.empty [] where
  stopped_le := Nat.le_refl 0
  active_eq := rfl
  count_eq := rfl
  max_eq := rfl
  longest_eq := rfl
  buckets := fun hsome => absurd rfl hsome

theorem Consistent.shownBy {l : TaskLedger} {passed : Nat}
    (hl : l.Consistent passed) (hspan : (passed : Int) ≤ maxInt64)
    (config : DistributionSettings) (clock : Clock) :
    let tasks := l.tasks config clock.monotonic
    l.ShownBy tasks.count (tasks.max clock .nanoseconds)
      (tasks.snapshot clock) config.upperBounds := by
  intro tasks
  have hbalanced := hl.balanced
  have hcount : tasks.count = l.running.length := List.length_map _
  have htimes := hl.runningTimes_tasks hspan config clock
  have hshown : (tasks.snapshot clock).count = UInt64.ofNat tasks.count := by
    simp only [LongTasks.snapshot, List.length_mergeSort,
      LongTasks.runningTimes, List.length_map, Nat.toUInt64_eq,
      LongTasks.count]
  constructor
  · omega
  · omega
  · exact hshown
  · rw [hl.max_tasks hspan, hl.max_snapshot hspan]
  · exact hl.max_tasks hspan config clock
  · intro hsome
    have hempty : config.upperBounds.toArray.isEmpty = false := by
      simpa using hsome
    have hbuckets : (tasks.snapshot clock).buckets =
        Bucket.listOf config.upperBounds.toArray
          (l.times.map countToFloat) := by
      rw [← htimes]
      exact LongTasks.buckets_snapshot config.ascending_upperBounds clock
    refine ⟨_, ofBounds?_eq_some hempty, ?_, ?_⟩
    · rw [hbuckets, foldl_record, List.nil_append]
      rfl
    · rw [hbuckets, Bucket.sum_listOf (config.upperBounds_back? hempty),
        hshown, hcount, List.length_map, times, List.length_map]

end TaskLedger

/-- The running tasks of a timer, each with its number and running time. -/
def Meter.taskTimes (meter : Meter) (clock : Clock) :
    List (Nat × Duration) :=
  match meter.instrument with
  | .longTaskTimer (some tasks) =>
      tasks.active.map fun e => (e.1, clock.since e.2)
  | _ => []

namespace TaskRun

section Stopping

variable {r : TaskRun} {config : DistributionSettings} {l : TaskLedger}
  {passed : Nat} (hr : r.Follows config l) (hl : l.Consistent passed)
  (hspan : (passed : Int) ≤ maxInt64)
include hr hl hspan

theorem Follows.taskTimes_eq :
    r.timer.taskTimes r.clock =
      l.running.map fun e => (e.1, .ofNanos e.2) := by
  rw [Meter.taskTimes, hr.timer_eq]
  simp only [TaskLedger.tasks, List.map_map]
  apply List.map_congr_left
  intro e he
  simp only [Function.comp_apply, hl.since_start hspan r.clock he]

/-- A stop returns the running time of its task and leaves the other tasks as
they are. -/
theorem Follows.stopTask {sample : TaskSample}
    (hsample : sample ∈ r.samples) :
    let stopped := r.timer.stopTask r.clock sample
    (sample.task, stopped.1) ∈ r.timer.taskTimes r.clock ∧
      stopped.2.taskTimes r.clock =
        (r.timer.taskTimes r.clock).filter fun e =>
          decide (e.1 ≠ sample.task) := by
  rw [hr.samples_eq] at hsample
  have hruns := TaskLedger.any_of_mem_samples hsample
  have hstop : r.timer.stopTask r.clock sample =
      (r.clock.since sample.start, r.timer.withInstrument (.longTaskTimer
        (some ((l.note (.stop sample.task)).tasks config
          r.clock.monotonic)))) := by
    rw [Meter.stopTask, hr.timer_eq]
    simp only [TaskLedger.stop_tasks r.clock hruns]
  obtain ⟨e, he, rfl⟩ := List.mem_map.mp hsample
  rw [hstop]
  constructor
  · rw [hr.taskTimes_eq hl hspan, List.mem_map]
    exact ⟨e, he, by rw [hl.since_start hspan r.clock he]⟩
  · rw [Meter.taskTimes, Meter.taskTimes, hr.timer_eq, TaskLedger.note,
      if_pos hruns]
    simp only [Meter.withInstrument, TaskLedger.tasks, List.filter_map]
    rfl

end Stopping

/-- In every run of starts, stops in any order and passing time, a timer of
running tasks shows the tasks that were started and not stopped, however they
are counted.  The samples that are left are theirs, and stopping a task returns
the time since its own start and leaves the times of the others.  A timer that
measures nothing starts no tasks. -/
theorem reading_follows_ledger {timer : Meter}
    {settings : Option DistributionSettings}
    (htimer : timer.instrument =
      .longTaskTimer (settings.map LongTasks.create))
    {clock : Clock} {commands : List TaskCommand}
    (hclock : clock.Endures (TaskCommand.passed commands)) :
    let run := (TaskRun.mk clock timer []).run commands
    let ledger := TaskLedger.of (if settings.isSome then commands else [])
    (∃ active duration max snapshot bounds,
      (∀ m : Moment, m.clock = run.clock → ∀ temporality,
        run.timer.read temporality .nanoseconds m =
          (.longTasks active duration max snapshot bounds, run.timer)) ∧
      bounds = (settings.map DistributionSettings.upperBounds).getD [] ∧
      ledger.ShownBy active max snapshot bounds) ∧
    run.timer.taskTimes run.clock =
      ledger.running.map (fun e => (e.1, .ofNanos e.2)) ∧
    run.samples.map TaskSample.task = ledger.running.map Prod.fst ∧
    ∀ sample ∈ run.samples,
      let stopped := run.timer.stopTask run.clock sample
      (sample.task, stopped.1) ∈ run.timer.taskTimes run.clock ∧
        stopped.2.taskTimes run.clock =
          (run.timer.taskTimes run.clock).filter fun e =>
            decide (e.1 ≠ sample.task) := by
  intro run ledger
  cases settings with
  | none =>
      obtain ⟨hsame, hnone⟩ :
          run.timer = timer ∧ run.samples = [] :=
        @run_of_idle ⟨clock, timer, []⟩ htimer rfl commands
      rw [hsame, hnone]
      refine ⟨⟨0, TimeUnit.nanoseconds.express 0.0, 0.0, Snapshot.empty, [],
        ?_, rfl, TaskLedger.shownBy_empty⟩, ?_, rfl, ?_⟩
      · intro m _ temporality
        rw [Meter.read, htimer]
        rfl
      · rw [Meter.taskTimes, htimer]
        rfl
      · intro sample hsample
        cases hsample
  | some config =>
      have hstart : (TaskRun.mk clock timer []).Follows config (.of []) :=
        ⟨htimer, rfl⟩
      obtain ⟨hrun, -⟩ : run.Follows config ledger ∧ _ := hstart.run hclock
      have hledger : ledger.Consistent (TaskCommand.passed commands) :=
        TaskLedger.consistent_of commands
      have hspan := hclock.span
      refine ⟨⟨_, (ledger.tasks config run.clock.monotonic).duration run.clock
        .nanoseconds, _, _, config.upperBounds, ?_, rfl,
        hledger.shownBy hspan config run.clock⟩,
        hrun.taskTimes_eq hledger hspan, ?_, ?_⟩
      · intro m hm temporality
        rw [Meter.read, hrun.timer_eq, hm]
        rfl
      · rw [hrun.samples_eq, TaskLedger.samples, List.map_map]
        rfl
      · intro sample hsample
        exact hrun.stopTask hledger hspan hsample

/-- The oldest of three tasks is stopped; one of the others has run for just as
long as a bound. -/
theorem reading_follows_ledger_of_jobs :
    let config := { DistributionSettings.empty with
      objectives := some [2e9, 10e9] }
    let timer : Meter := ⟨.named "batch.job" [], 0,
      .longTaskTimer (some (.create config))⟩
    let clock := Clock.startingAt 0
    let commands : List TaskCommand :=
      [.start, .advance (.ofSeconds 5), .start, .advance (.ofSeconds 1),
        .stop 0, .start, .advance (.ofSeconds 2)]
    let run := (TaskRun.mk clock timer []).run commands
    clock.Endures (TaskCommand.passed commands) ∧
      run.timer.taskTimes run.clock =
        [(1, .ofSeconds 3), (2, .ofSeconds 2)] ∧
      ∃ active duration max snapshot bounds,
        (∀ m : Moment, m.clock = run.clock → ∀ temporality,
          run.timer.read temporality .nanoseconds m =
            (.longTasks active duration max snapshot bounds, run.timer)) ∧
        active = 2 ∧ max = 3e9 ∧ snapshot.max = 3e9 ∧
        bounds = [2e9, 10e9, 1.0 / 0.0] ∧
        snapshot.buckets.map Bucket.count = [1, 1, 0] := by
  intro config timer clock commands run
  have hclock : clock.Endures (TaskCommand.passed commands) :=
    ⟨by decide, by decide, by decide⟩
  have hledger : TaskLedger.of commands =
      ⟨3, 1, [(1, 3000000000), (2, 2000000000)]⟩ := by decide
  have hsorted : config.finiteBounds.mergeSort totalLe =
      config.finiteBounds := by
    apply List.mergeSort_of_pairwise
    decide +kernel
  have hbounds : config.upperBounds = [2e9, 10e9, 1.0 / 0.0] := by
    have hkept : config.finiteBounds.eraseReps = [2e9, 10e9] := by
      decide +kernel
    change (config.finiteBounds.mergeSort totalLe).eraseReps ++ [1.0 / 0.0] = _
    rw [hsorted, hkept]
    rfl
  obtain ⟨⟨active, duration, max, snapshot, bounds, hread, hshown, hfollows⟩,
    htimes, -⟩ := @reading_follows_ledger timer (some config) rfl clock commands
      hclock
  simp only [Option.isSome_some, ↓reduceIte, hledger] at hfollows htimes
  obtain rfl : bounds = [2e9, 10e9, 1.0 / 0.0] := hshown.trans hbounds
  have hmax : max = 3e9 := by
    rw [hfollows.longest_eq]
    decide +kernel
  refine ⟨hclock, htimes, active, duration, max, snapshot, _, hread,
    hfollows.active_eq, hmax, hfollows.max_eq.symm.trans hmax, rfl, ?_⟩
  obtain ⟨fresh, hfresh, hbuckets, -⟩ :=
    hfollows.buckets (List.cons_ne_nil _ _)
  obtain rfl : fresh = ⟨#[2e9, 10e9, 1.0 / 0.0], #[0, 0, 0]⟩ :=
    (Option.some.inj hfresh).symm
  rw [hbuckets]
  decide +kernel

end TaskRun

end WindowedMetrics
