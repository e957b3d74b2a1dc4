/-
Timers of tasks that are still running.
-/
import WindowedMetrics.Distribution.Settings
import WindowedMetrics.Histogram.Snapshot
import WindowedMetrics.Time.Clock
import WindowedMetrics.Time.Unit

namespace WindowedMetrics

/-- The running tasks, oldest first, each with its number and the monotonic
time of its start. -/
structure LongTasks where
  nextTask : Nat
  active : List (Nat × Int)
  bounds : Array Float
  percentiles : List Float

/-- A running task: its number and the monotonic time of its start. -/
structure TaskSample where
  task : Nat
  start : Int
deriving DecidableEq

namespace LongTasks

/-- No tasks; buckets and percentiles as configured. -/
def create (config : DistributionSettings) : LongTasks :=
  ⟨0, [], config.upperBounds.toArray, config.percentileList⟩

/-- Starts a task. -/
def start (l : LongTasks) (clock : Clock) : TaskSample × LongTasks :=
  (⟨l.nextTask, clock.monotonic⟩,
    { l with
      nextTask := l.nextTask + 1
      active := l.active ++ [(l.nextTask, clock.monotonic)] })

/-- Ends a task and returns how long it ran; nothing for a task that is not
running any more. -/
def stop (l : LongTasks) (clock : Clock) (sample : TaskSample) :
    Duration × LongTasks :=
  if l.active.any fun entry => decide (entry.1 = sample.task) then
    (clock.since sample.start,
      { l with active := l.active.filter fun e => decide (e.1 ≠ sample.task) })
  else (.ofNanos 0, l)

/-- The running time of a task in nanoseconds. -/
def runningTime (clock : Clock) (start : Int) : Float :=
  countToFloat (clock.since start).nanos

/-- The running times of all tasks, oldest task first. -/
def runningTimes (l : LongTasks) (clock : Clock) : List Float :=
  l.active.map fun entry => runningTime clock entry.2

/-- The number of running tasks. -/
def count (l : LongTasks) : Nat := l.active.length

/-- The sum of floats in order. -/
def sumOf (values : List Float) : Float := values.foldl (· + ·) 0.0

/-- The sum of all running times. -/
def duration (l : LongTasks) (clock : Clock) (unit : TimeUnit) : Float :=
  unit.express (sumOf (l.runningTimes clock))

/-- The running time of the oldest task, which is the longest; zero without
tasks. -/
def max (l : LongTasks) (clock : Clock) (unit : TimeUnit) : Float :=
  match l.active with
  | [] => 0.0
  | (_, start) :: _ => unit.express (runningTime clock start)

/-- The value at the nearest rank of a percentile among ascending values;
zero without values. -/
def nearestRank (sorted : Array Float) (percentile : Float) : Float :=
  let size := sorted.size
  let rank := ceilSaturating (percentile * countToFloat size)
  sorted.getD (Nat.max 1 (min rank size) - 1) 0.0

/-- Counts of ascending values between consecutive bounds; `lower` values
were counted before. -/
def countsBetween (sorted : Array Float) (lower : Nat) :
    List Float → List Bucket
  | [] => []
  | bound :: rest =>
      let upper := frontLength sorted (· ≤ bound)
      ⟨bound, (upper - lower).toUInt64⟩ :: countsBetween sorted upper rest

/-- The distribution of the running times. -/
def snapshot (l : LongTasks) (clock : Clock) : Snapshot :=
  let sorted := (l.runningTimes clock).mergeSort totalLe
  { count := sorted.length.toUInt64
    total := sumOf sorted
    max := sorted.getLast?.getD 0.0
    percentiles :=
      l.percentiles.map fun p => ⟨p, nearestRank sorted.toArray p⟩
    buckets := countsBetween sorted.toArray 0 l.bounds.toList }

end LongTasks

end WindowedMetrics
