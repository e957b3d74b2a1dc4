/-
What an application measures.  A record is kept of every accepted amount with
its meter and the wall time of its measurement; the clock of a run is the
clock that its commands leave behind.
-/
import WindowedMetrics.Proofs.Meter.Uses
import WindowedMetrics.Proofs.Registry.Tracking

namespace WindowedMetrics

/-- An accepted amount of a meter, with the wall time of its measurement. -/
structure Recorded where
  meter : Nat
  wall : Int
  amount : Float

namespace Recorded

/-- The amounts of a meter in an interval, in the order of their
measurement. -/
def amountsIn (record : List Recorded) (meter : Nat) (interval : Interval) :
    List Float :=
  (record.filter fun e =>
    decide (e.meter = meter) && interval.contains e.wall).map Recorded.amount

/-- The amounts of a meter with the steps of their measurement. -/
def logOf (config : RegistrySettings) (record : List Recorded) (meter : Nat) :
    StepLog Float :=
  (record.filter fun e => decide (e.meter = meter)).map fun e =>
    (config.stepAt e.wall, e.amount)

/-- Amounts of one meter at one time. -/
def ofMeter (meter : Nat) (wall : Int) (amounts : List Float) :
    List Recorded :=
  amounts.map fun amount => ⟨meter, wall, amount⟩

/-- The amounts of the last step, told by steps or by the interval. -/
theorem valuesIn_logOf {config : RegistrySettings}
    (hnanos : config.step.millis * 1000000 < UInt64.size) {now : Int}
    (hnow : 0 ≤ now) (hfits : now * 1000000 < UInt64.size)
    (temporality : Temporality) (unit : TimeUnit)
    {record : List Recorded} (hrecord : ∀ e ∈ record, 0 ≤ e.wall)
    (meter : Nat) :
    (logOf config record meter).valuesIn (config.stepAt now - 1) =
      amountsIn record meter
        (Conversion.starting now config.step temporality unit).lastStep := by
  simp only [StepLog.valuesIn, logOf, amountsIn, List.filter_map,
    List.map_map, List.filter_filter]
  have hfilter : ∀ e ∈ record,
      (decide ((config.stepAt e.wall, e.amount).1 = config.stepAt now - 1) &&
        decide (e.meter = meter)) =
      (decide (e.meter = meter) &&
        (Conversion.starting now config.step temporality
          unit).lastStep.contains e.wall) := by
    intro e he
    rw [contains_lastStep hnanos hnow hfits (hrecord e he), Bool.and_comm]
    rfl
  congr 1
  exact List.filter_congr hfilter

end Recorded

namespace Session

/-! ### What a command measures -/

/-- The command on a meter that a command amounts to, with the name of the
meter's handle.  What was timed goes to the meter as a duration. -/
def meterCommand? (s : Session) : Command → Option (String × MeterCommand)
  | .meter name c => some (name, c)
  | .recordRun name elapsed =>
      let clock := s.clock.advance elapsed
      some (name,
        .recordDurations [] [(clock.since s.clock.monotonic).nanos])
  | .sample (.stop sample name) =>
      (s.samples.lookup sample).map fun start =>
        (name, .recordDurations [s.clock.since start] [])
  | .sample (.popScope name) =>
      s.scope.head?.map fun start =>
        (name, .recordDurations [s.clock.since start] [])
  | _ => none

/-- The accepted amounts that a command brings to the meter of a handle. -/
def measuredOn (s : Session) (name : String) (c : MeterCommand) (wall : Int) :
    List Recorded :=
  match s.handle? name with
  | some (.made reference) =>
      match s.registry.made[reference]? with
      | some meter =>
          Recorded.ofMeter reference wall
            ((meter.amounts c).filter isAccepted)
      | none => []
  | _ => []

/-- What a command measures, at the wall time that it ends at. -/
def measured (s : Session) (c : Command) : List Recorded :=
  match s.meterCommand? c with
  | some (name, command) =>
      s.measuredOn name command (s.perform c).value.2.clock.wall
  | none => []

/-- What commands measure, in order. -/
def recorded (s : Session) : List Command → List Recorded
  | [] => []
  | c :: rest => s.measured c ++ recorded (s.perform c).value.2 rest

/-- The wall clock is never negative and never moves back. -/
def WallSteady (s : Session) : List Command → Prop
  | [] => 0 ≤ s.clock.wall
  | c :: rest =>
      0 ≤ s.clock.wall ∧
      s.clock.wall ≤ (s.perform c).value.2.clock.wall ∧
      WallSteady (s.perform c).value.2 rest

instance decidableWallSteady : (s : Session) → (commands : List Command) →
    Decidable (s.WallSteady commands)
  | s, [] => inferInstanceAs (Decidable (0 ≤ s.clock.wall))
  | s, c :: rest =>
      have := decidableWallSteady (s.perform c).value.2 rest
      inferInstanceAs (Decidable (0 ≤ s.clock.wall ∧
        s.clock.wall ≤ (s.perform c).value.2.clock.wall ∧
        WallSteady (s.perform c).value.2 rest))

end Session

/-- Whether a command closes no meter; a meter that is removed is closed, and
the publisher closes all in the end. -/
def Command.keepsOpen : Command → Bool
  | .registry (.remove _) => false
  | .registry (.removeFiltered _) => false
  | .registry .clear => false
  | .registry .closeAll => false
  | .meter _ .close => false
  | .exporter (.runPublisher _) => false
  | _ => true

namespace Session

theorem WallSteady.nonneg_run {s : Session} {commands : List Command}
    (h : s.WallSteady commands) : 0 ≤ (s.run commands).2.clock.wall := by
  induction commands generalizing s with
  | nil => exact h
  | cons c rest ih => exact ih h.2.2

theorem of_mem_measured {s : Session} {c : Command} {e : Recorded}
    (he : e ∈ s.measured c) :
    e.wall = (s.perform c).value.2.clock.wall ∧
      isAccepted e.amount = true := by
  unfold measured at he
  split at he
  · unfold measuredOn at he
    split at he
    · split at he
      · obtain ⟨amount, hamount, rfl⟩ := List.mem_map.mp he
        exact ⟨rfl, (List.mem_filter.mp hamount).2⟩
      · cases he
    · cases he
  · cases he

theorem accepted_of_mem_recorded {s : Session} {commands : List Command} :
    ∀ e ∈ s.recorded commands, isAccepted e.amount = true := by
  induction commands generalizing s with
  | nil => simp [recorded]
  | cons c rest ih =>
      intro e he
      rcases List.mem_append.mp he with hfirst | hlater
      · exact (of_mem_measured hfirst).2
      · exact ih e hlater

theorem WallSteady.nonneg_recorded {s : Session} {commands : List Command}
    (h : s.WallSteady commands) : ∀ e ∈ s.recorded commands, 0 ≤ e.wall := by
  induction commands generalizing s with
  | nil => simp [recorded]
  | cons c rest ih =>
      intro e he
      rcases List.mem_append.mp he with hfirst | hlater
      · rw [(of_mem_measured hfirst).1]
        exact Int.le_trans h.1 h.2.1
      · exact ih h.2.2 e hlater

theorem clock_tick (s : Session) : s.tick.clock = s.clock := by
  -- the fields must be apart, or the draws of chance are compared as numbers
  obtain ⟨clock, context, chance, cells, registry, exporter, handles, samples,
    scope, tasks⟩ := s
  simp only [tick]

theorem clock_put (s : Session) (handle : MeterHandle) (meter : Meter) :
    (s.put handle meter).clock = s.clock := by
  simp only [put]

theorem clock_onMeter (s : Session) (name : String)
    (op : Meter → Option (Answer × Meter)) :
    (s.onMeter name op).value.2.clock = s.clock := by
  unfold onMeter
  split
  · split
    · rfl
    · simp only [answer, clock_tick, clock_put]
  · rfl

theorem amounts_eq_nil_of_kind_ne {meter : Meter}
    (hkind : meter.kind ≠ .timer) (durations : List Duration)
    (nanos : List Nat) :
    meter.amounts (.recordDurations durations nanos) = [] := by
  obtain ⟨id, created, instrument⟩ := meter
  cases instrument <;> first | rfl | exact absurd rfl hkind

/-- Durations are measured on timers only. -/
theorem measuredOn_eq_nil_of_kind_ne {s : Session} {name : String}
    (hkind : ∀ meter, s.meter? name = some meter → meter.kind ≠ .timer)
    (durations : List Duration) (nanos : List Nat) (wall : Int) :
    s.measuredOn name (.recordDurations durations nanos) wall = [] := by
  unfold measuredOn
  split
  · rename_i reference hhandle
    split
    · rename_i meter hmeter
      have hamounts := amounts_eq_nil_of_kind_ne (hkind meter (by
        simp [meter?, hhandle, Registry.meterOf?, hmeter])) durations nanos
      simp [hamounts, Recorded.ofMeter]
    · rfl
  · rfl

end Session

end WindowedMetrics
