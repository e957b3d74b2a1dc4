/-
The windows of counters and distributions under a clock that never moves
back.  Each of them has a boundary of its own and moves when it is next used;
what keeps them together is that none is ahead of the present step and that
all follow one log of accepted amounts.
-/
import WindowedMetrics.Meter.Distribution
import WindowedMetrics.Proofs.Histogram.Contents
import WindowedMetrics.Proofs.Step.Window

namespace WindowedMetrics

/-! ### Windows -/

namespace RollingWindow

variable {V : Type} {acc : Accumulator V}

/-- A window that follows a log, in steps of `length` milliseconds, and is not
ahead of the present step. -/
structure Paced (w : RollingWindow acc) (length present : Int)
    (log : StepLog V) : Prop where
  length_eq : w.tracker.stepMillis = length
  le_present : w.tracker.current ≤ present
  follows : w.Follows log

theorem paced_starting (acc : Accumulator V) (step : Duration) (now : Int) :
    (starting acc step now).Paced (StepTracker.lengthMillis step)
      (now.tdiv (StepTracker.lengthMillis step)) [] :=
  ⟨rfl, Int.le_refl _, follows_starting acc step now⟩

namespace Paced

variable {w : RollingWindow acc} {length present now : Int} {log : StepLog V}

theorem mono (h : w.Paced length present log) {later : Int}
    (hle : present ≤ later) : w.Paced length later log :=
  ⟨h.length_eq, Int.le_trans h.le_present hle, h.follows⟩

/-- After a rollover, a paced window is in the present step. -/
theorem current_rollover (h : w.Paced length (now.tdiv length) log) :
    (w.rollover now).tracker.current = now.tdiv length := by
  have hstep := current_rolloverWith w now id
  rw [StepTracker.stepAt, h.length_eq] at hstep
  exact hstep.trans (Int.max_eq_right h.le_present)

theorem rollover (h : w.Paced length (now.tdiv length) log) :
    (w.rollover now).Paced length (now.tdiv length) log := by
  refine ⟨?_, Int.le_of_eq h.current_rollover, h.follows.rollover now⟩
  exact (stepMillis_rolloverWith w now id).trans h.length_eq

theorem record (h : w.Paced length (now.tdiv length) log) (value : V) :
    (w.record now value).Paced length (now.tdiv length)
      (log ++ StepLog.ofStep (now.tdiv length) [value]) := by
  have hrecord := h.follows.record now value
  rw [StepTracker.stepAt, h.length_eq, Int.max_eq_right h.le_present]
    at hrecord
  exact ⟨h.rollover.length_eq, h.rollover.le_present, hrecord⟩

/-- A poll shows the step before the present one. -/
theorem poll_fst (h : w.Paced length (now.tdiv length) log) :
    (w.poll now).1 = acc.fold (log.valuesIn (now.tdiv length - 1)) := by
  have hprevious := h.rollover.follows.previous_eq
  rw [h.current_rollover] at hprevious
  exact hprevious

end Paced

end RollingWindow

/-! ### Histograms by steps -/

namespace SteppedHistogram

/-- A histogram whose two slots show a log, and that is not ahead of the
present step. -/
structure Paced (h : SteppedHistogram) (length present : Int)
    (log : StepLog Float) : Prop where
  length_eq : h.tracker.stepMillis = length
  le_present : h.tracker.current ≤ present
  shows : StepLog.Shows h.plan.slotOf log h.tracker.current h.filling h.closed

theorem paced_create (plan : SlotPlan) (step : Duration) (now : Int) :
    (create plan step now).Paced (StepTracker.lengthMillis step)
      (now.tdiv (StepTracker.lengthMillis step)) [] :=
  ⟨rfl, Int.le_refl _, StepLog.Shows.nil plan.slotOf _⟩

theorem plan_rollover (h : SteppedHistogram) (now : Int) :
    (h.rollover now).plan = h.plan := by
  unfold rollover
  split <;> rfl

namespace Paced

variable {h : SteppedHistogram} {length present now : Int}
  {log : StepLog Float}

theorem mono (hh : h.Paced length present log) {later : Int}
    (hle : present ≤ later) : h.Paced length later log :=
  ⟨hh.length_eq, Int.le_trans hh.le_present hle, hh.shows⟩

/-- A rollover leads to the present step.  Every slot that is cleared is
empty, whether it was closed long ago or only now. -/
theorem rollover (hh : h.Paced length (now.tdiv length) log) :
    (h.rollover now).Paced length (now.tdiv length) log ∧
      (h.rollover now).tracker.current = now.tdiv length := by
  have hpresent : h.tracker.stepAt now = now.tdiv length := by
    rw [StepTracker.stepAt, hh.length_eq]
  have hle := hh.le_present
  by_cases hlater : h.tracker.current < now.tdiv length
  · have hdue : h.tracker.due? now =
        some ⟨h.tracker.current, now.tdiv length⟩ := by
      rw [StepTracker.due?, hpresent, if_pos hlater]
    have hentered := hh.shows.enter hlater
    have hfilling : h.closed.reset = h.plan.slotOf [] := by
      rw [hh.shows.previous_eq, SlotPlan.reset_slotOf]
    have hcleared : h.filling.reset = h.plan.slotOf [] := by
      rw [hh.shows.current_eq, SlotPlan.reset_slotOf]
    simp only [SteppedHistogram.rollover, StepTracker.advance, hdue,
      StepMove.contiguous, decide_eq_true_eq, hfilling, hcleared]
    exact ⟨⟨hh.length_eq, Int.le_refl _, hentered⟩, trivial⟩
  · have hdue : h.tracker.due? now = none := by
      rw [StepTracker.due?, hpresent, if_neg hlater]
    have hsame : h.rollover now = h := by
      simp only [SteppedHistogram.rollover, hdue]
    rw [hsame]
    exact ⟨hh, by omega⟩

theorem record (hh : h.Paced length (now.tdiv length) log) (value : Float) :
    (h.record now value).Paced length (now.tdiv length)
      (log ++ StepLog.ofStep (now.tdiv length) [value]) := by
  obtain ⟨hroll, hcurrent⟩ := hh.rollover
  have happend := hroll.shows.append [value]
  rw [SlotPlan.slotOf_append_singleton, ← hroll.shows.current_eq, hcurrent]
    at happend
  refine ⟨hroll.length_eq, hroll.le_present, ?_⟩
  simp only [SteppedHistogram.record, hcurrent]
  exact happend

/-- A snapshot shows the step before the present one. -/
theorem snapshot_fst (hh : h.Paced length (now.tdiv length) log)
    (count : UInt64) (total max : Float) :
    (h.snapshot now count total max).1 =
      h.plan.snapshotOf (log.valuesIn (now.tdiv length - 1)) count total
        max := by
  obtain ⟨hroll, hcurrent⟩ := hh.rollover
  have hclosed := hroll.shows.previous_eq
  rw [hcurrent, plan_rollover] at hclosed
  simp only [SteppedHistogram.snapshot, plan_rollover, hclosed,
    SlotPlan.snapshot_slotOf]

end Paced

end SteppedHistogram

/-! ### Counters -/

/-- NaN is not accepted: it compares with nothing. -/
theorem isNaN_of_isAccepted {amount : Float}
    (haccepted : isAccepted amount = true) : amount.isNaN = false := by
  have hle : Float.Model.UnpackedFloat.le (0.0 : Float).toModel.unpack
      amount.toModel.unpack = true := by
    have hzero : (0.0 : Float).le amount = true := of_decide_eq_true haccepted
    exact of_decide_eq_true hzero
  have hstatus : amount.isNaN = amount.toModel.unpack.isNaN := rfl
  rw [hstatus]
  cases hvalue : amount.toModel.unpack with
  | notANumber =>
      have hnever : Float.Model.UnpackedFloat.le (0.0 : Float).toModel.unpack
          .notANumber = false := by decide +kernel
      rw [hvalue, hnever] at hle
      cases hle
  | _ => rfl

theorem numbers_of_accepted {values : List Float}
    (haccepted : ∀ value ∈ values, isAccepted value = true) :
    SlotPlan.numbers values = values := by
  apply List.filter_eq_self.mpr
  intro value hvalue
  rw [isNaN_of_isAccepted (haccepted value hvalue), Bool.not_false]

namespace StepLog

/-- The amounts of one call that are accepted, in its step. -/
def ofAccepted (step : Int) (amounts : List Float) : StepLog Float :=
  ofStep step (amounts.filter isAccepted)

theorem ofAccepted_singleton_of_accepted (step : Int) {amount : Float}
    (haccepted : isAccepted amount = true) :
    ofAccepted step [amount] = ofStep step [amount] := by
  simp [ofAccepted, haccepted]

theorem ofAccepted_singleton_of_not_accepted (step : Int) {amount : Float}
    (haccepted : isAccepted amount = false) :
    ofAccepted step [amount] = [] := by
  simp [ofAccepted, ofStep, haccepted]

end StepLog

namespace Counter

/-- A counter whose step follows a log of accepted amounts. -/
def Tracks (c : Counter) (length present : Int) (log : StepLog Float) :
    Prop :=
  c.step.Paced length present log

theorem tracks_create (c : RegistrySettings) (now : Int) :
    (create c now).Tracks (StepTracker.lengthMillis c.step)
      (now.tdiv (StepTracker.lengthMillis c.step)) [] :=
  RollingWindow.paced_starting _ c.step now

namespace Tracks

variable {c : Counter} {length : Int} {log : StepLog Float}

theorem increment {m : Moment}
    (hc : c.Tracks length (m.now.tdiv length) log) (amount : Float) :
    (c.increment m amount).Tracks length (m.now.tdiv length)
      (log ++ StepLog.ofAccepted (m.now.tdiv length) [amount]) := by
  unfold Counter.increment
  cases haccepted : isAccepted amount with
  | true =>
      rw [if_pos rfl, StepLog.ofAccepted_singleton_of_accepted _ haccepted]
      exact RollingWindow.Paced.record hc amount
  | false =>
      rw [if_neg (by simp),
        StepLog.ofAccepted_singleton_of_not_accepted _ haccepted,
        List.append_nil]
      exact hc

theorem value {now : Int} (hc : c.Tracks length (now.tdiv length) log)
    (temporality : Temporality) :
    (c.value temporality now).2.Tracks length (now.tdiv length) log := by
  cases temporality with
  | cumulative => exact hc
  | delta => exact RollingWindow.Paced.rollover hc

/-- A delta value is the sum of the step before the present one. -/
theorem value_delta {now : Int} (hc : c.Tracks length (now.tdiv length) log) :
    (c.value .delta now).1 =
      Accumulator.doubleSum.fold (log.valuesIn (now.tdiv length - 1)) :=
  RollingWindow.Paced.poll_fst hc

theorem takeExemplars {now : Int}
    (hc : c.Tracks length (now.tdiv length) log) :
    (c.takeExemplars now).2.Tracks length (now.tdiv length) log := by
  unfold Counter.takeExemplars
  split <;> exact hc

end Tracks

end Counter

/-! ### Distributions -/

/-- The snapshot of the values of one step under an optional layout. -/
def Snapshot.ofValues (plan : Option SlotPlan) (values : List Float) :
    Snapshot :=
  let count := UInt64.ofNat values.length
  let total := Accumulator.doubleSum.fold values
  let max := Accumulator.doubleMax.fold values
  match plan with
  | none => Snapshot.scalar count total max
  | some plan => plan.snapshotOf values count total max

/-- Counting ones counts values. -/
theorem Accumulator.longSum_fold_ones (values : List Float) :
    longSum.fold (values.map fun _ => (1 : UInt64)) =
      UInt64.ofNat values.length := by
  induction values using List.reverseRecOn with
  | nil => rfl
  | append_singleton before value ih =>
      rw [List.map_append, List.map_singleton, fold_append_singleton, ih,
        List.length_append, List.length_singleton, UInt64.ofNat_add]
      rfl

namespace Distribution

/-- The layout of a distribution that is kept by steps. -/
def plan? (d : Distribution) : Option SlotPlan :=
  match d.histogram with
  | some (.stepped h) => some h.plan
  | _ => none

/-- The amounts of a log, each with a count of one. -/
def counted (log : StepLog Float) : StepLog (UInt64 × Float) :=
  log.map fun e => (e.1, ((1 : UInt64), e.2))

/-- A distribution whose windows all follow one log of accepted amounts. -/
structure Tracks (d : Distribution) (length present : Int)
    (log : StepLog Float) : Prop where
  step : d.step.Paced length present (counted log)
  max : d.max.Paced length present log
  histogram : ∀ h, d.histogram = some h →
    ∃ stepped, h = .stepped stepped ∧ stepped.Paced length present log

theorem counted_append (log more : StepLog Float) :
    counted (log ++ more) = counted log ++ counted more :=
  List.map_append

theorem fold_counted (log : StepLog Float) (step : Int) :
    countAndSum.fold ((counted log).valuesIn step) =
      (UInt64.ofNat (log.valuesIn step).length,
        Accumulator.doubleSum.fold (log.valuesIn step)) := by
  rw [counted, StepLog.valuesIn_map log (fun value => ((1 : UInt64), value)),
    Accumulator.fold_pair, List.map_map, List.map_map]
  have hcount := Accumulator.longSum_fold_ones (log.valuesIn step)
  simp only [Function.comp_def, hcount, List.map_id']

/-- Under delta temporality, a new distribution keeps its histogram by
steps. -/
theorem tracks_create {c : RegistrySettings} (hdelta : c.temporality = .delta)
    {config : DistributionSettings} {now : Int} {d : Distribution}
    (hcreate : create c config now = .ok d) :
    d.Tracks (StepTracker.lengthMillis c.step)
      (now.tdiv (StepTracker.lengthMillis c.step)) [] := by
  unfold create at hcreate
  cases hhistogram : c.histogram config now with
  | error fault =>
      rw [hhistogram] at hcreate
      cases hcreate
  | ok histogram =>
      rw [hhistogram] at hcreate
      cases hcreate
      refine ⟨RollingWindow.paced_starting _ c.step now,
        RollingWindow.paced_starting _ c.step now, ?_⟩
      rintro h rfl
      unfold RegistrySettings.histogram Histogram.create at hhistogram
      split at hhistogram
      · cases hhistogram
      · unfold Histogram.createUnchecked at hhistogram
        split at hhistogram
        · cases hhistogram
        · rename_i plan _
          simp only [RegistrySettings.retention, hdelta, Histogram.ofPlan,
            Except.map] at hhistogram
          cases hhistogram
          exact ⟨_, rfl, SteppedHistogram.paced_create plan c.step now⟩

namespace Tracks

variable {d : Distribution} {length present : Int} {log : StepLog Float}

theorem mono (hd : d.Tracks length present log) {later : Int}
    (hle : present ≤ later) : d.Tracks length later log := by
  refine ⟨hd.step.mono hle, hd.max.mono hle, ?_⟩
  intro h hh
  obtain ⟨stepped, rfl, hpaced⟩ := hd.histogram h hh
  exact ⟨stepped, rfl, hpaced.mono hle⟩

theorem record {m : Moment} (hd : d.Tracks length (m.now.tdiv length) log)
    (value : Float) :
    (d.record m value).Tracks length (m.now.tdiv length)
      (log ++ StepLog.ofAccepted (m.now.tdiv length) [value]) := by
  unfold Distribution.record
  cases haccepted : isAccepted value with
  | true =>
      rw [if_pos rfl, StepLog.ofAccepted_singleton_of_accepted _ haccepted]
      refine ⟨?_, hd.max.record value, ?_⟩
      · rw [counted_append]
        exact hd.step.record (1, value)
      · intro h hh
        obtain ⟨before, hbefore, rfl⟩ := Option.map_eq_some_iff.mp hh
        obtain ⟨stepped, rfl, hpaced⟩ := hd.histogram before hbefore
        exact ⟨_, rfl, hpaced.record value⟩
  | false =>
      rw [if_neg (by simp),
        StepLog.ofAccepted_singleton_of_not_accepted _ haccepted,
        List.append_nil]
      exact hd

theorem rollover {now : Int} (hd : d.Tracks length (now.tdiv length) log) :
    (d.rollover now).Tracks length (now.tdiv length) log :=
  ⟨hd.step.rollover, hd.max.rollover, hd.histogram⟩

theorem maximum {now : Int} (hd : d.Tracks length (now.tdiv length) log) :
    (d.maximum now).2.Tracks length (now.tdiv length) log :=
  ⟨hd.step, hd.max.rollover.rollover, hd.histogram⟩

theorem takeExemplars {now : Int}
    (hd : d.Tracks length (now.tdiv length) log) :
    (d.takeExemplars now).2.Tracks length (now.tdiv length) log := by
  unfold Distribution.takeExemplars
  split
  · exact hd
  · exact ⟨hd.step, hd.max, hd.histogram⟩

theorem statistics {now : Int} (hd : d.Tracks length (now.tdiv length) log)
    (temporality : Temporality) :
    (d.statistics temporality now).2.Tracks length (now.tdiv length) log := by
  cases temporality with
  | cumulative => exact hd.maximum
  | delta => exact ⟨hd.step.rollover, hd.max.rollover, hd.histogram⟩

theorem snapshot {now : Int} (hd : d.Tracks length (now.tdiv length) log)
    (temporality : Temporality) :
    (d.snapshot temporality now).2.Tracks length (now.tdiv length) log := by
  have hstatistics := hd.statistics temporality
  unfold Distribution.snapshot
  generalize d.statistics temporality now = read at hstatistics ⊢
  obtain ⟨⟨count, total, max⟩, d⟩ := read
  simp only
  split
  · exact hstatistics
  · rename_i histogram hhistogram
    refine ⟨hstatistics.step, hstatistics.max, ?_⟩
    rintro h hh
    obtain ⟨stepped, rfl, hpaced⟩ := hstatistics.histogram histogram hhistogram
    cases hh
    exact ⟨_, rfl, hpaced.rollover.1⟩

/-- A delta snapshot shows the step before the present one in all its
parts. -/
theorem snapshot_delta {now : Int}
    (hd : d.Tracks length (now.tdiv length) log) :
    (d.snapshot .delta now).1 =
      Snapshot.ofValues d.plan? (log.valuesIn (now.tdiv length - 1)) := by
  have hstep := hd.step.poll_fst
  rw [fold_counted] at hstep
  have hmax := hd.max.poll_fst
  simp only [Distribution.snapshot, Distribution.statistics, hstep, hmax,
    plan?, Snapshot.ofValues]
  cases hhistogram : d.histogram with
  | none => rfl
  | some histogram =>
      obtain ⟨stepped, rfl, hpaced⟩ := hd.histogram histogram hhistogram
      exact hpaced.snapshot_fst _ _ _

end Tracks

end Distribution

end WindowedMetrics
