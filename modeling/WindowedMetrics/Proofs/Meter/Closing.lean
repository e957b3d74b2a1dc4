/-
Closing a distribution.  Its count and its histogram have boundaries of their
own: a rollover moves the count alone, and closing flips each of them at
whatever step it is in.  So a closed distribution shows the amounts of one
step in its count and those of a possibly earlier step in its buckets.
-/
import WindowedMetrics.Proofs.Meter.Lifetime

namespace WindowedMetrics

/-! ### Closed histograms -/

namespace SteppedHistogram

/-- A closed histogram with the values of its last step. -/
structure Frozen (h : SteppedHistogram) (length : Int) (plan : SlotPlan)
    (values : List Float) : Prop where
  length_eq : h.tracker.stepMillis = length
  closed : h.tracker.current = StepTracker.closedStep
  plan_eq : h.plan = plan
  shows : h.closed = plan.slotOf values

namespace Frozen

variable {h : SteppedHistogram} {length now : Int} {plan : SlotPlan}
  {values : List Float}

/-- No time reaches past the step of a closed histogram. -/
theorem rollover (hh : h.Frozen length plan values)
    (hbelow : now.tdiv length < StepTracker.closedStep) :
    h.rollover now = h := by
  have hdue : h.tracker.due? now = none := by
    rw [StepTracker.due?, StepTracker.stepAt, hh.length_eq, hh.closed,
      if_neg (by omega)]
  simp only [SteppedHistogram.rollover, hdue]

theorem record (hh : h.Frozen length plan values)
    (hbelow : now.tdiv length < StepTracker.closedStep) (value : Float) :
    (h.record now value).Frozen length plan values := by
  simp only [SteppedHistogram.record, hh.rollover hbelow]
  exact ⟨hh.length_eq, hh.closed, hh.plan_eq, hh.shows⟩

theorem close (hh : h.Frozen length plan values) : h.close = h := by
  have hclosed : h.tracker.isClosed = true := by
    simp [StepTracker.isClosed, hh.closed]
  simp only [SteppedHistogram.close, hclosed, ↓reduceIte]

theorem snapshot_fst (hh : h.Frozen length plan values)
    (hbelow : now.tdiv length < StepTracker.closedStep) (count : UInt64)
    (total max : Float) :
    (h.snapshot now count total max).1 =
      plan.snapshotOf values count total max := by
  simp only [SteppedHistogram.snapshot, hh.rollover hbelow, hh.plan_eq,
    hh.shows, SlotPlan.snapshot_slotOf]

end Frozen

theorem Paced.frozen_close {h : SteppedHistogram} {length present : Int}
    {log : StepLog Float} (hh : h.Paced length present log)
    (hbelow : present < StepTracker.closedStep) :
    h.close.Frozen length h.plan (log.valuesIn h.tracker.current) := by
  have hopen : h.tracker.isClosed = false := by
    have := hh.le_present
    exact decide_eq_false (by omega)
  simp only [SteppedHistogram.close, hopen, Bool.false_eq_true, ↓reduceIte]
  exact ⟨hh.length_eq, rfl, rfl, hh.shows.current_eq⟩

end SteppedHistogram

theorem RollingWindow.Paced.frozen_close {V : Type} {acc : Accumulator V}
    {w : RollingWindow acc} {length present : Int} {log : StepLog V}
    (hw : w.Paced length present log)
    (hbelow : present < StepTracker.closedStep) :
    w.close.Frozen length (acc.fold (log.valuesIn w.tracker.current)) := by
  have hopen : w.tracker.isClosed = false := by
    have := hw.le_present
    exact decide_eq_false (by omega)
  simp only [RollingWindow.close, hopen, Bool.false_eq_true, ↓reduceIte]
  exact ⟨hw.length_eq, rfl, hw.follows.current_eq⟩

/-! ### The two steps of a distribution -/

/-- What a distribution saw: the accepted amounts by steps, the step that its
count is in, and the step that its buckets are in. -/
structure BucketHistory where
  log : StepLog Float
  countStep : Int
  bucketStep : Int

namespace BucketHistory

/-- A history goes on by one use in the step `seen`.  Accepted amounts and
delta snapshots move both steps, rollovers that of the count, cumulative
snapshots that of the buckets. -/
def next (h : BucketHistory) (seen : Int) (use : MeterUse) : BucketHistory :=
  match use with
  | .record amount =>
      if isAccepted amount then
        ⟨h.log ++ StepLog.ofStep seen [amount], seen, seen⟩
      else h
  | .read .delta => { h with countStep := seen, bucketStep := seen }
  | .read .cumulative => { h with bucketStep := seen }
  | .rollover => { h with countStep := seen }
  | _ => h

/-- The history of uses from a wall time on, in steps of `length`
milliseconds. -/
def of (length start : Int) (uses : List TimedUse) : BucketHistory :=
  uses.foldl (fun h u => h.next (u.moment.now.tdiv length) u.use)
    ⟨[], start.tdiv length, start.tdiv length⟩

theorem of_append_singleton (length start : Int) (uses : List TimedUse)
    (u : TimedUse) :
    of length start (uses ++ [u]) =
      (of length start uses).next (u.moment.now.tdiv length) u.use := by
  simp [of]

/-- Only accepted amounts are held. -/
theorem accepted_of_mem_log (length start : Int) (uses : List TimedUse) :
    ∀ e ∈ (of length start uses).log, isAccepted e.2 = true := by
  induction uses using List.reverseRecOn with
  | nil => simp [of]
  | append_singleton before u ih =>
      rw [of_append_singleton]
      generalize of length start before = h at ih ⊢
      unfold next
      split
      · split
        · rename_i amount haccepted
          intro e he
          rcases List.mem_append.mp he with hold | hnew
          · exact ih e hold
          · obtain ⟨value, hvalue, rfl⟩ := List.mem_map.mp hnew
            rw [List.mem_singleton.mp hvalue]
            exact haccepted
        · exact ih
      all_goals exact ih

end BucketHistory

namespace Distribution

theorem step_snapshot (d : Distribution) (temporality : Temporality)
    (now : Int) :
    (d.snapshot temporality now).2.step =
      match temporality with
      | .cumulative => d.step
      | .delta => d.step.rollover now := by
  cases temporality with
  | cumulative =>
      simp only [snapshot, statistics, maximum]
      split <;> rfl
  | delta =>
      simp only [snapshot, statistics]
      split <;> rfl

/-- Every snapshot moves the buckets to its step. -/
theorem histogram_snapshot {d : Distribution} {stepped : SteppedHistogram}
    (hstepped : d.histogram = some (.stepped stepped))
    (temporality : Temporality) (now : Int) :
    (d.snapshot temporality now).2.histogram =
      some (.stepped (stepped.rollover now)) := by
  cases temporality with
  | cumulative =>
      simp only [snapshot, statistics, maximum, hstepped]
      rfl
  | delta =>
      simp only [snapshot, statistics, hstepped]
      rfl

/-- A distribution with buckets that is where a history says it is. -/
structure Mirrors (d : Distribution) (length present : Int) (plan : SlotPlan)
    (h : BucketHistory) : Prop where
  tracks : d.Tracks length present h.log
  countStep_eq : d.step.tracker.current = h.countStep
  histogram : ∃ stepped, d.histogram = some (.stepped stepped) ∧
    stepped.plan = plan ∧ stepped.tracker.current = h.bucketStep

namespace Mirrors

variable {d : Distribution} {length present now : Int} {plan : SlotPlan}
  {h : BucketHistory}

theorem exists_paced (hd : d.Mirrors length present plan h) :
    ∃ stepped, d.histogram = some (.stepped stepped) ∧ stepped.plan = plan ∧
      stepped.tracker.current = h.bucketStep ∧
      stepped.Paced length present h.log := by
  obtain ⟨stepped, hstepped, hplan, hstep⟩ := hd.histogram
  obtain ⟨_, heq, hpaced⟩ := hd.tracks.histogram _ hstepped
  cases heq
  exact ⟨stepped, hstepped, hplan, hstep, hpaced⟩

theorem mono (hd : d.Mirrors length present plan h) {later : Int}
    (hle : present ≤ later) : d.Mirrors length later plan h :=
  ⟨hd.tracks.mono hle, hd.countStep_eq, hd.histogram⟩

/-- Statistics that are polled move the count to the present step. -/
theorem countStep_poll (hd : d.Mirrors length (now.tdiv length) plan h) :
    (d.step.rollover now).tracker.current = now.tdiv length :=
  hd.tracks.step.current_rollover

theorem record {m : Moment}
    (hd : d.Mirrors length (m.now.tdiv length) plan h) (amount : Float) :
    (d.record m amount).Mirrors length (m.now.tdiv length) plan
      (h.next (m.now.tdiv length) (.record amount)) := by
  have htracks := hd.tracks.record (m := m) amount
  cases haccepted : isAccepted amount with
  | true =>
      rw [StepLog.ofAccepted_singleton_of_accepted _ haccepted] at htracks
      simp only [BucketHistory.next, haccepted, ↓reduceIte]
      obtain ⟨stepped, hstepped, hplan, _, hpaced⟩ := hd.exists_paced
      refine ⟨htracks, ?_, stepped.record m.now amount, ?_, ?_, ?_⟩
      · simp only [Distribution.record, haccepted, ↓reduceIte]
        exact hd.countStep_poll
      · simp only [Distribution.record, haccepted, ↓reduceIte, hstepped,
          Option.map_some, Histogram.record]
      · exact (SteppedHistogram.plan_rollover stepped m.now).trans hplan
      · exact hpaced.rollover.2
  | false =>
      simp only [BucketHistory.next, haccepted, Distribution.record,
        Bool.false_eq_true, ↓reduceIte]
      exact hd

/-- A snapshot moves the buckets, and a delta snapshot moves the count with
them. -/
theorem read (hd : d.Mirrors length (now.tdiv length) plan h)
    (temporality : Temporality) :
    (d.snapshot temporality now).2.Mirrors length (now.tdiv length) plan
      (h.next (now.tdiv length) (.read temporality)) := by
  obtain ⟨stepped, hstepped, hplan, _, hpaced⟩ := hd.exists_paced
  have hstep := d.step_snapshot temporality now
  have hhistogram : ∃ moved,
      (d.snapshot temporality now).2.histogram = some (.stepped moved) ∧
      moved.plan = plan ∧ moved.tracker.current = now.tdiv length :=
    ⟨_, histogram_snapshot hstepped temporality now,
      (SteppedHistogram.plan_rollover stepped now).trans hplan,
      hpaced.rollover.2⟩
  cases temporality with
  | cumulative =>
      refine ⟨hd.tracks.snapshot .cumulative, ?_, hhistogram⟩
      rw [hstep]
      exact hd.countStep_eq
  | delta =>
      refine ⟨hd.tracks.snapshot .delta, ?_, hhistogram⟩
      rw [hstep]
      exact hd.countStep_poll

/-- Every use but closing goes on as the history does. -/
theorem use (hd : d.Mirrors length present plan h) {u : TimedUse}
    (hnow : present ≤ u.moment.now.tdiv length) (hopen : u.use ≠ .close) :
    (d.use u).Mirrors length (u.moment.now.tdiv length) plan
      (h.next (u.moment.now.tdiv length) u.use) := by
  obtain ⟨m, use⟩ := u
  have hlater := hd.mono hnow
  cases use with
  | record amount => exact hlater.record amount
  | maximum =>
      exact ⟨hlater.tracks.maximum, hlater.countStep_eq, hlater.histogram⟩
  | read temporality =>
      cases temporality with
      | cumulative => exact hlater.read .cumulative
      | delta => exact hlater.read .delta
  | takeExemplars =>
      refine ⟨hlater.tracks.takeExemplars, ?_, ?_⟩
      · simp only [Distribution.use, Distribution.takeExemplars]
        split <;> exact hlater.countStep_eq
      · simp only [Distribution.use, Distribution.takeExemplars]
        split <;> exact hlater.histogram
  | rollover =>
      exact ⟨hlater.tracks.rollover, hlater.countStep_poll,
        hlater.histogram⟩
  | close => exact absurd rfl hopen

end Mirrors

/-- A new distribution with buckets has both in the step of its creation. -/
theorem mirrors_create {c : RegistrySettings} (hdelta : c.temporality = .delta)
    {config : DistributionSettings} {start : Int} {d : Distribution}
    (hcreate : create c config start = .ok d) (hbounds : d.bounds ≠ #[]) :
    ∃ plan, plan.CoversAll ∧
      d.Mirrors (StepTracker.lengthMillis c.step)
        (start.tdiv (StepTracker.lengthMillis c.step)) plan
        (BucketHistory.of (StepTracker.lengthMillis c.step) start []) := by
  have htracks := tracks_create hdelta hcreate
  unfold create at hcreate
  obtain ⟨histogram, hhistogram, rfl⟩ := exists_of_map_eq_ok hcreate
  unfold RegistrySettings.histogram Histogram.create at hhistogram
  split at hhistogram
  · cases hhistogram
  · unfold Histogram.createUnchecked at hhistogram
    split at hhistogram
    · cases hhistogram
      exact absurd rfl hbounds
    · rename_i plan hplan
      simp only [RegistrySettings.retention, hdelta, Histogram.ofPlan]
        at hhistogram
      cases hhistogram
      have hpublished : plan.bounds ≠ #[] := hbounds
      have hcovers : plan.CoversAll :=
        SlotPlan.coversAll_of_ofConfig? hplan (by simpa using hpublished)
      exact ⟨plan, hcovers, htracks, rfl, _, rfl, rfl, rfl⟩

/-- A run that closes nothing goes on as the history does. -/
theorem mirrors_useAll {d : Distribution} {length start : Int}
    {plan : SlotPlan} (hlength : 0 < length)
    (hd : d.Mirrors length (start.tdiv length) plan
      (BucketHistory.of length start []))
    (uses : List TimedUse) (hopen : ∀ u ∈ uses, u.use ≠ .close) {last : Int}
    (hsteady : (start :: uses.map fun u => u.moment.now).Pairwise (· ≤ ·))
    (hlast : ∀ time ∈ start :: uses.map fun u => u.moment.now, time ≤ last) :
    (d.useAll uses).Mirrors length (last.tdiv length) plan
      (BucketHistory.of length start uses) := by
  induction uses using List.reverseRecOn generalizing last with
  | nil => exact hd.mono (Int.tdiv_le_tdiv hlength (hlast start (by simp)))
  | append_singleton before u ih =>
      rw [List.map_append, ← List.cons_append, List.pairwise_append]
        at hsteady
      have hbefore := ih
        (fun e he => hopen e (List.mem_append_left [u] he)) hsteady.1
        fun time htime => hsteady.2.2 time htime u.moment.now (by simp)
      have hused := hbefore.use (Int.le_refl _) (hopen u (by simp))
      rw [BucketHistory.of_append_singleton]
      simp only [useAll, List.foldl_append, List.foldl_cons, List.foldl_nil]
      exact hused.mono (Int.tdiv_le_tdiv hlength
        (hlast u.moment.now (by simp)))

/-! ### Closed distributions -/

/-- A closed distribution, with the amounts that its count and its buckets
show for good. -/
structure Frozen (d : Distribution) (length : Int) (plan : SlotPlan)
    (counted tallied : List Float) : Prop where
  step : d.step.Frozen length (UInt64.ofNat counted.length,
    Accumulator.doubleSum.fold counted)
  histogram : ∃ stepped, d.histogram = some (.stepped stepped) ∧
    stepped.Frozen length plan tallied

theorem Mirrors.frozen_close {d : Distribution} {length present : Int}
    {plan : SlotPlan} {h : BucketHistory}
    (hd : d.Mirrors length present plan h)
    (hbelow : present < StepTracker.closedStep) :
    d.close.Frozen length plan (h.log.valuesIn h.countStep)
      (h.log.valuesIn h.bucketStep) := by
  have hstep := hd.tracks.step.frozen_close hbelow
  rw [hd.countStep_eq, fold_counted] at hstep
  obtain ⟨stepped, hstepped, hplan, hbucket, hpaced⟩ := hd.exists_paced
  have hhistogram := hpaced.frozen_close hbelow
  rw [hbucket, hplan] at hhistogram
  refine ⟨hstep, stepped.close, ?_, hhistogram⟩
  simp only [Distribution.close, hstepped, Option.map_some, Histogram.close]

namespace Frozen

variable {d : Distribution} {length : Int} {plan : SlotPlan}
  {counted tallied : List Float}

/-- No use brings a closed distribution to show anything else. -/
theorem use (hd : d.Frozen length plan counted tallied) {u : TimedUse}
    (hbelow : u.moment.now.tdiv length < StepTracker.closedStep) :
    (d.use u).Frozen length plan counted tallied := by
  obtain ⟨m, use⟩ := u
  obtain ⟨stepped, hstepped, hfrozen⟩ := hd.histogram
  have hstays : stepped.rollover m.now = stepped := hfrozen.rollover hbelow
  cases use with
  | record amount =>
      simp only [Distribution.use, Distribution.record]
      split
      · refine ⟨hd.step.perform hbelow (.record (1, amount)), _, ?_,
          hfrozen.record hbelow amount⟩
        simp only [hstepped, Option.map_some, Histogram.record]
      · exact hd
  | maximum => exact ⟨hd.step, hd.histogram⟩
  | read temporality =>
      have hmoved := histogram_snapshot hstepped temporality m.now
      rw [hstays] at hmoved
      refine ⟨?_, stepped, hmoved, hfrozen⟩
      simp only [Distribution.use, step_snapshot]
      cases temporality with
      | cumulative => exact hd.step
      | delta => exact hd.step.perform hbelow .rollover
  | takeExemplars =>
      simp only [Distribution.use, Distribution.takeExemplars]
      split
      · exact hd
      · exact ⟨hd.step, hd.histogram⟩
  | rollover => exact ⟨hd.step.perform hbelow .rollover, hd.histogram⟩
  | close =>
      refine ⟨hd.step.perform hbelow .close, stepped, ?_, hfrozen⟩
      simp only [Distribution.use, Distribution.close, hstepped,
        Option.map_some, Histogram.close, hfrozen.close]

theorem useAll (hd : d.Frozen length plan counted tallied)
    (uses : List TimedUse) (hbelow : ∀ u ∈ uses,
      u.moment.now.tdiv length < StepTracker.closedStep) :
    (d.useAll uses).Frozen length plan counted tallied := by
  induction uses generalizing d with
  | nil => exact hd
  | cons u rest ih =>
      apply ih (hd.use (hbelow u List.mem_cons_self))
      exact fun e he => hbelow e (List.mem_cons_of_mem u he)

/-- What a delta snapshot shows of a closed distribution. -/
theorem snapshot_delta {now : Int} (hd : d.Frozen length plan counted tallied)
    (hbelow : now.tdiv length < StepTracker.closedStep)
    (haccepted : ∀ amount ∈ tallied, isAccepted amount = true) :
    let shown := (d.snapshot .delta now).1
    shown.count = UInt64.ofNat counted.length ∧
      shown.total = Accumulator.doubleSum.fold counted ∧
      shown.buckets = Bucket.listOf plan.bounds tallied := by
  obtain ⟨stepped, hstepped, hfrozen⟩ := hd.histogram
  have hpolled : (d.step.poll now).1 = (UInt64.ofNat counted.length,
      Accumulator.doubleSum.fold counted) :=
    (hd.step.perform hbelow .poll).previous_eq
  simp only [Distribution.snapshot, Distribution.statistics, hstepped,
    hpolled, Histogram.snapshot, hfrozen.snapshot_fst hbelow,
    SlotPlan.snapshotOf, numbers_of_accepted haccepted]
  exact ⟨trivial, trivial, rfl⟩

end Frozen

/-- Under delta temporality and a clock that never moves back, a delta
snapshot of a closed distribution counts the amounts of the step that its
count was in, and its buckets hold those of the step that its buckets were in.
The two agree if no rollover entered a step without a record or a snapshot in
it; if one did, nothing is counted, whatever the buckets hold. -/
theorem bucket_sum_of_closed {c : RegistrySettings}
    {config : DistributionSettings} {start : Int} {d : Distribution}
    (hdelta : c.temporality = .delta)
    (hcreate : create c config start = .ok d) (hbounds : d.bounds ≠ #[])
    (before later : List TimedUse) (closing : Moment) (now : Int)
    (hopen : ∀ u ∈ before, u.use ≠ .close)
    (hsteady : (start :: (before ++ ⟨closing, .close⟩ :: later).map
      fun u => u.moment.now).Pairwise (· ≤ ·))
    (hlast : ∀ time ∈ start :: (before ++ ⟨closing, .close⟩ :: later).map
      fun u => u.moment.now, time ≤ now)
    (hbelow : now.tdiv (StepTracker.lengthMillis c.step) <
      StepTracker.closedStep) :
    let h := BucketHistory.of (StepTracker.lengthMillis c.step) start before
    let uses := before ++ ⟨closing, .close⟩ :: later
    let shown := ((d.useAll uses).snapshot .delta now).1
    shown.count = UInt64.ofNat (h.log.valuesIn h.countStep).length ∧
      Bucket.sum shown.buckets =
        UInt64.ofNat (h.log.valuesIn h.bucketStep).length ∧
      (h.bucketStep = h.countStep → Bucket.sum shown.buckets = shown.count) ∧
      (h.bucketStep < h.countStep → shown.count = 0) := by
  intro h uses shown
  have hlength : 0 < StepTracker.lengthMillis c.step := by
    simp only [StepTracker.lengthMillis]
    omega
  obtain ⟨plan, hcovers, hstart⟩ := mirrors_create hdelta hcreate hbounds
  rw [List.map_append, ← List.cons_append, List.pairwise_append] at hsteady
  have htimes : ∀ time ∈ start :: before.map fun u => u.moment.now,
      time ≤ closing.now :=
    fun time htime => hsteady.2.2 time htime closing.now (by simp)
  have hmirrors := mirrors_useAll hlength hstart before hopen hsteady.1 htimes
  have hbelowAll : ∀ time, time ≤ now →
      time.tdiv (StepTracker.lengthMillis c.step) <
        StepTracker.closedStep := by
    intro time htime
    exact Int.lt_of_le_of_lt (Int.tdiv_le_tdiv hlength htime) hbelow
  have hclosed := hmirrors.frozen_close
    (hbelowAll closing.now (hlast closing.now (by simp)))
  have hfrozen := hclosed.useAll later fun u hu =>
    hbelowAll u.moment.now (hlast u.moment.now (by
      simp only [List.map_append, List.map_cons, List.mem_cons,
        List.mem_append, List.mem_map]
      exact Or.inr (Or.inr (Or.inr ⟨u, hu, rfl⟩))))
  have haccepted : ∀ amount ∈ h.log.valuesIn h.bucketStep,
      isAccepted amount = true := by
    intro amount hamount
    obtain ⟨e, he, rfl⟩ := List.mem_map.mp hamount
    exact BucketHistory.accepted_of_mem_log _ _ before e
      (List.mem_filter.mp he).1
  have huses : d.useAll uses =
      ((d.useAll before).close).useAll later := by
    simp only [uses, useAll, List.foldl_append, List.foldl_cons]
    rfl
  obtain ⟨hcount, _, hbuckets⟩ := hfrozen.snapshot_delta hbelow haccepted
  rw [← huses] at hcount hbuckets
  have hsum : Bucket.sum shown.buckets =
      UInt64.ofNat (h.log.valuesIn h.bucketStep).length := by
    simp only [shown, hbuckets]
    exact Bucket.sum_listOf hcovers _
  refine ⟨hcount, hsum, ?_, ?_⟩
  · intro hsame
    rw [hsum, hsame]
    exact hcount.symm
  · intro hbehind
    obtain ⟨stepped, _, _, hstep, hpaced⟩ := hmirrors.exists_paced
    have hnothing : h.log.valuesIn h.countStep = [] := by
      apply StepLog.valuesIn_eq_nil
      intro e he
      have hle := hpaced.shows.le_step e he
      rw [hstep] at hle
      exact Int.lt_of_le_of_lt hle hbehind
    rw [hnothing] at hcount
    exact hcount

/-- A record, a rollover in the step after it, and closing: nothing is counted
and the buckets still hold the amount. -/
theorem bucket_sum_of_closed_after_rollover :
    let c := { RegistrySettings.standard with temporality := .delta }
    let config := { DistributionSettings.empty with objectives := some [50.0] }
    let moment := fun wall =>
      (⟨.startingAt wall, none, fun _ => 0, fun _ => 0.0, fun _ => true⟩ :
        Moment)
    ∃ d, create c config 0 = .ok d ∧
      let shown := ((d.useAll [⟨moment 0, .record 10.0⟩,
        ⟨moment 60000, .rollover⟩, ⟨moment 60000, .close⟩]).snapshot .delta
          60000).1
      shown.count = 0 ∧ Bucket.sum shown.buckets = 1 := by
  intro c config moment
  have hbounds : (create c config 0).toOption.map bounds =
      some #[50.0, 1.0 / 0.0] := by
    decide +kernel
  cases hcreate : create c config 0 with
  | error fault =>
      rw [hcreate] at hbounds
      cases hbounds
  | ok d =>
      have hnonempty : d.bounds ≠ #[] := by
        intro hnone
        rw [hcreate, Except.toOption, Option.map_some, hnone] at hbounds
        simp at hbounds
      have hclosed := bucket_sum_of_closed (c := c) rfl hcreate hnonempty
        [⟨moment 0, .record 10.0⟩, ⟨moment 60000, .rollover⟩] []
        (moment 60000) 60000 (by simp)
        (by simp [moment, Moment.now, Clock.startingAt])
        (by simp [moment, Moment.now, Clock.startingAt]) (by decide)
      exact ⟨d, rfl, hclosed.1.trans (by decide +kernel),
        hclosed.2.1.trans (by decide +kernel)⟩

end Distribution

/-- A timer with a bucket, used in one step, moved on in the next by its
registry and then closed: its snapshot counts nothing and its buckets add up
to one. -/
theorem Session.stale_bucket_of_closed_timer :
    let config := { RegistrySettings.standard with temporality := .delta }
    let settings := { DistributionSettings.empty with
      objectives := some [50.0] }
    let commands : List Command :=
      [.registry (.add "t" (.named "latency" []) .timer settings),
        .meter "t" (.recordDurations [] [10]), .advance (.ofSeconds 60),
        .registry .rolloverAll, .registry .closeAll]
    let s := ((create config .standard none 0 fun _ _ => 0).run commands).2
    (s.registry.made[0]?).map (fun meter =>
        match meter.instrument with
        | .timer (some d) =>
            let shown := (d.snapshot .delta s.clock.wall).1
            (shown.count, Bucket.sum shown.buckets)
        | _ => (0, 0)) = some (0, 1) := by
  decide +kernel

end WindowedMetrics
