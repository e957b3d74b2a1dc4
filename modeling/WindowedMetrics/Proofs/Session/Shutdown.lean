/-
What an exporter publishes until it is shut down.  A publisher that wakes in
every step reports each amount of a counter under the step of its recording,
up to the step before the last.  The closing in the end ignores the time: the
last batch shows the step in progress, or the one before if the counter was
not moved since, and is stamped with the step before in either case.
-/
import WindowedMetrics.Proofs.Export.Grouping
import WindowedMetrics.Proofs.Meter.Counting
import WindowedMetrics.Proofs.Session.Invariant

namespace WindowedMetrics

/-! ### Steps and intervals -/

namespace ExportSettings

variable {exporter : ExportSettings} {config : RegistrySettings}

/-- The last step of a conversion holds what belongs to the step before. -/
theorem contains_lastStep_conversion (hstep : exporter.step = config.step)
    (hnanos : config.step.millis * 1000000 < UInt64.size) {now wall : Int}
    (hnow : 0 ≤ now) (hfits : now * 1000000 < UInt64.size)
    (hwall : 0 ≤ wall) :
    (exporter.conversion now).lastStep.contains wall =
      decide (config.stepAt wall = config.stepAt now - 1) := by
  simp only [conversion, hstep]
  exact contains_lastStep hnanos hnow hfits hwall _ _

/-- Conversions in one step have the same last step. -/
theorem lastStep_conversion_congr (hstep : exporter.step = config.step)
    (hnanos : config.step.millis * 1000000 < UInt64.size) {now later : Int}
    (hnow : 0 ≤ now) (hlater : 0 ≤ later)
    (hsame : config.stepAt now = config.stepAt later) :
    (exporter.conversion now).lastStep =
      (exporter.conversion later).lastStep := by
  obtain ⟨n, rfl⟩ := Int.eq_ofNat_of_zero_le hnow
  obtain ⟨l, rfl⟩ := Int.eq_ofNat_of_zero_le hlater
  rw [RegistrySettings.stepAt, RegistrySettings.stepAt,
    lengthMillis_eq_max hnanos, ← Int.ofNat_tdiv, ← Int.ofNat_tdiv] at hsame
  have hquotient : n / max (config.step.millis % UInt64.size) 1 =
      l / max (config.step.millis % UInt64.size) 1 := by omega
  simp only [conversion, Conversion.starting, hstep, Int.toNat_natCast,
    hquotient]

end ExportSettings

namespace Recorded

/-- What is recorded from a step on does not belong to the steps before. -/
theorem valuesIn_logOf_append {config : RegistrySettings}
    (record : List Recorded) {later : List Recorded} {step : Int}
    (hlater : ∀ e ∈ later, step < config.stepAt e.wall) (meter : Nat) :
    (logOf config (record ++ later) meter).valuesIn step =
      (logOf config record meter).valuesIn step := by
  have hnone : (logOf config later meter).valuesIn step = [] := by
    simp only [StepLog.valuesIn, List.map_eq_nil_iff, List.filter_eq_nil_iff,
      decide_eq_true_eq]
    intro e he
    obtain ⟨recorded, hmem, rfl⟩ := List.mem_map.mp he
    exact Int.ne_of_gt (hlater recorded (List.mem_filter.mp hmem).1)
  have hsplit : logOf config (record ++ later) meter =
      logOf config record meter ++ logOf config later meter := by
    simp [logOf]
  rw [hsplit, StepLog.valuesIn_append, hnone, List.append_nil]

end Recorded

/-! ### Batches -/

theorem groupPoints_ne_nil {points : List NamedPoint} (hsome : points ≠ []) :
    groupPoints points ≠ [] := by
  have hinsert : ∀ (groups : List Metric) (p : NamedPoint),
      insertPoint groups p ≠ [] := by
    intro groups p
    cases groups with
    | nil => simp [insertPoint]
    | cons group rest =>
        simp only [insertPoint]
        split <;> simp
  induction points using List.reverseRecOn with
  | nil => exact absurd rfl hsome
  | append_singleton before p _ =>
      rw [groupPoints, List.foldl_append]
      exact hinsert _ p

/-- A batch holds the points of all registered meters. -/
theorem metrics_batch (c : ExportSettings) {r : Registry}
    (hnodup : r.references.Nodup) (m : Moment) :
    (c.batch r m).1.metrics =
      groupPoints (r.references.flatMap (r.pointsOf (c.conversion m.now) m)) :=
  congrArg groupPoints
    (convertHandles_made (c.conversion m.now) r m r.references hnodup)

/-- A batch that is not empty reaches a sink that takes it. -/
theorem sent_publish (c : ExportSettings) (r : Registry) (m : Moment)
    (hsome : (c.batch r m).1.metrics ≠ []) :
    (c.publish r m ExportSettings.acceptAll).value.1.sent =
      some (c.batch r m).1 := by
  have hnonempty : (c.batch r m).1.metrics.isEmpty = false := by
    simpa using hsome
  simp only [ExportSettings.publish, hnonempty, Bool.false_eq_true,
    ↓reduceIte, ExportSettings.acceptAll]

/-- The registry of which the last batch of a publisher is made. -/
def Registry.shutDown (r : Registry) (m : Moment) : Registry :=
  r.close.value.closeAll m

theorem Registry.references_shutDown (r : Registry) (m : Moment) :
    (r.shutDown m).references = r.references := by
  unfold shutDown close
  split <;> rfl

theorem Registry.made_shutDown {r : Registry} (hr : r.WellFormed) (m : Moment)
    {reference : Nat} (hreference : reference ∈ r.references) {meter : Meter}
    (hmeter : r.made[reference]? = some meter) :
    (r.shutDown m).made[reference]? = some (meter.close m) := by
  have hsame : ∀ closed : Registry, closed.references = r.references →
      closed.made = r.made →
      (closed.closeAll m).made[reference]? = some (meter.close m) := by
    intro closed hreferences hmade
    rw [closeAll, hreferences, getElem?_updateAll _ hr.references_nodup,
      if_pos hreference, hmade, hmeter, Option.map_some]
  unfold shutDown close
  split
  · exact hsame _ rfl rfl
  · exact hsame _ rfl rfl

/-! ### Counters of a run -/

/-- Counters follow their logs, and none is behind a first step. -/
def CountsSince (config : RegistrySettings) (first now : Int) (meter : Meter)
    (log : StepLog Float) : Prop :=
  meter.CountsWithin (StepTracker.lengthMillis config.step) first
    (config.stepAt now) log

namespace Session

section Counting

variable {s : Session} {config : RegistrySettings} {first : Int}
  {record : List Recorded}

/-- A run that spares registered meters keeps their counts. -/
theorem countsSince_run
    (h : s.EveryRegistered config (CountsSince config first) record)
    (hfirst : first ≤ config.stepAt s.clock.wall) {commands : List Command}
    (hspares : ∀ c ∈ commands, c.spares = true)
    (hsteady : s.WallSteady commands) :
    (s.run commands).2.EveryRegistered config (CountsSince config first)
      (record ++ s.recorded commands) := by
  have hlength : 0 < StepTracker.lengthMillis config.step := by
    simp only [StepTracker.lengthMillis]
    omega
  refine h.run ?_ ?_ (Int.le_refl s.clock.wall) hspares hsteady
  · intro id b own now instrument hnow hinstrument
    exact Meter.countsWithin_instrument hinstrument
      (Int.le_trans hfirst (Int.tdiv_le_tdiv hlength hnow))
  · intro meter next before now log more hnow hmeter hused
    exact Meter.CountsWithin.used hmeter (Int.tdiv_le_tdiv hlength hnow) hused

/-- A rollover of all meters leaves no registered counter behind the present
step. -/
theorem countsSince_rolloverAll
    (h : s.EveryRegistered config (CountsSince config first) record) :
    (s.perform (.registry .rolloverAll)).value.2.EveryRegistered config
      (CountsSince config (config.stepAt s.clock.wall))
      (record ++ s.measured (.registry .rolloverAll)) := by
  refine ⟨h.sound.perform _, ?_⟩
  intro reference hreference after hafter
  have hregistered : reference ∈ s.registry.references := hreference
  have hmoved : (s.registry.rolloverAll s.moment).made[reference]? =
      some after := hafter
  rw [Registry.rolloverAll, Registry.getElem?_updateAll _
    h.sound.wellFormed.references_nodup, if_pos hregistered] at hmoved
  obtain ⟨meter, hmeter, rfl⟩ := Option.map_eq_some_iff.mp hmoved
  have hbefore := h.meters reference hregistered meter hmeter
  have hnothing : s.measured (.registry .rolloverAll) = [] := rfl
  rw [hnothing, List.append_nil]
  exact Meter.CountsWithin.rollover (m := s.moment) hbefore

end Counting

/-! ### Publications -/

/-- A run comes to a session and publishes its batch there. -/
def Publishes (s : Session) (commands : List Command) (t : Session) : Prop :=
  ∃ before after, commands = before ++ .exporter (.publish none) :: after ∧
    t = (s.run before).2

/-- The publisher wakes in a step: a rollover of all meters and then a
publication that succeeds. -/
def WakesIn (s : Session) (config : RegistrySettings)
    (commands : List Command) (step : Int) : Prop :=
  ∃ before middle after,
    commands = before ++ .registry .rolloverAll ::
      (middle ++ .exporter (.publish none) :: after) ∧
    config.stepAt (s.run before).2.clock.wall = step ∧
    config.stepAt (s.run (before ++
      .registry .rolloverAll :: middle)).2.clock.wall = step

theorem WakesIn.exists_publishes {s : Session} {config : RegistrySettings}
    {commands : List Command} {step : Int}
    (h : s.WakesIn config commands step) :
    ∃ t, s.Publishes commands t ∧ config.stepAt t.clock.wall = step := by
  obtain ⟨before, middle, after, rfl, _, hlate⟩ := h
  exact ⟨_, ⟨before ++ .registry .rolloverAll :: middle, after, by simp, rfl⟩,
    hlate⟩

namespace Publishes

variable {s t : Session} {commands : List Command}

theorem nonneg (h : s.Publishes commands t)
    (hsteady : s.WallSteady commands) : 0 ≤ t.clock.wall := by
  obtain ⟨before, after, rfl, rfl⟩ := h
  exact hsteady.of_append.1.nonneg_run

theorem le_run (h : s.Publishes commands t)
    (hsteady : s.WallSteady commands) :
    t.clock.wall ≤ (s.run commands).2.clock.wall := by
  obtain ⟨before, after, rfl, rfl⟩ := h
  rw [run_append]
  exact hsteady.of_append.2.le_run

/-- The time of a publication fits 64 bits if the time of the end does. -/
theorem nanos_lt (h : s.Publishes commands t) (hsteady : s.WallSteady commands)
    (hfits : (s.run commands).2.clock.wall * 1000000 < UInt64.size) :
    t.clock.wall * 1000000 < UInt64.size :=
  Int.lt_of_le_of_lt
    (Int.mul_le_mul_of_nonneg_right (h.le_run hsteady) (by decide)) hfits

theorem exporter_eq (h : s.Publishes commands t) {config : RegistrySettings}
    {record : List Recorded} (hsound : s.Sound config record) :
    t.exporter = s.exporter := by
  obtain ⟨before, after, _, rfl⟩ := h
  exact hsound.exporter_run before

/-- What is recorded before a publication is recorded of a meter that is
made by then. -/
theorem lt_size_of_lt (h : s.Publishes commands t)
    (hsteady : s.WallSteady commands) {config : RegistrySettings}
    (hsound : s.Sound config []) {e : Recorded}
    (he : e ∈ s.recorded commands) (hearly : e.wall < t.clock.wall) :
    e.meter < t.registry.made.size := by
  obtain ⟨before, after, rfl, rfl⟩ := h
  rw [recorded_append] at he
  rcases List.mem_append.mp he with hbefore | hlater
  · exact (hsound.run before).lt_size e hbefore
  · exact absurd (hsteady.of_append.2.le_recorded e hlater)
      (Int.not_le.mpr hearly)

end Publishes

/-- If the publisher woke in the step before, no registered counter is more
than a step behind. -/
theorem countsSince_of_wakesIn (config : RegistrySettings)
    (exporter : ExportSettings) (context : Option TraceContext) (wall : Int)
    (draws : Nat → Nat → Nat) (commands : List Command)
    (hspares : ∀ c ∈ commands, c.spares = true)
    (hsteady :
      (create config exporter context wall draws).WallSteady commands) :
    let start := create config exporter context wall draws
    let s := (start.run commands).2
    let before := config.stepAt s.clock.wall - 1
    (config.stepAt wall ≤ before → start.WakesIn config commands before) →
    s.EveryRegistered config (CountsSince config before)
      (start.recorded commands) := by
  intro start s before hwakes
  have hcreate : ∀ first,
      start.EveryRegistered config (CountsSince config first) [] :=
    fun first => .create config exporter context wall draws _
  by_cases hlate : config.stepAt wall ≤ before
  · obtain ⟨early, middle, after, hcommands, hwake, _⟩ := hwakes hlate
    generalize middle ++ .exporter (.publish none) :: after = rest
      at hcommands
    subst hcommands
    obtain ⟨hearly, _, _, hrest⟩ := hsteady.of_append
    have hcounts := countsSince_rolloverAll (countsSince_run (hcreate _)
      (Int.le_refl (config.stepAt wall))
      (fun c hc => hspares c (List.mem_append_left _ hc)) hearly)
    rw [hwake] at hcounts
    have hlast := countsSince_run hcounts (Int.le_of_eq hwake.symm)
      (fun c hc => hspares c
        (List.mem_append_right _ (List.mem_cons_of_mem _ hc))) hrest
    have hrun : s = _ := run_append start early
      (.registry .rolloverAll :: rest)
    have hrecorded := recorded_append start early
      (.registry .rolloverAll :: rest)
    rw [hrecorded, hrun, recorded, ← List.append_assoc]
    exact hlast
  · have hfirst : before ≤ config.stepAt wall :=
      Int.le_of_lt (Int.not_le.mp hlate)
    exact countsSince_run (hcreate before) hfirst hspares hsteady

section Publishing

variable {config : RegistrySettings} {exporter : ExportSettings}
  {context : Option TraceContext} {wall : Int} {draws : Nat → Nat → Nat}

/-- A publication reports of a counter what the whole run records in the
interval of the point. -/
theorem sumsUp_of_publication (hexporter : exporter.temporality = .delta)
    (hstep : exporter.step = config.step)
    (hnanos : config.step.millis * 1000000 < UInt64.size)
    {before rest : List Command}
    (hspares : ∀ c ∈ before ++ rest, c.spares = true)
    (hsteady : (create config exporter context wall draws).WallSteady
      (before ++ rest))
    (hfits : ((create config exporter context wall draws).run
      before).2.clock.wall * 1000000 < UInt64.size) :
    let start := create config exporter context wall draws
    let s := (start.run (before ++ rest)).2
    let t := (start.run before).2
    let conversion := t.exporter.conversion t.clock.wall
    ∀ reference ∈ s.registry.references, ∀ meter : Meter,
      s.registry.made[reference]? = some meter → meter.kind = .counter →
      reference < t.registry.made.size →
      reference ∈ t.registry.references ∧
      t.registry.SumsUp conversion t.moment reference meter.id
        conversion.lastStep (Recorded.amountsIn
          (start.recorded (before ++ rest)) reference
            conversion.lastStep) := by
  intro start s t conversion reference hreference meter hmeter hkind hmade
  obtain ⟨hbefore, hrest⟩ := hsteady.of_append
  have hcounts := countsSince_run
    (.create config exporter context wall draws (CountsSince config _))
    (Int.le_refl (config.stepAt wall))
    (fun c hc => hspares c (List.mem_append_left _ hc)) hbefore
  have hrun : s = (t.run rest).2 := run_append start before rest
  rw [hrun] at hreference hmeter
  have hregistered := hcounts.sound.mem_references_of_run hreference hmade
  obtain ⟨found, hfound, hid, hsame⟩ :=
    hcounts.sound.exists_made_of_run hmeter hmade
  have hsame' : t.exporter = exporter :=
    (sound_create config exporter context wall draws).exporter_run before
  have hconversion : conversion = Conversion.starting t.clock.wall
      config.step exporter.temporality exporter.baseTimeUnit := by
    simp only [conversion, hsame', ExportSettings.conversion, hstep]
  have hdelta : conversion.temporality = .delta := by
    rw [hconversion]
    exact hexporter
  have hsum : t.registry.SumsUp conversion t.moment reference found.id
      conversion.lastStep ((Recorded.logOf config (start.recorded before)
        reference).valuesIn (config.stepAt t.clock.wall - 1)) :=
    Registry.sumsUp_of_countsWithin hdelta hfound (hsame.trans hkind)
      (hcounts.meters reference hregistered found hfound)
  -- The log of the whole run has the same values in the step before.
  have hlater : ∀ e ∈ t.recorded rest,
      config.stepAt t.clock.wall - 1 < config.stepAt e.wall := by
    intro e he
    have hstay : config.stepAt t.clock.wall ≤ config.stepAt e.wall :=
      config.stepAt_mono hbefore.nonneg_run (hrest.le_recorded e he)
    omega
  have hamounts : (Recorded.logOf config (start.recorded before)
      reference).valuesIn (config.stepAt t.clock.wall - 1) =
        Recorded.amountsIn (start.recorded (before ++ rest)) reference
          conversion.lastStep := by
    rw [← Recorded.valuesIn_logOf_append (start.recorded before) hlater,
      ← recorded_append, hconversion]
    exact Recorded.valuesIn_logOf hnanos hbefore.nonneg_run hfits _ _
      hsteady.nonneg_recorded reference
  rw [hamounts, hid] at hsum
  exact ⟨hregistered, hsum⟩

/-- The last batch holds a point of every registered counter: under the step
before the present one, the amounts of the step that the counter is in. -/
theorem sumsUp_of_shutdown {s : Session} {record : List Recorded}
    (h : s.EveryRegistered config
      (CountsSince config (config.stepAt s.clock.wall - 1)) record)
    (hexporter : s.exporter.temporality = .delta)
    (hbelow : config.stepAt s.clock.wall < StepTracker.closedStep) :
    let conversion := s.exporter.conversion s.clock.wall
    let closed := s.registry.shutDown s.moment
    ∀ reference ∈ s.registry.references, ∀ meter : Meter,
      s.registry.made[reference]? = some meter → meter.kind = .counter →
      ∃ last step,
        (s.exporter.shutdown s.registry s.moment).1 = some last ∧
        HoldPoints last.metrics (closed.references.flatMap
          (closed.pointsOf conversion s.moment)) ∧
        config.stepAt s.clock.wall - 1 ≤ step ∧
        step ≤ config.stepAt s.clock.wall ∧
        (∀ e ∈ record, e.meter = reference → config.stepAt e.wall ≤ step) ∧
        closed.SumsUp conversion s.moment reference meter.id
          conversion.lastStep
          ((Recorded.logOf config record reference).valuesIn step) := by
  intro conversion closed reference hreference meter hmeter hkind
  have hreferences : closed.references = s.registry.references :=
    s.registry.references_shutDown s.moment
  have hmade : closed.made[reference]? = some (meter.close s.moment) :=
    Registry.made_shutDown h.sound.wellFormed s.moment hreference hmeter
  have hnodup : closed.references.Nodup := by
    rw [hreferences]
    exact h.sound.wellFormed.references_nodup
  have hmetrics := metrics_batch s.exporter hnodup s.moment
  have hdelta : conversion.temporality = .delta := hexporter
  obtain ⟨step, hfirst, hlast, hle, hsum⟩ :=
    Registry.sumsUp_of_close hdelta hmade hkind
      (h.meters reference hreference meter hmeter) hbelow
  have hsome : (s.exporter.batch closed s.moment).1.metrics ≠ [] := by
    obtain ⟨p, _, hpoints, _⟩ := hsum
    rw [hmetrics]
    apply groupPoints_ne_nil
    intro hnone
    have hown := List.flatMap_eq_nil_iff.mp hnone reference
      (hreferences ▸ hreference)
    have hnothing := hpoints.symm.trans hown
    cases hnothing
  refine ⟨_, step, sent_publish s.exporter closed s.moment hsome,
    hmetrics ▸ holdPoints_groupPoints _, hfirst, hlast, ?_, hsum⟩
  intro e he hown
  exact hle (config.stepAt e.wall, e.amount) (List.mem_map.mpr
    ⟨e, List.mem_filter.mpr ⟨he, decide_eq_true hown⟩, rfl⟩)

/-- The interval of a conversion holds what is recorded in the step before. -/
theorem contains_lastStep_recorded (hstep : exporter.step = config.step)
    (hnanos : config.step.millis * 1000000 < UInt64.size)
    {commands : List Command}
    (hsteady :
      (create config exporter context wall draws).WallSteady commands)
    {t : Session} (hown : t.exporter = exporter) (hnow : 0 ≤ t.clock.wall)
    (hfits : t.clock.wall * 1000000 < UInt64.size) :
    ∀ e ∈ (create config exporter context wall draws).recorded commands,
      (t.exporter.conversion t.clock.wall).lastStep.contains e.wall =
        decide (config.stepAt e.wall =
          config.stepAt t.clock.wall - 1) := by
  intro e he
  rw [hown]
  exact ExportSettings.contains_lastStep_conversion hstep hnanos hnow hfits
    (hsteady.nonneg_recorded e he)

/-- If the publisher wakes in the step after an amount, the amount lies in the
interval of that publication, and in no other interval of a publication. -/
theorem exists_interval_of_wakesIn (hstep : exporter.step = config.step)
    (hnanos : config.step.millis * 1000000 < UInt64.size)
    {commands : List Command}
    (hsteady :
      (create config exporter context wall draws).WallSteady commands)
    (hfits : ((create config exporter context wall draws).run
      commands).2.clock.wall * 1000000 < UInt64.size)
    {e : Recorded}
    (he : e ∈ (create config exporter context wall draws).recorded commands)
    (hwakes : (create config exporter context wall draws).WakesIn config
      commands (config.stepAt e.wall + 1)) :
    let start := create config exporter context wall draws
    let conversion := fun t : Session => t.exporter.conversion t.clock.wall
    ∃ interval : Interval, interval.contains e.wall = true ∧
      (∃ t, start.Publishes commands t ∧
        e.meter < t.registry.made.size ∧
        (conversion t).lastStep = interval) ∧
      ∀ t, start.Publishes commands t →
        (conversion t).lastStep.contains e.wall = true →
        (conversion t).lastStep = interval := by
  intro start conversion
  have hcreate := sound_create config exporter context wall draws
  have hcontains : ∀ t, start.Publishes commands t →
      (conversion t).lastStep.contains e.wall =
        decide (config.stepAt e.wall = config.stepAt t.clock.wall - 1) :=
    fun t ht => contains_lastStep_recorded hstep hnanos hsteady
      (ht.exporter_eq hcreate) (ht.nonneg hsteady)
      (ht.nanos_lt hsteady hfits) e he
  obtain ⟨t, ht, hwake⟩ := hwakes.exists_publishes
  have hearly : e.wall < t.clock.wall := by
    by_contra hnot
    have hback : config.stepAt t.clock.wall ≤ config.stepAt e.wall :=
      config.stepAt_mono (ht.nonneg hsteady) (Int.not_lt.mp hnot)
    omega
  refine ⟨(conversion t).lastStep, ?_,
    ⟨t, ht, ht.lt_size_of_lt hsteady hcreate he hearly, rfl⟩, ?_⟩
  · rw [hcontains t ht, decide_eq_true_eq]
    omega
  · intro other hother hinside
    rw [hcontains other hother, decide_eq_true_eq] at hinside
    simp only [conversion, hother.exporter_eq hcreate,
      ht.exporter_eq hcreate]
    exact ExportSettings.lastStep_conversion_congr hstep hnanos
      (hother.nonneg hsteady) (ht.nonneg hsteady) (by omega)

/-- Under delta temporality, with a clock that never moves back and whose
nanoseconds fit 64 bits, and a publisher that wakes in every step before the
shutdown, each publication reports of a registered counter what the run
records in the interval of the point, and the last batch reports in the
interval of the step before the shutdown what is recorded in that step or in
the one in progress.  So an amount that is recorded before both steps is
reported in one interval, which is its own, and no more; an amount of the step
in progress is reported by the last batch alone, in an interval that it does
not belong to. -/
theorem publications_until_shutdown (config : RegistrySettings)
    (exporter : ExportSettings) (context : Option TraceContext) (wall : Int)
    (draws : Nat → Nat → Nat) (commands : List Command)
    (hexporter : exporter.temporality = .delta)
    (hstep : exporter.step = config.step)
    (hnanos : config.step.millis * 1000000 < UInt64.size)
    (hspares : ∀ c ∈ commands, c.spares = true)
    (hsteady :
      (create config exporter context wall draws).WallSteady commands)
    (hfits : ((create config exporter context wall draws).run
      commands).2.clock.wall * 1000000 < UInt64.size)
    (hwakes : ∀ step, config.stepAt wall ≤ step →
      step < config.stepAt ((create config exporter context wall draws).run
        commands).2.clock.wall →
      (create config exporter context wall draws).WakesIn config commands
        step) :
    let start := create config exporter context wall draws
    let s := (start.run commands).2
    let record := start.recorded commands
    let present := config.stepAt s.clock.wall
    let conversion := fun t : Session => t.exporter.conversion t.clock.wall
    let closed := s.registry.shutDown s.moment
    ∀ reference ∈ s.registry.references, ∀ meter : Meter,
      s.registry.made[reference]? = some meter → meter.kind = .counter →
      (∀ t, start.Publishes commands t →
        reference < t.registry.made.size →
        reference ∈ t.registry.references ∧
        t.registry.SumsUp (conversion t) t.moment reference meter.id
          (conversion t).lastStep
          (Recorded.amountsIn record reference (conversion t).lastStep)) ∧
      ∃ last step,
        (s.exporter.shutdown s.registry s.moment).1 = some last ∧
        HoldPoints last.metrics (closed.references.flatMap
          (closed.pointsOf (conversion s) s.moment)) ∧
        present - 1 ≤ step ∧ step ≤ present ∧
        closed.SumsUp (conversion s) s.moment reference meter.id
          (conversion s).lastStep
          ((Recorded.logOf config record reference).valuesIn step) ∧
        ∀ e ∈ record, e.meter = reference →
          (config.stepAt e.wall + 1 < present →
            config.stepAt e.wall ≠ step ∧
            ∃ interval : Interval, interval.contains e.wall = true ∧
              (∃ t, start.Publishes commands t ∧
                reference < t.registry.made.size ∧
                (conversion t).lastStep = interval) ∧
              ∀ t, start.Publishes commands t →
                (conversion t).lastStep.contains e.wall = true →
                (conversion t).lastStep = interval) ∧
          (config.stepAt e.wall + 1 = present →
            (conversion s).lastStep.contains e.wall = true) ∧
          (config.stepAt e.wall = present →
            step = present ∧
            (conversion s).lastStep.contains e.wall = false ∧
            ∀ t, start.Publishes commands t →
              (conversion t).lastStep.contains e.wall = false) := by
  intro start s record present conversion closed reference hreference meter
    hmeter hkind
  have hcounts := countsSince_of_wakesIn config exporter context wall draws
    commands hspares hsteady fun hlate => hwakes _ hlate (by omega)
  have hcreate := sound_create config exporter context wall draws
  have hown : s.exporter = exporter := hcreate.exporter_run commands
  constructor
  · rintro t ⟨before, after, hcommands, rfl⟩ hmade
    have hpublished : start.Publishes commands (start.run before).2 :=
      ⟨before, after, hcommands, rfl⟩
    have hearly := hpublished.nanos_lt hsteady hfits
    subst hcommands
    exact sumsUp_of_publication hexporter hstep hnanos hspares hsteady hearly
      reference hreference meter hmeter hkind hmade
  · have hdelta : s.exporter.temporality = .delta := by
      rw [hown]
      exact hexporter
    obtain ⟨last, step, hsent, hmetrics, hlow, hhigh, hle, hsum⟩ :=
      sumsUp_of_shutdown hcounts hdelta
        (config.stepAt_lt_closedStep hsteady.nonneg_run hfits) reference
        hreference meter hmeter hkind
    have hfirst : present - 1 ≤ step := hlow
    have hlast : step ≤ present := hhigh
    refine ⟨last, step, hsent, hmetrics, hfirst, hlast, hsum, ?_⟩
    intro e he howner
    have hclosing := contains_lastStep_recorded hstep hnanos hsteady hown
      hsteady.nonneg_run hfits e he
    refine ⟨?_, ?_, ?_⟩
    · intro hbefore
      have hne : config.stepAt e.wall ≠ step := by omega
      have hstart : config.stepAt wall ≤ config.stepAt e.wall :=
        config.stepAt_mono hsteady.nonneg (hsteady.le_recorded e he)
      have hinterval := exists_interval_of_wakesIn hstep hnanos hsteady hfits he
        (hwakes (config.stepAt e.wall + 1) (by omega) hbefore)
      rw [howner] at hinterval
      exact ⟨hne, hinterval⟩
    · intro hbefore
      have hback : config.stepAt e.wall = present - 1 := by omega
      rw [hclosing, decide_eq_true_eq]
      exact hback
    · intro hpresent
      have hstay := hle e he howner
      refine ⟨by omega, ?_, ?_⟩
      · rw [hclosing, decide_eq_false_iff_not]
        omega
      · intro t ht
        have hback : config.stepAt t.clock.wall ≤ present :=
          config.stepAt_mono (ht.nonneg hsteady) (ht.le_run hsteady)
        rw [contains_lastStep_recorded hstep hnanos hsteady
          (ht.exporter_eq hcreate) (ht.nonneg hsteady)
          (ht.nanos_lt hsteady hfits) e he, decide_eq_false_iff_not]
        omega

end Publishing

/-- A counter that is used in the first and in the third step, with a wake in
the first two.  The last batch reports the amount of the third step under the
second. -/
theorem publications_until_shutdown_of_jobs :
    let config := { RegistrySettings.standard with temporality := .delta }
    let exporter := { ExportSettings.standard with temporality := .delta }
    let wake : List Command :=
      [.registry .rolloverAll, .exporter (.publish none)]
    let commands : List Command :=
      [.registry (.add "a" (.named "jobs" []) .counter .empty),
        .meter "a" (.increment 1.0)] ++ wake ++ .advance (.ofSeconds 60) ::
        wake ++ [.advance (.ofSeconds 60), .meter "a" (.increment 2.0)]
    let start := create config exporter none 0 fun _ _ => 0
    let s := (start.run commands).2
    let closed := s.registry.shutDown s.moment
    ∃ (t : Session) (last : Batch) (id : Id),
      start.Publishes commands t ∧
      t.registry.SumsUp (t.exporter.conversion t.clock.wall) t.moment 0 id
        ⟨0, 60000000000⟩ [1.0] ∧
      (s.exporter.shutdown s.registry s.moment).1 = some last ∧
      closed.SumsUp (s.exporter.conversion s.clock.wall) s.moment 0 id
        ⟨60000000000, 120000000000⟩ [2.0] := by
  intro config exporter wake commands start s closed
  let opening : List Command :=
    [.registry (.add "a" (.named "jobs" []) .counter .empty),
      .meter "a" (.increment 1.0)]
  let ending : List Command :=
    [.advance (.ofSeconds 60), .meter "a" (.increment 2.0)]
  let second : List Command :=
    opening ++ wake ++ [.advance (.ofSeconds 60), .registry .rolloverAll]
  have hpresent : config.stepAt s.clock.wall = 2 := by decide +kernel
  have hwakes : ∀ step, config.stepAt 0 ≤ step →
      step < config.stepAt s.clock.wall →
      start.WakesIn config commands step := by
    intro step hlow hhigh
    have hzero : config.stepAt 0 = 0 := by decide +kernel
    rw [hpresent] at hhigh
    rw [hzero] at hlow
    obtain rfl | rfl : step = 0 ∨ step = 1 := by omega
    · exact ⟨opening, [], .advance (.ofSeconds 60) :: wake ++ ending, rfl,
        by decide +kernel, by decide +kernel⟩
    · exact ⟨opening ++ wake ++ [.advance (.ofSeconds 60)], [], ending, rfl,
        by decide +kernel, by decide +kernel⟩
  have hkind : (s.registry.made[0]?).map Meter.kind = some .counter := by
    decide +kernel
  have hregistered : 0 ∈ s.registry.references := by decide +kernel
  have hspares : ∀ c ∈ commands, c.spares = true := by decide
  have hsteady : start.WallSteady commands := by decide +kernel
  have hfits : s.clock.wall * 1000000 < UInt64.size := by decide +kernel
  have hpublishes : start.Publishes commands (start.run second).2 :=
    ⟨second, ending, rfl, rfl⟩
  have hmade : 0 < (start.run second).2.registry.made.size := by
    decide +kernel
  have hsecond : ((start.run second).2.exporter.conversion
      (start.run second).2.clock.wall).lastStep = ⟨0, 60000000000⟩ := by
    decide +kernel
  have hthird : (s.exporter.conversion s.clock.wall).lastStep =
      ⟨60000000000, 120000000000⟩ := by
    decide +kernel
  have hfirst : Recorded.amountsIn (start.recorded commands) 0
      ⟨0, 60000000000⟩ = [1.0] := by
    decide +kernel
  have hlast : (Recorded.logOf config (start.recorded commands) 0).valuesIn
      2 = [2.0] := by
    decide +kernel
  have hlater : ∃ e ∈ start.recorded commands, e.meter = 0 ∧
      config.stepAt e.wall = 2 := by
    decide +kernel
  -- What follows holds of any run with these facts.
  clear_value commands second
  obtain ⟨meter, hmeter, hcounter⟩ := Option.map_eq_some_iff.mp hkind
  obtain ⟨hpublished, last, step, hsent, _, _, _, hsum, hrecorded⟩ :=
    publications_until_shutdown config exporter none 0 (fun _ _ => 0)
      commands rfl rfl (by decide) hspares hsteady hfits hwakes 0 hregistered
      meter hmeter hcounter
  obtain ⟨_, hreported⟩ := hpublished _ hpublishes hmade
  obtain ⟨e, he, howner, hstep⟩ := hlater
  obtain ⟨hstepOf, _⟩ :=
    (hrecorded e he howner).2.2 (hstep.trans hpresent.symm)
  rw [hsecond, hfirst] at hreported
  rw [hstepOf, hpresent, hlast, hthird] at hsum
  exact ⟨_, last, meter.id, hpublishes, hreported, hsent, hsum⟩

/-- An amount in the very step of the shutdown: its publisher woke in that
step before, and the last batch reports the amount in an interval that ends
when the step begins. -/
theorem last_batch_precedes_amount :
    let config := { RegistrySettings.standard with temporality := .delta }
    let exporter := { ExportSettings.standard with temporality := .delta }
    let commands : List Command :=
      [.registry (.add "a" (.named "jobs" []) .counter .empty),
        .registry .rolloverAll, .exporter (.publish none),
        .meter "a" (.increment 2.0)]
    let start := create config exporter none 60000 fun _ _ => 0
    let s := (start.run commands).2
    let sums := fun batch : Batch => batch.metrics.flatMap fun g =>
      g.points.filterMap fun p =>
        match p with
        | .sum p => some (p.interval, p.value)
        | _ => none
    (start.recorded commands).map (fun e => (e.meter, e.wall, e.amount)) =
        [(0, 60000, 2.0)] ∧
      (s.exporter.shutdown s.registry s.moment).1.map sums =
        some [(⟨0, 60000000000⟩, 2.0)] ∧
      Interval.contains ⟨0, 60000000000⟩ 60000 = false := by
  decide +kernel

end Session

end WindowedMetrics
