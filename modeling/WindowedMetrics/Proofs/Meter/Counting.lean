/-
Counters that are put to use over time.  While it is open, a counter follows
the log of its accepted amounts and its window lies between a first step and
the present one; closing it shows the step that the window is in, whichever of
these that is.
-/
import WindowedMetrics.Proofs.Export.Delta
import WindowedMetrics.Proofs.Meter.Closing

namespace WindowedMetrics

namespace Counter

/-- A counter that follows a log, with its window neither before a first step
nor ahead of the present one. -/
structure Within (c : Counter) (length first present : Int)
    (log : StepLog Float) : Prop where
  tracks : c.Tracks length present log
  first_le : first ≤ c.step.tracker.current

theorem within_create (c : RegistrySettings) {first now : Int}
    (hfirst : first ≤ now.tdiv (StepTracker.lengthMillis c.step)) :
    (create c now).Within (StepTracker.lengthMillis c.step) first
      (now.tdiv (StepTracker.lengthMillis c.step)) [] :=
  ⟨tracks_create c now, hfirst⟩

theorem value_takeExemplars (c : Counter) (temporality : Temporality)
    (taken now : Int) :
    ((c.takeExemplars taken).2.value temporality now).1 =
      (c.value temporality now).1 := by
  unfold takeExemplars
  split
  · rfl
  · cases temporality <;> rfl

namespace Within

variable {c : Counter} {length first present now : Int}
  {log : StepLog Float}

theorem mono (h : c.Within length first present log) {later : Int}
    (hle : present ≤ later) : c.Within length first later log :=
  ⟨RollingWindow.Paced.mono h.tracks hle, h.first_le⟩

theorem first_le_present (h : c.Within length first present log) :
    first ≤ present :=
  Int.le_trans h.first_le h.tracks.le_present

/-- A window that is moved is in the present step. -/
theorem current_rollover (h : c.Within length first (now.tdiv length) log) :
    (c.step.rollover now).tracker.current = now.tdiv length :=
  RollingWindow.Paced.current_rollover h.tracks

/-- After a rollover, no step before the present one is left. -/
theorem rollover (h : c.Within length first (now.tdiv length) log) :
    (c.rollover now).Within length (now.tdiv length) (now.tdiv length)
      log :=
  ⟨RollingWindow.Paced.rollover h.tracks,
    Int.le_of_eq h.current_rollover.symm⟩

/-- A use moves the window to the present step or leaves it. -/
theorem first_le_use {u : TimedUse}
    (h : c.Within length first (u.moment.now.tdiv length) log)
    (hopen : u.use ≠ .close) :
    first ≤ (c.use u).step.tracker.current := by
  obtain ⟨m, use⟩ := u
  have hmoved : first ≤ (c.step.rollover m.now).tracker.current := by
    rw [h.current_rollover]
    exact h.first_le_present
  cases use with
  | record amount =>
      simp only [Counter.use, increment]
      split
      · exact hmoved
      · exact h.first_le
  | maximum => exact h.first_le
  | read temporality =>
      cases temporality with
      | cumulative => exact h.first_le
      | delta => exact hmoved
  | takeExemplars =>
      simp only [Counter.use, takeExemplars]
      split <;> exact h.first_le
  | rollover => exact hmoved
  | close => exact absurd rfl hopen

/-- Uses at one time that do not close the counter add what they bring to the
log. -/
theorem useAll (h : c.Within length first (now.tdiv length) log)
    (uses : List TimedUse)
    (huses : ∀ u ∈ uses, u.moment.now = now ∧ u.use ≠ .close) :
    (c.useAll uses).Within length first (now.tdiv length)
      (log ++ StepLog.ofStep (now.tdiv length) (TimedUse.amounts uses)) := by
  refine TimedUse.foldl_log (P := fun c log =>
    Within c length first (now.tdiv length) log) ?_ huses h
  rintro c log u rfl hopen hc
  exact ⟨hc.tracks.use hopen, hc.first_le_use hopen⟩

/-- A closed counter shows the step that its window was in. -/
theorem value_close (h : c.Within length first (now.tdiv length) log)
    (hbelow : now.tdiv length < StepTracker.closedStep) :
    (c.close.value .delta now).1 =
      Accumulator.doubleSum.fold (log.valuesIn c.step.tracker.current) :=
  ((RollingWindow.Paced.frozen_close h.tracks hbelow).perform hbelow
    .poll).previous_eq

end Within

end Counter

namespace Meter

/-- A counter with its window in these bounds.  Nothing is said of meters of
other kinds. -/
def CountsWithin (meter : Meter) (length first present : Int)
    (log : StepLog Float) : Prop :=
  match meter.instrument with
  | .counter state => ∃ c, state = some c ∧ c.Within length first present log
  | _ => True

/-- New counters are in the step of their creation. -/
theorem countsWithin_instrument {b : Blueprint Source}
    {own : DistributionSettings} {config : RegistrySettings} {id : Id}
    {first now : Int} {instrument : Instrument}
    (hinstrument : b.instrument own config now = .ok instrument)
    (hfirst : first ≤ now.tdiv (StepTracker.lengthMillis config.step)) :
    (Meter.mk id now instrument).CountsWithin
      (StepTracker.lengthMillis config.step) first
      (now.tdiv (StepTracker.lengthMillis config.step)) [] := by
  cases b with
  | counter =>
      cases hinstrument
      exact ⟨_, rfl, Counter.within_create config hfirst⟩
  | timer =>
      obtain ⟨d, _, rfl⟩ := exists_of_map_eq_ok hinstrument
      exact trivial
  | summary scale =>
      obtain ⟨d, _, rfl⟩ := exists_of_map_eq_ok hinstrument
      exact trivial
  | _ =>
      cases hinstrument
      exact trivial

namespace CountsWithin

variable {meter next : Meter} {length first present now : Int}
  {log : StepLog Float} {amounts : List Float}

theorem used (h : meter.CountsWithin length first present log)
    (hpresent : present ≤ now.tdiv length)
    (hused : meter.Used now amounts False next) :
    next.CountsWithin length first (now.tdiv length)
      (log ++ StepLog.ofStep (now.tdiv length) amounts) := by
  obtain ⟨id, created, instrument⟩ := meter
  obtain ⟨other, time, after⟩ := next
  obtain ⟨_, _, uses, huses, rfl, hundergoes⟩ := hused
  simp only at hundergoes
  cases instrument with
  | counter state =>
      obtain ⟨c, rfl, hc⟩ := h
      cases hundergoes
      refine ⟨_, rfl, (hc.mono hpresent).useAll uses ?_⟩
      intro u hu
      exact ⟨(huses u hu).1, (huses u hu).2⟩
  | _ =>
      have hkind := hundergoes.kind_eq
      cases after with
      | counter state => cases hkind
      | _ => exact trivial

theorem rollover {m : Moment}
    (h : meter.CountsWithin length first (m.now.tdiv length) log) :
    (meter.rollover m).CountsWithin length (m.now.tdiv length)
      (m.now.tdiv length) log := by
  obtain ⟨id, created, instrument⟩ := meter
  cases instrument with
  | counter state =>
      obtain ⟨c, rfl, hc⟩ := h
      exact ⟨_, rfl, hc.rollover⟩
  | _ => exact trivial

end CountsWithin

end Meter

/-! ### The point of a counter -/

/-- The point that a counter owes is the sum of its value. -/
theorem Conversion.points_counter (conversion : Conversion) (id : Id)
    (created : Int) (c : Counter) (m : Moment) :
    ∃ exemplars,
      (conversion.points ⟨id, created, .counter (some c)⟩ m).1 =
        [conversion.sumPoint ⟨id, created, .counter (some c)⟩
          (c.value conversion.temporality m.now).1 exemplars] := by
  have hvalue := c.value_takeExemplars conversion.temporality m.now m.now
  refine ⟨conversion.exemplars false (c.takeExemplars m.now).1, ?_⟩
  rw [← hvalue]
  rfl

namespace Registry

/-- The only point of a meter is the sum of some amounts over an interval,
under the name and tags of an identity. -/
def SumsUp (r : Registry) (conversion : Conversion) (m : Moment)
    (reference : Nat) (id : Id) (interval : Interval)
    (amounts : List Float) : Prop :=
  ∃ (p : NamedPoint) (exemplars : List PointExemplar),
    r.pointsOf conversion m reference = [p] ∧ p.name = id.name ∧
    p.point = .sum ⟨id.tags.toPairs, interval,
      amounts.foldl (· + ·) 0.0, exemplars⟩

variable {r : Registry} {conversion : Conversion} {m : Moment}
  {reference : Nat} {meter : Meter} {length first : Int}
  {log : StepLog Float}

/-- The point of a counter that shows a value, under delta temporality. -/
theorem sumsUp_of_value (hdelta : conversion.temporality = .delta) {id : Id}
    {created : Int} {c : Counter}
    (hmeter : r.made[reference]? = some ⟨id, created, .counter (some c)⟩)
    {amounts : List Float}
    (hvalue : (c.value .delta m.now).1 = amounts.foldl (· + ·) 0.0) :
    r.SumsUp conversion m reference id conversion.lastStep amounts := by
  obtain ⟨exemplars, hpoints⟩ := conversion.points_counter id created c m
  rw [hdelta, hvalue] at hpoints
  refine ⟨conversion.sumPoint ⟨id, created, .counter (some c)⟩
    (amounts.foldl (· + ·) 0.0) exemplars, exemplars, ?_, rfl, ?_⟩
  · rw [pointsOf, hmeter, Option.map_some, Option.getD_some]
    exact hpoints
  · simp only [Conversion.sumPoint, Conversion.named, Conversion.interval,
      hdelta]

/-- An open counter reports the step before the present one. -/
theorem sumsUp_of_countsWithin (hdelta : conversion.temporality = .delta)
    (hmeter : r.made[reference]? = some meter) (hkind : meter.kind = .counter)
    (h : meter.CountsWithin length first (m.now.tdiv length) log) :
    r.SumsUp conversion m reference meter.id conversion.lastStep
      (log.valuesIn (m.now.tdiv length - 1)) := by
  obtain ⟨id, created, instrument⟩ := meter
  cases instrument with
  | counter state =>
      obtain ⟨c, rfl, hc⟩ := h
      exact sumsUp_of_value hdelta hmeter hc.tracks.value_delta
  | _ => cases hkind

/-- A counter that is closed reports the step that its window was in. -/
theorem sumsUp_of_close (hdelta : conversion.temporality = .delta)
    (hmeter : r.made[reference]? = some (meter.close m))
    (hkind : meter.kind = .counter)
    (h : meter.CountsWithin length first (m.now.tdiv length) log)
    (hbelow : m.now.tdiv length < StepTracker.closedStep) :
    ∃ step, first ≤ step ∧ step ≤ m.now.tdiv length ∧
      (∀ e ∈ log, e.1 ≤ step) ∧
      r.SumsUp conversion m reference meter.id conversion.lastStep
        (log.valuesIn step) := by
  obtain ⟨id, created, instrument⟩ := meter
  cases instrument with
  | counter state =>
      obtain ⟨c, rfl, hc⟩ := h
      exact ⟨c.step.tracker.current, hc.first_le, hc.tracks.le_present,
        hc.tracks.follows.le_step,
        sumsUp_of_value hdelta hmeter (hc.value_close hbelow)⟩
  | _ => cases hkind

end Registry

end WindowedMetrics
