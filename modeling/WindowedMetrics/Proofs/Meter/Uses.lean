/-
Meters in use.  Whatever happens to a meter with windows is a list of uses,
each at a moment.  Commands, exports and removals put a meter to some uses and
change nothing else about it; gauges, timers of running tasks and custom
meters stay of their kind.
-/
import WindowedMetrics.Export.Conversion
import WindowedMetrics.Session.Perform

namespace WindowedMetrics

theorem exists_of_map_eq_ok {E A B : Type} {f : A → B} {x : Except E A}
    {b : B} (h : x.map f = .ok b) : ∃ a, x = .ok a ∧ f a = b := by
  cases x with
  | error e => cases h
  | ok a =>
      cases h
      exact ⟨a, rfl, rfl⟩

/-! ### Amounts -/

/-- Whether a command brings amounts to a meter. -/
def MeterCommand.records : MeterCommand → Bool
  | .increment _ => true
  | .recordDurations _ _ => true
  | .recordAmounts _ => true
  | _ => false

namespace Meter

/-- The amounts that a command brings to a meter, as they are recorded. -/
def amounts (meter : Meter) (c : MeterCommand) : List Float :=
  match meter.instrument, c with
  | .counter _, .increment amount => [amount]
  | .timer _, .recordDurations durations nanos =>
      (durations.map recordableNanos ++ nanos).map countToFloat
  | .summary scale _, .recordAmounts amounts => amounts.map (· * scale)
  | _, _ => []

theorem amounts_of_not_records {meter : Meter} {c : MeterCommand}
    (hreads : c.records = false) : meter.amounts c = [] := by
  unfold amounts
  split <;> first | rfl | cases hreads

/-- A command that does not apply to a meter brings nothing. -/
theorem amounts_of_performOn_eq_none {meter : Meter} {m : Moment}
    {c : MeterCommand} (hperform : Session.performOn m meter c = none) :
    meter.amounts c = [] := by
  obtain ⟨id, created, instrument⟩ := meter
  cases instrument <;> cases c <;> first | rfl | cases hperform

end Meter

/-! ### Uses -/

/-- What can be done with a meter that has windows. -/
inductive MeterUse
  | record (amount : Float)
  | maximum
  | read (temporality : Temporality)
  | takeExemplars
  | rollover
  | close

/-- A use at a moment. -/
structure TimedUse where
  moment : Moment
  use : MeterUse

namespace TimedUse

/-- The amount that a use brings, if it is accepted. -/
def amount? (u : TimedUse) : Option Float :=
  match u.use with
  | .record amount => if isAccepted amount then some amount else none
  | _ => none

/-- The accepted amounts of several uses, in order. -/
def amounts (uses : List TimedUse) : List Float := uses.filterMap amount?

/-- Several amounts at one moment. -/
def ofAmounts (m : Moment) (values : List Float) : List TimedUse :=
  values.map fun value => ⟨m, .record value⟩

theorem amounts_append (uses more : List TimedUse) :
    amounts (uses ++ more) = amounts uses ++ amounts more :=
  List.filterMap_append

theorem amounts_ofAmounts (m : Moment) (values : List Float) :
    amounts (ofAmounts m values) = values.filter isAccepted := by
  simp [amounts, ofAmounts, List.filterMap_map, Function.comp_def, amount?,
    ← List.filterMap_eq_filter, Option.guard_def]

end TimedUse

/-- Puts a counter to a use.  A counter has no maximum to be read. -/
def Counter.use (c : Counter) (u : TimedUse) : Counter :=
  match u.use with
  | .record amount => c.increment u.moment amount
  | .maximum => c
  | .read temporality => (c.value temporality u.moment.now).2
  | .takeExemplars => (c.takeExemplars u.moment.now).2
  | .rollover => c.rollover u.moment.now
  | .close => c.close

/-- Puts a counter to several uses. -/
def Counter.useAll (c : Counter) (uses : List TimedUse) : Counter :=
  uses.foldl Counter.use c

/-- Puts a distribution to a use. -/
def Distribution.use (d : Distribution) (u : TimedUse) : Distribution :=
  match u.use with
  | .record amount => d.record u.moment amount
  | .maximum => (d.maximum u.moment.now).2
  | .read temporality => (d.snapshot temporality u.moment.now).2
  | .takeExemplars => (d.takeExemplars u.moment.now).2
  | .rollover => d.rollover u.moment.now
  | .close => d.close

/-- Puts a distribution to several uses. -/
def Distribution.useAll (d : Distribution) (uses : List TimedUse) :
    Distribution :=
  uses.foldl Distribution.use d

/-- Puts a function counter to a use.  It takes its amounts from its source
alone. -/
def FunctionCounter.use (f : FunctionCounter) (u : TimedUse) :
    FunctionCounter :=
  match u.use with
  | .read temporality => (f.value temporality u.moment).2
  | .rollover => f.rollover u.moment
  | .close => f.close u.moment
  | _ => f

/-- Puts a function counter to several uses. -/
def FunctionCounter.useAll (f : FunctionCounter) (uses : List TimedUse) :
    FunctionCounter :=
  uses.foldl FunctionCounter.use f

/-- Puts a function timer to a use. -/
def FunctionTimer.use (f : FunctionTimer) (u : TimedUse) : FunctionTimer :=
  match u.use with
  | .read temporality => (f.values temporality u.moment).2
  | .rollover => f.rollover u.moment
  | .close => f.close u.moment
  | _ => f

/-- Puts a function timer to several uses. -/
def FunctionTimer.useAll (f : FunctionTimer) (uses : List TimedUse) :
    FunctionTimer :=
  uses.foldl FunctionTimer.use f

/-- What an instrument is after some uses.  Of the kinds without windows it is
only said that they stay what they are. -/
def Instrument.Undergoes (i : Instrument) (uses : List TimedUse)
    (next : Instrument) : Prop :=
  match i with
  | .counter state => next = .counter (state.map (·.useAll uses))
  | .timer state => next = .timer (state.map (·.useAll uses))
  | .summary scale state => next = .summary scale (state.map (·.useAll uses))
  | .functionCounter state =>
      next = .functionCounter (state.map (·.useAll uses))
  | .functionTimer state =>
      next = .functionTimer (state.map (·.useAll uses))
  | other => next.kind = other.kind ∧ next.isIdle? = other.isIdle?

namespace Instrument.Undergoes

variable {i next last : Instrument} {uses more : List TimedUse}

theorem refl (i : Instrument) : i.Undergoes [] i := by
  cases i with
  | counter state => cases state <;> rfl
  | timer state => cases state <;> rfl
  | summary scale state => cases state <;> rfl
  | functionCounter state => cases state <;> rfl
  | functionTimer state => cases state <;> rfl
  | _ => exact ⟨rfl, rfl⟩

theorem kind_eq (h : i.Undergoes uses next) : next.kind = i.kind := by
  cases i with
  | counter state => cases h; rfl
  | timer state => cases h; rfl
  | summary scale state => cases h; rfl
  | functionCounter state => cases h; rfl
  | functionTimer state => cases h; rfl
  | _ => exact h.1

theorem isIdle?_eq (h : i.Undergoes uses next) :
    next.isIdle? = i.isIdle? := by
  cases i with
  | counter state => cases h; simp [isIdle?]
  | timer state => cases h; simp [isIdle?]
  | summary scale state => cases h; simp [isIdle?]
  | functionCounter state => cases h; simp [isIdle?]
  | functionTimer state => cases h; simp [isIdle?]
  | _ => exact h.2

theorem trans (h : i.Undergoes uses next) (hlast : next.Undergoes more last) :
    i.Undergoes (uses ++ more) last := by
  cases i with
  | counter state =>
      cases h
      cases hlast
      cases state <;> simp [Undergoes, Counter.useAll]
  | timer state =>
      cases h
      cases hlast
      cases state <;> simp [Undergoes, Distribution.useAll]
  | summary scale state =>
      cases h
      cases hlast
      cases state <;> simp [Undergoes, Distribution.useAll]
  | functionCounter state =>
      cases h
      cases hlast
      cases state <;> simp [Undergoes, FunctionCounter.useAll]
  | functionTimer state =>
      cases h
      cases hlast
      cases state <;> simp [Undergoes, FunctionTimer.useAll]
  | _ =>
      exact ⟨hlast.kind_eq.trans h.1, hlast.isIdle?_eq.trans h.2⟩

end Instrument.Undergoes

/-- A meter is put to uses at one wall time.  They bring `amounts`, and they
close the meter only if `closing` holds. -/
structure Meter.Used (meter : Meter) (now : Int) (amounts : List Float)
    (closing : Prop) (next : Meter) : Prop where
  id_eq : next.id = meter.id
  created_eq : next.created = meter.created
  exists_uses : ∃ uses : List TimedUse,
    (∀ u ∈ uses, u.moment.now = now ∧ (u.use = .close → closing)) ∧
    TimedUse.amounts uses = amounts ∧
    meter.instrument.Undergoes uses next.instrument

namespace Meter.Used

variable {meter next last : Meter} {now : Int} {amounts more : List Float}
  {closing : Prop}

theorem refl (meter : Meter) (now : Int) (closing : Prop) :
    meter.Used now [] closing meter :=
  ⟨rfl, rfl, [], by simp, rfl, .refl meter.instrument⟩

theorem trans (h : meter.Used now amounts closing next)
    (hlast : next.Used now more closing last) :
    meter.Used now (amounts ++ more) closing last := by
  obtain ⟨hid, hcreated, uses, hall, rfl, hundergoes⟩ := h
  obtain ⟨hid', hcreated', others, hothers, rfl, hundergoes'⟩ := hlast
  refine ⟨hid'.trans hid, hcreated'.trans hcreated, uses ++ others, ?_,
    TimedUse.amounts_append uses others, hundergoes.trans hundergoes'⟩
  intro u hu
  rcases List.mem_append.mp hu with hfirst | hlater
  · exact hall u hfirst
  · exact hothers u hlater

theorem kind_eq (h : meter.Used now amounts closing next) :
    next.kind = meter.kind := by
  obtain ⟨_, _, uses, _, _, hundergoes⟩ := h
  exact hundergoes.kind_eq

theorem isIdle?_eq (h : meter.Used now amounts closing next) :
    next.instrument.isIdle? = meter.instrument.isIdle? := by
  obtain ⟨_, _, uses, _, _, hundergoes⟩ := h
  exact hundergoes.isIdle?_eq

/-- Uses of one moment. -/
theorem of_uses {m : Moment} (uses : List MeterUse) {i : Instrument}
    (hclosing : .close ∈ uses → closing)
    (h : meter.instrument.Undergoes (uses.map (TimedUse.mk m)) i) :
    meter.Used m.now (TimedUse.amounts (uses.map (TimedUse.mk m))) closing
      (meter.withInstrument i) := by
  refine ⟨rfl, rfl, _, ?_, rfl, h⟩
  intro u hu
  obtain ⟨use, huse, rfl⟩ := List.mem_map.mp hu
  exact ⟨rfl, fun hclose => hclosing (hclose ▸ huse)⟩

/-- A meter of a kind without windows, in a new state. -/
theorem of_stays {i : Instrument} (now : Int) (closing : Prop)
    (h : meter.instrument.Undergoes [] i) :
    meter.Used now [] closing (meter.withInstrument i) :=
  ⟨rfl, rfl, [], by simp, rfl, h⟩

/-! ### Reading, moving and closing -/

section Reading

variable (meter : Meter) (m : Moment) (closing : Prop)

theorem rollover : meter.Used m.now [] closing (meter.rollover m) := by
  obtain ⟨id, created, instrument⟩ := meter
  cases instrument with
  | counter state => exact of_uses [.rollover] (by simp) rfl
  | timer state => exact of_uses [.rollover] (by simp) rfl
  | summary scale state => exact of_uses [.rollover] (by simp) rfl
  | functionCounter state => exact of_uses [.rollover] (by simp) rfl
  | functionTimer state => exact of_uses [.rollover] (by simp) rfl
  | _ => exact of_stays _ _ ⟨rfl, rfl⟩

theorem close (hclosing : closing) :
    meter.Used m.now [] closing (meter.close m) := by
  obtain ⟨id, created, instrument⟩ := meter
  cases instrument with
  | counter state => exact of_uses [.close] (fun _ => hclosing) rfl
  | timer state => exact of_uses [.close] (fun _ => hclosing) rfl
  | summary scale state => exact of_uses [.close] (fun _ => hclosing) rfl
  | functionCounter state => exact of_uses [.close] (fun _ => hclosing) rfl
  | functionTimer state => exact of_uses [.close] (fun _ => hclosing) rfl
  | _ => exact of_stays _ _ ⟨rfl, rfl⟩

theorem measure (temporality : Temporality) (unit : TimeUnit) :
    meter.Used m.now [] closing (meter.measure temporality unit m).2 := by
  obtain ⟨id, created, instrument⟩ := meter
  cases instrument with
  | counter state =>
      exact of_uses [.read temporality] (by simp) (by cases state <;> rfl)
  | timer state =>
      exact of_uses [.read temporality] (by simp) (by cases state <;> rfl)
  | summary scale state =>
      exact of_uses [.read temporality] (by simp) (by cases state <;> rfl)
  | functionCounter state =>
      exact of_uses [.read temporality] (by simp) (by cases state <;> rfl)
  | functionTimer state =>
      exact of_uses [.read temporality] (by simp) (by cases state <;> rfl)
  | _ => exact refl _ _ _

theorem read (temporality : Temporality) (unit : TimeUnit) :
    meter.Used m.now [] closing (meter.read temporality unit m).2 := by
  obtain ⟨id, created, instrument⟩ := meter
  cases instrument with
  | counter state =>
      exact of_uses [.read temporality] (by simp) (by cases state <;> rfl)
  | timer state =>
      exact of_uses [.maximum, .read temporality] (by simp)
        (by cases state <;> rfl)
  | summary scale state =>
      exact of_uses [.maximum, .read temporality] (by simp)
        (by cases state <;> rfl)
  | longTaskTimer state => cases state <;> exact refl _ _ _
  | functionCounter state =>
      exact of_uses [.read temporality] (by simp) (by cases state <;> rfl)
  | functionTimer state =>
      exact of_uses [.read temporality] (by simp) (by cases state <;> rfl)
  | _ => exact refl _ _ _

/-- The points of a meter are a reading like others. -/
theorem points (c : Conversion) :
    meter.Used m.now [] closing (c.points meter m).2 := by
  obtain ⟨id, created, instrument⟩ := meter
  cases instrument with
  | counter state =>
      exact of_uses [.takeExemplars, .read c.temporality] (by simp)
        (by cases state <;> rfl)
  | timer state =>
      exact of_uses [.read c.temporality, .takeExemplars] (by simp)
        (by cases state <;> rfl)
  | summary scale state =>
      exact of_uses [.read c.temporality, .takeExemplars] (by simp)
        (by cases state <;> rfl)
  | gauge source =>
      simp only [Conversion.points]
      split <;> exact refl _ _ _
  | functionCounter state =>
      simp only [Conversion.points]
      split
      · exact of_uses [.read c.temporality] (by simp)
          (by cases state <;> rfl)
      · exact refl _ _ _
  | functionTimer state =>
      simp only [Conversion.points]
      split
      · exact of_uses [.read c.temporality] (by simp)
          (by cases state <;> rfl)
      · exact refl _ _ _
  | _ => exact refl _ _ _

theorem stopTask (clock : Clock) (sample : TaskSample) (now : Int) :
    meter.Used now [] closing (meter.stopTask clock sample).2 := by
  obtain ⟨id, created, instrument⟩ := meter
  cases instrument with
  | longTaskTimer state =>
      cases state with
      | none => exact refl _ _ _
      | some tasks => exact of_stays _ _ ⟨rfl, rfl⟩
  | _ => exact refl _ _ _

end Reading

theorem takeExemplars? {m : Moment} {exemplars : List Exemplar}
    (h : meter.takeExemplars? m.now = some (exemplars, next)) :
    meter.Used m.now [] closing next := by
  obtain ⟨id, created, instrument⟩ := meter
  cases instrument with
  | counter state =>
      cases h
      exact of_uses [.takeExemplars] (by simp) (by cases state <;> rfl)
  | timer state =>
      cases h
      exact of_uses [.takeExemplars] (by simp) (by cases state <;> rfl)
  | summary scale state =>
      cases h
      exact of_uses [.takeExemplars] (by simp) (by cases state <;> rfl)
  | _ => cases h

theorem startTask? {clock : Clock} {sample : Option TaskSample}
    (h : meter.startTask? clock = some (sample, next)) (now : Int) :
    meter.Used now [] closing next := by
  obtain ⟨id, created, instrument⟩ := meter
  cases instrument with
  | longTaskTimer state =>
      cases state with
      | none =>
          cases h
          exact refl _ _ _
      | some tasks =>
          cases h
          exact of_stays _ _ ⟨rfl, rfl⟩
  | _ => cases h

/-! ### Recording -/

section Recording

variable {m : Moment}

/-- Amounts that are recorded at one moment; those that are accepted
count. -/
theorem of_amounts (values : List Float) {i : Instrument}
    (h : meter.instrument.Undergoes (TimedUse.ofAmounts m values) i) :
    meter.Used m.now (values.filter isAccepted) closing
      (meter.withInstrument i) := by
  refine ⟨rfl, rfl, _, ?_, TimedUse.amounts_ofAmounts m values, h⟩
  intro u hu
  obtain ⟨value, _, rfl⟩ := List.mem_map.mp hu
  exact ⟨rfl, by simp⟩

theorem increment? {amount : Float}
    (h : meter.increment? m amount = some next) :
    meter.Used m.now ((meter.amounts (.increment amount)).filter isAccepted)
      closing next := by
  obtain ⟨id, created, instrument⟩ := meter
  cases instrument with
  | counter state =>
      cases h
      exact of_amounts [amount] rfl
  | _ => cases h

theorem recordNanos? {durations : List Duration} {nanos : List Nat}
    (h : meter.recordNanos? m (durations.map recordableNanos ++ nanos) =
      some next) :
    meter.Used m.now
      ((meter.amounts (.recordDurations durations nanos)).filter isAccepted)
      closing next := by
  obtain ⟨id, created, instrument⟩ := meter
  cases instrument with
  | timer state =>
      cases h
      apply of_amounts
      simp only [Instrument.Undergoes, Distribution.useAll, Meter.amounts,
        TimedUse.ofAmounts, List.foldl_map]
      rfl
  | _ => cases h

theorem recordAmounts? {amounts : List Float}
    (h : meter.recordAmounts? m amounts = some next) :
    meter.Used m.now
      ((meter.amounts (.recordAmounts amounts)).filter isAccepted)
      closing next := by
  obtain ⟨id, created, instrument⟩ := meter
  cases instrument with
  | summary scale state =>
      cases h
      apply of_amounts
      simp only [Instrument.Undergoes, Distribution.useAll, Meter.amounts,
        TimedUse.ofAmounts, List.foldl_map]
      rfl
  | _ => cases h

end Recording

/-! ### Commands -/

/-- What a command does to a meter. -/
theorem performOn {m : Moment} {c : MeterCommand} {answer : Answer}
    (hclosing : c = .close → closing)
    (h : Session.performOn m meter c = some (answer, next)) :
    meter.Used m.now ((meter.amounts c).filter isAccepted) closing next := by
  have hreads {after : Meter} (hrecords : c.records = false)
      (hafter : meter.Used m.now [] closing after) :
      meter.Used m.now ((meter.amounts c).filter isAccepted) closing
        after := by
    rw [amounts_of_not_records hrecords]
    exact hafter
  cases c with
  | increment amount =>
      obtain ⟨done, hdone, heq⟩ := Option.map_eq_some_iff.mp h
      cases heq
      exact increment? hdone
  | recordDurations durations nanos =>
      obtain ⟨done, hdone, heq⟩ := Option.map_eq_some_iff.mp h
      cases heq
      exact recordNanos? hdone
  | recordAmounts amounts =>
      obtain ⟨done, hdone, heq⟩ := Option.map_eq_some_iff.mp h
      cases heq
      exact recordAmounts? hdone
  | rollover =>
      cases h
      exact hreads rfl (rollover meter m closing)
  | close =>
      cases h
      exact hreads rfl (close meter m closing (hclosing rfl))
  | measure temporality unit =>
      cases h
      exact hreads rfl (measure meter m closing temporality unit)
  | takeExemplars =>
      obtain ⟨⟨exemplars, done⟩, hdone, heq⟩ := Option.map_eq_some_iff.mp h
      cases heq
      exact hreads rfl (takeExemplars? hdone)
  | read temporality unit =>
      cases h
      exact hreads rfl (read meter m closing temporality unit)

end Meter.Used

end WindowedMetrics
