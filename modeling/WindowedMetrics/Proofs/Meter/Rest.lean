/-
Meters at rest.  Once all windows of a meter are closed, whatever is done with
it leaves alone what it shows of its last step: what is recorded later stays
where it cannot be read, and the exemplars that are left only become fewer.
-/
import WindowedMetrics.Proofs.Meter.Windows

namespace WindowedMetrics

/-! ### Windows at rest -/

section Windows

variable {now : Int} (hnow : now ≤ maxInt64)

include hnow

namespace RollingWindow

variable {V : Type} {acc : Accumulator V} {w : RollingWindow acc}

theorem rolloverWith_of_shut (h : w.tracker.Shut) (last : V → V) :
    w.rolloverWith now last = w := by
  rw [rolloverWith, h.due?_eq_none hnow]

theorem rollover_of_shut (h : w.tracker.Shut) : w.rollover now = w :=
  rolloverWith_of_shut hnow h id

/-- What is recorded goes to a step that never ends. -/
theorem previous_record (h : w.tracker.Shut) (value : V) :
    (w.record now value).previous = w.previous := by
  rw [record, rollover_of_shut hnow h]

end RollingWindow

theorem SteppedHistogram.rollover_of_shut {h : SteppedHistogram}
    (hh : h.tracker.Shut) : h.rollover now = h := by
  rw [rollover, hh.due?_eq_none hnow]

namespace Reservoir

variable {r : Reservoir}

theorem rollover_of_shut (h : r.tracker.Shut) : r.rollover now = r := by
  rw [rollover, h.due?_eq_none hnow]

theorem closed_offer (h : r.tracker.Shut) (context : Option TraceContext)
    (draw : Nat → Nat) (value : Float) :
    (r.offer now context draw value).closed = r.closed := by
  cases context with
  | none => rfl
  | some context => rw [offer, rollover_of_shut hnow h]

end Reservoir

end Windows

theorem RollingWindow.close_of_shut {V : Type} {acc : Accumulator V}
    {w : RollingWindow acc} (h : w.tracker.Shut) : w.close = w :=
  if_pos h.2

theorem SteppedHistogram.close_of_shut {h : SteppedHistogram}
    (hh : h.tracker.Shut) : h.close = h :=
  if_pos hh.2

theorem Reservoir.close_of_shut {r : Reservoir} (h : r.tracker.Shut) :
    r.close = r :=
  if_pos h.2

/-! ### Exemplars at rest -/

/-- The exemplars of the last closed step of a reservoir that may be
missing. -/
def exemplarsLeft (state : Option Reservoir) : List Exemplar :=
  (state.map fun r => r.closed.contents).getD []

theorem exemplarsLeft_map {state : Option Reservoir}
    (h : ∀ r ∈ state, r.tracker.Shut) {f : Reservoir → Reservoir}
    (hf : ∀ r : Reservoir, r.tracker.Shut → (f r).closed = r.closed) :
    exemplarsLeft (state.map f) = exemplarsLeft state := by
  cases state with
  | none => rfl
  | some r => simp only [exemplarsLeft, Option.map_some, hf r (h r rfl)]

section Draining

variable {state : Option Reservoir} (h : ∀ r ∈ state, r.tracker.Shut)
  {now : Int} (hnow : now ≤ maxInt64)

include h hnow

/-- A drain of closed reservoirs returns what is left. -/
theorem drainable_of_shut : drainable state now = exemplarsLeft state := by
  cases state with
  | none => rfl
  | some r =>
      simp only [drainable, exemplarsLeft, Option.map_some, Reservoir.drain,
        Reservoir.rollover_of_shut hnow (h r rfl)]

/-- And nothing is left after it. -/
theorem exemplarsLeft_drain :
    exemplarsLeft (state.map fun r => (r.drain now).2) = [] := by
  have hdrained := forall_mem_map (Q := fun r : Reservoir => r.tracker.Shut)
    (fun r hr => Reservoir.kept_drain (StepTracker.kept_shut hnow) hr) h
  rw [← drainable_of_shut hdrained hnow]
  exact drainable_drain state now

end Draining

/-! ### What rests -/

/-- What a meter shows of the last closed step, by its kind.  `amounts` are
those of a function timer, `nothing` is shown by meters without windows. -/
inductive DeltaView
  | amount (value : Float)
  | amounts (count total : Float)
  | snapshot (value : Snapshot)
  | nothing

/-- The amount that is shown, if it is just one. -/
def DeltaView.amount? : DeltaView → Option Float
  | amount value => some value
  | _ => none

/-- What a closed meter shows, and the exemplars that are left to take. -/
structure Rest where
  shown : DeltaView
  left : List Exemplar

/-- The same is shown later, and no exemplars have been added. -/
structure Rest.Lasts (here later : Rest) : Prop where
  shown_eq : later.shown = here.shown
  left_sublist : later.left.Sublist here.left

namespace Rest.Lasts

variable {here later last : Rest}

theorem refl (here : Rest) : here.Lasts here :=
  ⟨rfl, List.Sublist.refl _⟩

theorem trans (h : here.Lasts later) (hlast : later.Lasts last) :
    here.Lasts last :=
  ⟨hlast.shown_eq.trans h.shown_eq, hlast.left_sublist.trans h.left_sublist⟩

theorem of_eq (hshown : later.shown = here.shown)
    (hleft : later.left = here.left) : here.Lasts later :=
  ⟨hshown, hleft ▸ List.Sublist.refl _⟩

/-- What every use keeps up lasts through several, also for a state that may
be missing. -/
theorem foldl_map {S : Type} {use : S → TimedUse → S} {R : S → Rest}
    {Q : S → Prop} {uses : List TimedUse}
    (hQ : ∀ u ∈ uses, ∀ s, Q s → Q (use s u) ∧ (R s).Lasts (R (use s u)))
    {state : Option S} (h : ∀ s ∈ state, Q s) (missing : Rest) :
    ((state.map R).getD missing).Lasts
      (((state.map (uses.foldl use)).map R).getD missing) := by
  cases state with
  | none => exact .refl missing
  | some s =>
      have hall : Q (uses.foldl use s) ∧
          (R s).Lasts (R (uses.foldl use s)) := by
        refine List.foldlRecOn (motive := fun t => Q t ∧ (R s).Lasts (R t))
          uses use ⟨h s rfl, refl _⟩ ?_
        intro t ht u hu
        obtain ⟨hkept, hlasts⟩ := hQ u hu t ht.1
        exact ⟨hkept, ht.2.trans hlasts⟩
      exact hall.2

end Rest.Lasts

/-- The slot of a histogram that snapshots of the last closed step read. -/
def Histogram.closed? : Histogram → Option (SlotPlan × Slot)
  | .stepped h => some (h.plan, h.closed)
  | _ => none

def Counter.rest (c : Counter) : Rest :=
  ⟨.amount c.step.previous, exemplarsLeft c.exemplars⟩

def Distribution.rest (d : Distribution) : Rest :=
  let count := d.step.previous.1
  let total := d.step.previous.2
  let max := d.max.previous
  let snapshot :=
    match d.histogram.bind Histogram.closed? with
    | none => Snapshot.scalar count total max
    | some (plan, slot) => plan.snapshot [slot] count total max
  ⟨.snapshot snapshot, exemplarsLeft d.exemplars⟩

def FunctionCounter.rest (f : FunctionCounter) : Rest :=
  ⟨.amount f.step.previous, []⟩

def FunctionTimer.rest (f : FunctionTimer) : Rest :=
  ⟨.amounts f.step.previous.1 f.step.previous.2, []⟩

/-- A meter that was refused rests as if nothing had ever been recorded. -/
def Instrument.rest : Instrument → Rest
  | .counter state => (state.map Counter.rest).getD ⟨.amount 0.0, []⟩
  | .timer state =>
      (state.map Distribution.rest).getD ⟨.snapshot Snapshot.empty, []⟩
  | .summary _ state =>
      (state.map Distribution.rest).getD ⟨.snapshot Snapshot.empty, []⟩
  | .functionCounter state =>
      (state.map FunctionCounter.rest).getD ⟨.amount 0.0, []⟩
  | .functionTimer state =>
      (state.map FunctionTimer.rest).getD ⟨.amounts 0.0 0.0, []⟩
  | _ => ⟨.nothing, []⟩

/-! ### Uses of closed meters -/

section Uses

variable {u : TimedUse} (hnow : u.moment.now ≤ maxInt64)

include hnow

/-! ### Counters -/

theorem Counter.Windows.lasts_use {c : Counter}
    (h : c.Windows StepTracker.Shut) : c.rest.Lasts (c.use u).rest := by
  obtain ⟨m, use⟩ := u
  cases use with
  | record amount =>
      simp only [Counter.use, increment]
      split
      · refine .of_eq ?_ (exemplarsLeft_map h.exemplars
          fun r hr => Reservoir.closed_offer hnow hr _ _ _)
        exact congrArg DeltaView.amount
          (RollingWindow.previous_record hnow h.step amount)
      · exact .refl _
  | maximum => exact .refl _
  | read temporality =>
      cases temporality with
      | cumulative => exact .refl _
      | delta =>
          simp only [Counter.use, value, RollingWindow.poll,
            RollingWindow.rollover_of_shut hnow h.step]
          exact .refl _
  | takeExemplars =>
      simp only [Counter.use, takeExemplars_eq]
      refine ⟨rfl, ?_⟩
      simp only [Counter.rest, exemplarsLeft_drain h.exemplars hnow]
      exact List.nil_sublist _
  | rollover =>
      simp only [Counter.use, rollover,
        RollingWindow.rollover_of_shut hnow h.step]
      exact .refl _
  | close =>
      simp only [Counter.use, Counter.close, RollingWindow.close_of_shut h.step]
      exact .of_eq rfl (exemplarsLeft_map h.exemplars
        fun r hr => by rw [Reservoir.close_of_shut hr])

/-! ### Distributions -/

namespace Distribution

variable {d next : Distribution}

omit hnow in
theorem lasts_of_eq (hstep : next.step.previous = d.step.previous)
    (hmax : next.max.previous = d.max.previous)
    (hhistogram : next.histogram.bind Histogram.closed? =
      d.histogram.bind Histogram.closed?)
    (hleft : exemplarsLeft next.exemplars = exemplarsLeft d.exemplars) :
    d.rest.Lasts next.rest := by
  refine .of_eq ?_ hleft
  simp only [rest, hstep, hmax, hhistogram]

namespace Windows

variable (h : d.Windows StepTracker.Shut)

include h

omit hnow in
theorem closed?_map {f : Histogram → Histogram}
    (hf : ∀ steps : SteppedHistogram, steps.tracker.Shut →
      (f (.stepped steps)).closed? = some (steps.plan, steps.closed)) :
    (d.histogram.map f).bind Histogram.closed? =
      d.histogram.bind Histogram.closed? := by
  cases hhistogram : d.histogram with
  | none => rfl
  | some histogram =>
      obtain ⟨steps, rfl, hsteps⟩ := h.histogram histogram hhistogram
      exact hf steps hsteps

theorem maximum_eq : (d.maximum u.moment.now).2 = d := by
  simp only [Distribution.maximum, RollingWindow.latest, RollingWindow.poll,
    RollingWindow.rollover_of_shut hnow h.max]

theorem statistics_delta :
    d.statistics .delta u.moment.now =
      ((d.step.previous.1, d.step.previous.2, d.max.previous), d) := by
  simp only [statistics, RollingWindow.poll,
    RollingWindow.rollover_of_shut hnow h.step,
    RollingWindow.rollover_of_shut hnow h.max]

theorem rest_shown :
    d.rest.shown = .snapshot (d.snapshot .delta u.moment.now).1 := by
  rw [snapshot_of_statistics (h.statistics_delta hnow)]
  simp only [rest]
  cases hhistogram : d.histogram with
  | none => rfl
  | some histogram =>
      obtain ⟨steps, rfl, hsteps⟩ := h.histogram histogram hhistogram
      simp only [Option.bind_some, Histogram.closed?, Histogram.snapshot,
        SteppedHistogram.snapshot,
        SteppedHistogram.rollover_of_shut hnow hsteps]

theorem snapshot_eq (temporality : Temporality) :
    (d.snapshot temporality u.moment.now).2 = d := by
  have hafter : (d.statistics temporality u.moment.now).2 = d := by
    cases temporality with
    | cumulative => exact h.maximum_eq hnow
    | delta => rw [h.statistics_delta hnow]
  generalize hstatistics : d.statistics temporality u.moment.now = read
    at hafter
  obtain ⟨⟨count, total, max⟩, after⟩ := read
  obtain rfl := hafter
  rw [snapshot_of_statistics hstatistics]
  cases hhistogram : after.histogram with
  | none => rfl
  | some histogram =>
      obtain ⟨steps, rfl, hsteps⟩ := h.histogram histogram hhistogram
      simp only [Histogram.snapshot, SteppedHistogram.snapshot,
        SteppedHistogram.rollover_of_shut hnow hsteps, ← hhistogram]

theorem lasts_use : d.rest.Lasts (d.use u).rest := by
  obtain ⟨m, use⟩ := u
  cases use with
  | record amount =>
      simp only [Distribution.use, record]
      split
      · refine lasts_of_eq (RollingWindow.previous_record hnow h.step _)
          (RollingWindow.previous_record hnow h.max _) (h.closed?_map ?_)
          (exemplarsLeft_map h.exemplars
            fun r hr => Reservoir.closed_offer hnow hr _ _ _)
        intro steps hsteps
        simp only [Histogram.record, SteppedHistogram.record,
          Histogram.closed?, SteppedHistogram.rollover_of_shut hnow hsteps]
      · exact .refl _
  | maximum =>
      simp only [Distribution.use, h.maximum_eq hnow]
      exact .refl _
  | read temporality =>
      simp only [Distribution.use, h.snapshot_eq hnow]
      exact .refl _
  | takeExemplars =>
      simp only [Distribution.use, takeExemplars_eq]
      refine ⟨rfl, ?_⟩
      simp only [rest, exemplarsLeft_drain h.exemplars hnow]
      exact List.nil_sublist _
  | rollover =>
      simp only [Distribution.use, rollover,
        RollingWindow.rollover_of_shut hnow h.step,
        RollingWindow.rollover_of_shut hnow h.max]
      exact .refl _
  | close =>
      refine lasts_of_eq
        (congrArg _ (RollingWindow.close_of_shut h.step))
        (congrArg _ (RollingWindow.close_of_shut h.max)) (h.closed?_map ?_)
        (exemplarsLeft_map h.exemplars
          fun r hr => by rw [Reservoir.close_of_shut hr])
      intro steps hsteps
      simp only [Histogram.close, Histogram.closed?,
        SteppedHistogram.close_of_shut hsteps]

end Windows

end Distribution

/-! ### Functions -/

namespace FunctionCounter

variable {f : FunctionCounter} (h : f.step.tracker.Shut)

include h

/-- A reading is not accounted for, for the step will not close. -/
theorem pollReading_of_shut (reading : Option Float) :
    f.pollReading u.moment.now reading = (f.step.previous, f) := by
  simp only [pollReading, h.due?_eq_none hnow, RollingWindow.poll,
    RollingWindow.rollover_of_shut hnow h]

/-- Closing again accounts for the reading, in the step that never ends. -/
theorem previous_closeReading (reading : Option Float) :
    (f.closeReading u.moment.now reading).step.previous =
      f.step.previous := by
  unfold closeReading
  rw [pollReading_of_shut hnow h]
  cases reading with
  | none => exact congrArg _ (RollingWindow.close_of_shut h)
  | some reading =>
      have hshut : (f.step.record u.moment.now
          (increase f.baseline reading)).tracker.Shut :=
        RollingWindow.kept_rolloverWith (StepTracker.kept_shut hnow) h id
      exact (congrArg _ (RollingWindow.close_of_shut hshut)).trans
        (RollingWindow.previous_record hnow h _)

theorem lasts_use : f.rest.Lasts (f.use u).rest := by
  obtain ⟨m, use⟩ := u
  cases use with
  | read temporality =>
      cases temporality with
      | cumulative => exact .refl _
      | delta =>
          simp only [FunctionCounter.use, value, pollReading_of_shut hnow h]
          exact .refl _
  | rollover =>
      simp only [FunctionCounter.use, rollover, pollReading_of_shut hnow h]
      exact .refl _
  | close =>
      exact .of_eq
        (congrArg DeltaView.amount (previous_closeReading hnow h _)) rfl
  | _ => exact .refl _

end FunctionCounter

namespace FunctionTimer

variable {f : FunctionTimer} (h : f.step.tracker.Shut)

include h

/-- Readings are not accounted for, for the step will not close. -/
theorem pollReading_of_shut (reading : Option (Float × Float)) :
    f.pollReading u.moment.now reading = (f.step.previous, f) := by
  simp only [pollReading, h.due?_eq_none hnow, RollingWindow.poll,
    RollingWindow.rollover_of_shut hnow h]

/-- Closing again accounts for the readings, in the step that never ends. -/
theorem previous_closeReading (reading : Option (Float × Float)) :
    (f.closeReading u.moment.now reading).step.previous =
      f.step.previous := by
  unfold closeReading
  rw [pollReading_of_shut hnow h]
  cases reading with
  | none => exact congrArg _ (RollingWindow.close_of_shut h)
  | some reading =>
      have hshut : (f.step.record u.moment.now
          (f.increases reading)).tracker.Shut :=
        RollingWindow.kept_rolloverWith (StepTracker.kept_shut hnow) h id
      exact (congrArg _ (RollingWindow.close_of_shut hshut)).trans
        (RollingWindow.previous_record hnow h _)

theorem lasts_use : f.rest.Lasts (f.use u).rest := by
  obtain ⟨m, use⟩ := u
  cases use with
  | read temporality =>
      cases temporality with
      | cumulative => exact .refl _
      | delta =>
          simp only [FunctionTimer.use, values, pollReading_of_shut hnow h]
          exact .refl _
  | rollover =>
      simp only [FunctionTimer.use, rollover, pollReading_of_shut hnow h]
      exact .refl _
  | close =>
      refine .of_eq ?_ rfl
      simp only [rest, FunctionTimer.use, FunctionTimer.close,
        previous_closeReading hnow h]
  | _ => exact .refl _

end FunctionTimer

end Uses

theorem Instrument.Windows.lasts_undergoes {i next : Instrument}
    {uses : List TimedUse} (h : i.Windows StepTracker.Shut)
    (hnow : ∀ u ∈ uses, u.moment.now ≤ maxInt64)
    (hnext : i.Undergoes uses next) : i.rest.Lasts next.rest := by
  have hkind := hnext.kind_eq
  have hkept u (hu : u ∈ uses) := StepTracker.kept_shut (hnow u hu)
  have hdistribution {state : Option Distribution}
      (h : ∀ d ∈ state, d.Windows StepTracker.Shut) (missing : Rest) :=
    Rest.Lasts.foldl_map (R := Distribution.rest)
      (fun u hu _ hd => ⟨hd.use (hkept u hu), hd.lasts_use (hnow u hu)⟩) h
      missing
  cases i with
  | counter state =>
      obtain rfl := hnext
      exact Rest.Lasts.foldl_map
        (fun u hu _ hc => ⟨hc.use (hkept u hu), hc.lasts_use (hnow u hu)⟩) h _
  | timer state =>
      obtain rfl := hnext
      exact hdistribution h _
  | summary scale state =>
      obtain rfl := hnext
      exact hdistribution h _
  | functionCounter state =>
      obtain rfl := hnext
      exact Rest.Lasts.foldl_map
        (R := FunctionCounter.rest)
        (Q := fun f : FunctionCounter => f.step.tracker.Shut)
        (fun u hu _ hf => ⟨FunctionCounter.kept_use (hkept u hu) hf,
          FunctionCounter.lasts_use (hnow u hu) hf⟩) h _
  | functionTimer state =>
      obtain rfl := hnext
      exact Rest.Lasts.foldl_map
        (R := FunctionTimer.rest)
        (Q := fun f : FunctionTimer => f.step.tracker.Shut)
        (fun u hu _ hf => ⟨FunctionTimer.kept_use (hkept u hu) hf,
          FunctionTimer.lasts_use (hnow u hu) hf⟩) h _
  | _ => cases next <;> first | exact .refl _ | cases hkind

/-! ### Closed meters -/

namespace Meter

/-- What a meter shows of the last closed step at a moment. -/
def deltaView (meter : Meter) (m : Moment) : DeltaView :=
  match meter.instrument with
  | .counter state => .amount (counterValue state .delta m.now).1
  | .timer state => .snapshot (snapshotOf state .delta m.now).1
  | .summary _ state => .snapshot (snapshotOf state .delta m.now).1
  | .functionCounter state => .amount (functionValue state .delta m).1
  | .functionTimer state =>
      let values := (functionValues state .delta m).1
      .amounts values.1 values.2
  | _ => .nothing

/-- What draining a meter returns at a time. -/
def exemplarsAt (meter : Meter) (now : Int) : List Exemplar :=
  ((meter.takeExemplars? now).map Prod.fst).getD []

/-- All windows of a meter are closed. -/
def Closed (meter : Meter) : Prop :=
  meter.instrument.Windows StepTracker.Shut

namespace Closed

variable {meter next : Meter} (h : meter.Closed)

include h

theorem deltaView_eq {m : Moment} (hnow : m.now ≤ maxInt64) :
    meter.deltaView m = meter.instrument.rest.shown := by
  obtain ⟨id, created, instrument⟩ := meter
  have hdistribution {state : Option Distribution}
      (h : ∀ d ∈ state, d.Windows StepTracker.Shut) :
      DeltaView.snapshot (snapshotOf state .delta m.now).1 =
        ((state.map Distribution.rest).getD
          ⟨.snapshot Snapshot.empty, []⟩).shown := by
    cases state with
    | none => rfl
    | some d => exact ((h d rfl).rest_shown (u := ⟨m, .maximum⟩) hnow).symm
  cases instrument with
  | counter state =>
      cases state with
      | none => rfl
      | some c =>
          exact congrArg (fun w => DeltaView.amount w.previous)
            (RollingWindow.rollover_of_shut hnow (h c rfl).step)
  | timer state => exact hdistribution h
  | summary scale state => exact hdistribution h
  | functionCounter state =>
      cases state with
      | none => rfl
      | some f =>
          exact congrArg (fun answer => DeltaView.amount answer.1)
            (FunctionCounter.pollReading_of_shut (u := ⟨m, .maximum⟩) hnow
              (h f rfl) _)
  | functionTimer state =>
      cases state with
      | none => rfl
      | some f =>
          exact congrArg (fun answer => DeltaView.amounts answer.1.1 answer.1.2)
            (FunctionTimer.pollReading_of_shut (u := ⟨m, .maximum⟩) hnow
              (h f rfl) _)
  | _ => rfl

/-- A drain takes all that is left. -/
theorem takeExemplars?_eq {now : Int} (hnow : now ≤ maxInt64)
    {taken : List Exemplar}
    (htaken : meter.takeExemplars? now = some (taken, next)) :
    taken = meter.instrument.rest.left ∧ next.instrument.rest.left = [] := by
  obtain ⟨id, created, instrument⟩ := meter
  cases instrument with
  | counter state =>
      cases htaken
      cases state with
      | none => exact ⟨rfl, rfl⟩
      | some c =>
          simp only [Counter.takeExemplars_eq]
          exact ⟨drainable_of_shut (h c rfl).exemplars hnow,
            exemplarsLeft_drain (h c rfl).exemplars hnow⟩
  | timer state =>
      cases htaken
      cases state with
      | none => exact ⟨rfl, rfl⟩
      | some d =>
          simp only [Distribution.takeExemplars_eq]
          exact ⟨drainable_of_shut (h d rfl).exemplars hnow,
            exemplarsLeft_drain (h d rfl).exemplars hnow⟩
  | summary scale state =>
      cases htaken
      cases state with
      | none => exact ⟨rfl, rfl⟩
      | some d =>
          simp only [Distribution.takeExemplars_eq]
          exact ⟨drainable_of_shut (h d rfl).exemplars hnow,
            exemplarsLeft_drain (h d rfl).exemplars hnow⟩
  | _ => cases htaken

theorem exemplarsAt_eq {now : Int} (hnow : now ≤ maxInt64) :
    meter.exemplarsAt now = meter.instrument.rest.left := by
  unfold exemplarsAt
  cases htaken : meter.takeExemplars? now with
  | some answer => exact (h.takeExemplars?_eq hnow htaken).1
  | none =>
      obtain ⟨id, created, instrument⟩ := meter
      cases instrument with
      | functionCounter state => cases state <;> rfl
      | functionTimer state => cases state <;> rfl
      | _ => first | rfl | cases htaken

/-- A closed meter stays closed, and what it rests in lasts. -/
theorem used {now : Int} (hnow : now ≤ maxInt64) {amounts : List Float}
    {closing : Prop} (hused : meter.Used now amounts closing next) :
    next.Closed ∧ meter.instrument.rest.Lasts next.instrument.rest := by
  obtain ⟨-, -, uses, hall, -, hundergoes⟩ := hused
  have htimes : ∀ u ∈ uses, u.moment.now ≤ maxInt64 := fun u hu =>
    (hall u hu).1 ▸ hnow
  exact ⟨Instrument.Windows.undergoes h
      (fun u hu => StepTracker.kept_shut (htimes u hu)) hundergoes,
    Instrument.Windows.lasts_undergoes h htimes hundergoes⟩

end Closed

end Meter

end WindowedMetrics
