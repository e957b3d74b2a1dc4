/-
The windows of a meter.  Each has a tracker of its own, which only advances to
the present step or closes.  What advancing and closing keep of a tracker,
uses keep of all windows of a meter; and closing a meter closes them all.
-/
import WindowedMetrics.Proofs.Exemplar.Draining
import WindowedMetrics.Proofs.Meter.Uses
import WindowedMetrics.Proofs.Step.Window

namespace WindowedMetrics

/-! ### Steps of wall times -/

/-- Counting steps toward zero does not go past the time. -/
theorem tdiv_le_max_zero {length : Int} (hlength : 0 < length) (now : Int) :
    now.tdiv length ≤ max now 0 := by
  by_cases hfirst : 0 ≤ now
  · exact Int.le_trans (Int.tdiv_le_self length hfirst) (Int.le_max_left _ _)
  · have hsize := Int.tdiv_nonneg (a := -now) (b := length) (by omega)
      (Int.le_of_lt hlength)
    rw [Int.neg_tdiv] at hsize
    omega

theorem tdiv_le_closedStep {length now : Int} (hlength : 0 < length)
    (hnow : now ≤ maxInt64) : now.tdiv length ≤ StepTracker.closedStep :=
  Int.le_trans (tdiv_le_max_zero hlength now)
    (Int.max_le.mpr ⟨hnow, by decide⟩)

/-- Only the last time of all may be in the step of closed windows. -/
theorem tdiv_lt_closedStep {length now : Int} (hlength : 0 < length)
    (hnow : now < maxInt64) : now.tdiv length < StepTracker.closedStep :=
  Int.lt_of_le_of_lt (tdiv_le_max_zero hlength now)
    (Int.max_lt.mpr ⟨hnow, by decide⟩)

/-! ### What moves a tracker -/

namespace StepTracker

/-- A property that trackers keep whatever happens at a time. -/
structure Kept (P : StepTracker → Prop) (now : Int) : Prop where
  advance : ∀ b, P b → P (b.advance now)
  close : ∀ b, P b → P b.close

/-- A step takes time. -/
def Timed (b : StepTracker) : Prop := 0 < b.stepMillis

/-- No step begins after the one in progress, which was closed. -/
def Shut (b : StepTracker) : Prop := b.Timed ∧ b.isClosed = true

theorem timed_starting (step : Duration) (now : Int) :
    (starting step now).Timed := by
  simp only [Timed, starting, lengthMillis]
  omega

theorem kept_timed (now : Int) : Kept Timed now := by
  refine ⟨fun b h => ?_, fun b h => h⟩
  rw [Timed, stepMillis_advance]
  exact h

/-- No wall time reaches past the step of a closed tracker. -/
theorem Shut.due?_eq_none {b : StepTracker} (h : b.Shut) {now : Int}
    (hnow : now ≤ maxInt64) : b.due? now = none := by
  have hcurrent : b.current = closedStep := of_decide_eq_true h.2
  have hstep : b.stepAt now ≤ closedStep := tdiv_le_closedStep h.1 hnow
  rw [due?, if_neg (by omega)]

theorem kept_shut {now : Int} (hnow : now ≤ maxInt64) : Kept Shut now := by
  refine ⟨fun b h => ?_, fun b h => ⟨h.1, by simp [isClosed, close]⟩⟩
  rw [advance, h.due?_eq_none hnow]
  exact h

end StepTracker

theorem forall_mem_map {A B : Type} {f : A → B} {P : A → Prop}
    {Q : B → Prop} (hf : ∀ a, P a → Q (f a)) {state : Option A}
    (h : ∀ a ∈ state, P a) : ∀ b ∈ state.map f, Q b := by
  intro b hb
  cases state with
  | none => cases hb
  | some a =>
      cases hb
      exact hf a (h a rfl)

/-! ### Single windows -/

section Windows

variable {P : StepTracker → Prop} {now : Int} (hP : StepTracker.Kept P now)

include hP

namespace RollingWindow

variable {V : Type} {acc : Accumulator V} {w : RollingWindow acc}

theorem kept_rolloverWith (h : P w.tracker) (last : V → V) :
    P (w.rolloverWith now last).tracker := by
  rw [tracker_rolloverWith]
  exact hP.advance _ h

theorem kept_close (h : P w.tracker) : P w.close.tracker := by
  unfold close
  split
  · exact h
  · exact hP.close _ h

end RollingWindow

namespace SteppedHistogram

variable {h : SteppedHistogram}

theorem kept_rollover (hh : P h.tracker) : P (h.rollover now).tracker := by
  unfold rollover
  split
  · exact hh
  · exact hP.advance _ hh

theorem kept_close (hh : P h.tracker) : P h.close.tracker := by
  unfold close
  split
  · exact hh
  · exact hP.close _ hh

end SteppedHistogram

namespace Reservoir

variable {r : Reservoir}

theorem kept_rollover (h : P r.tracker) : P (r.rollover now).tracker := by
  unfold rollover
  split
  · exact h
  · exact hP.advance _ h

theorem kept_offer (h : P r.tracker) (context : Option TraceContext)
    (draw : Nat → Nat) (value : Float) :
    P (r.offer now context draw value).tracker := by
  unfold offer
  split
  · exact h
  · exact kept_rollover hP h

theorem kept_drain (h : P r.tracker) : P (r.drain now).2.tracker :=
  kept_rollover hP h

theorem kept_close (h : P r.tracker) : P r.close.tracker := by
  unfold close
  split
  · exact h
  · exact hP.close _ h

end Reservoir

end Windows

/-! ### The windows of a meter -/

/-- Every window of a counter has a property. -/
structure Counter.Windows (P : StepTracker → Prop) (c : Counter) : Prop where
  step : P c.step.tracker
  exemplars : ∀ r ∈ c.exemplars, P r.tracker

/-- So has every window of a distribution, whose histogram goes by steps. -/
structure Distribution.Windows (P : StepTracker → Prop) (d : Distribution) :
    Prop where
  step : P d.step.tracker
  max : P d.max.tracker
  histogram : ∀ h ∈ d.histogram, ∃ steps, h = .stepped steps ∧
    P steps.tracker
  exemplars : ∀ r ∈ d.exemplars, P r.tracker

/-- So has every window of an instrument; some have none. -/
def Instrument.Windows (P : StepTracker → Prop) (i : Instrument) : Prop :=
  match i with
  | .counter state => ∀ c ∈ state, c.Windows P
  | .timer state => ∀ d ∈ state, d.Windows P
  | .summary _ state => ∀ d ∈ state, d.Windows P
  | .functionCounter state => ∀ f ∈ state, P f.step.tracker
  | .functionTimer state => ∀ f ∈ state, P f.step.tracker
  | _ => True

section Uses

variable {P : StepTracker → Prop} {u : TimedUse}
  (hP : StepTracker.Kept P u.moment.now)

/-- What every reservoir keeps, an optional one does. -/
theorem Reservoir.kept_map {f : Reservoir → Reservoir}
    (hf : ∀ r : Reservoir, P r.tracker → P (f r).tracker)
    {state : Option Reservoir} (h : ∀ r ∈ state, P r.tracker) :
    ∀ r ∈ state.map f, P r.tracker :=
  forall_mem_map (Q := fun r : Reservoir => P r.tracker) hf h

include hP

theorem Counter.Windows.use {c : Counter} (h : c.Windows P) :
    (c.use u).Windows P := by
  obtain ⟨m, use⟩ := u
  cases use with
  | record amount =>
      simp only [Counter.use, increment]
      split
      · exact ⟨RollingWindow.kept_rolloverWith hP h.step id,
          Reservoir.kept_map (fun r hr => Reservoir.kept_offer hP hr _ _ _)
            h.exemplars⟩
      · exact h
  | maximum => exact h
  | read temporality =>
      cases temporality with
      | cumulative => exact h
      | delta =>
          exact ⟨RollingWindow.kept_rolloverWith hP h.step id, h.exemplars⟩
  | takeExemplars =>
      simp only [Counter.use, takeExemplars_eq]
      exact ⟨h.step, Reservoir.kept_map
        (fun r hr => Reservoir.kept_drain hP hr) h.exemplars⟩
  | rollover =>
      exact ⟨RollingWindow.kept_rolloverWith hP h.step id, h.exemplars⟩
  | close =>
      exact ⟨RollingWindow.kept_close hP h.step, Reservoir.kept_map
        (fun r hr => Reservoir.kept_close hP hr) h.exemplars⟩

namespace Distribution.Windows

variable {d : Distribution} (h : d.Windows P)

include h

theorem maximum : (d.maximum u.moment.now).2.Windows P :=
  ⟨h.step, RollingWindow.kept_rolloverWith hP
    (RollingWindow.kept_rolloverWith hP h.max id) id, h.histogram,
    h.exemplars⟩

theorem snapshot (temporality : Temporality) :
    (d.snapshot temporality u.moment.now).2.Windows P := by
  have hafter : (d.statistics temporality u.moment.now).2.Windows P := by
    cases temporality with
    | cumulative => exact h.maximum hP
    | delta => exact ⟨RollingWindow.kept_rolloverWith hP h.step id,
        RollingWindow.kept_rolloverWith hP h.max id, h.histogram,
        h.exemplars⟩
  generalize hstatistics : d.statistics temporality u.moment.now = read
    at hafter
  obtain ⟨⟨count, total, max⟩, after⟩ := read
  rw [snapshot_of_statistics hstatistics]
  cases hhistogram : after.histogram with
  | none => exact hafter
  | some histogram =>
      obtain ⟨steps, rfl, hsteps⟩ := hafter.histogram histogram hhistogram
      refine ⟨hafter.step, hafter.max, ?_, hafter.exemplars⟩
      rintro _ ⟨⟩
      exact ⟨_, rfl, SteppedHistogram.kept_rollover hP hsteps⟩

theorem use : (d.use u).Windows P := by
  obtain ⟨m, use⟩ := u
  cases use with
  | record amount =>
      simp only [Distribution.use, record]
      split
      · refine ⟨RollingWindow.kept_rolloverWith hP h.step id,
          RollingWindow.kept_rolloverWith hP h.max id,
          forall_mem_map ?_ h.histogram, Reservoir.kept_map
            (fun r hr => Reservoir.kept_offer hP hr _ _ _) h.exemplars⟩
        rintro _ ⟨steps, rfl, hsteps⟩
        exact ⟨_, rfl, SteppedHistogram.kept_rollover hP hsteps⟩
      · exact h
  | maximum => exact h.maximum hP
  | read temporality => exact h.snapshot hP temporality
  | takeExemplars =>
      simp only [Distribution.use, takeExemplars_eq]
      exact ⟨h.step, h.max, h.histogram, Reservoir.kept_map
        (fun r hr => Reservoir.kept_drain hP hr) h.exemplars⟩
  | rollover =>
      exact ⟨RollingWindow.kept_rolloverWith hP h.step id,
        RollingWindow.kept_rolloverWith hP h.max id, h.histogram,
        h.exemplars⟩
  | close =>
      refine ⟨RollingWindow.kept_close hP h.step,
        RollingWindow.kept_close hP h.max, forall_mem_map ?_ h.histogram,
        Reservoir.kept_map (fun r hr => Reservoir.kept_close hP hr)
          h.exemplars⟩
      rintro _ ⟨steps, rfl, hsteps⟩
      exact ⟨_, rfl, SteppedHistogram.kept_close hP hsteps⟩

end Distribution.Windows

namespace FunctionCounter

variable {f : FunctionCounter}

theorem kept_pollReading (h : P f.step.tracker) (reading : Option Float) :
    P (f.pollReading u.moment.now reading).2.step.tracker := by
  unfold pollReading
  split <;> exact RollingWindow.kept_rolloverWith hP h _

/-- What is closed in the end is the window after the last reading. -/
theorem step_closeReading (h : P f.step.tracker) (reading : Option Float) :
    ∃ w : RollingWindow Accumulator.doubleSum, P w.tracker ∧
      (f.closeReading u.moment.now reading).step = w.close := by
  have hpolled := kept_pollReading hP h reading
  cases reading with
  | none => exact ⟨_, hpolled, rfl⟩
  | some reading =>
      let after := (f.pollReading u.moment.now (some reading)).2
      exact ⟨after.step.record _ (increase after.baseline reading),
        RollingWindow.kept_rolloverWith hP hpolled id, rfl⟩

theorem kept_use (h : P f.step.tracker) : P (f.use u).step.tracker := by
  obtain ⟨m, use⟩ := u
  cases use with
  | read temporality =>
      cases temporality with
      | cumulative => exact h
      | delta => exact kept_pollReading hP h _
  | rollover => exact kept_pollReading hP h _
  | close =>
      obtain ⟨w, hw, hstep⟩ := step_closeReading hP h _
      exact hstep ▸ RollingWindow.kept_close hP hw
  | _ => exact h

end FunctionCounter

namespace FunctionTimer

variable {f : FunctionTimer}

theorem kept_pollReading (h : P f.step.tracker)
    (reading : Option (Float × Float)) :
    P (f.pollReading u.moment.now reading).2.step.tracker := by
  unfold pollReading
  split <;> exact RollingWindow.kept_rolloverWith hP h _

/-- What is closed in the end is the window after the last reading. -/
theorem step_closeReading (h : P f.step.tracker)
    (reading : Option (Float × Float)) :
    ∃ w : RollingWindow twoSums, P w.tracker ∧
      (f.closeReading u.moment.now reading).step = w.close := by
  have hpolled := kept_pollReading hP h reading
  cases reading with
  | none => exact ⟨_, hpolled, rfl⟩
  | some reading =>
      let after := (f.pollReading u.moment.now (some reading)).2
      exact ⟨after.step.record _ (after.increases reading),
        RollingWindow.kept_rolloverWith hP hpolled id, rfl⟩

theorem kept_use (h : P f.step.tracker) : P (f.use u).step.tracker := by
  obtain ⟨m, use⟩ := u
  cases use with
  | read temporality =>
      cases temporality with
      | cumulative => exact h
      | delta => exact kept_pollReading hP h _
  | rollover => exact kept_pollReading hP h _
  | close =>
      obtain ⟨w, hw, hstep⟩ := step_closeReading hP h _
      exact hstep ▸ RollingWindow.kept_close hP hw
  | _ => exact h

end FunctionTimer

end Uses

/-- What a use keeps, several uses keep of a state that may be missing. -/
theorem forall_mem_map_foldl {S : Type} {use : S → TimedUse → S}
    {Q : S → Prop} {uses : List TimedUse}
    (hQ : ∀ u ∈ uses, ∀ s, Q s → Q (use s u)) {state : Option S}
    (h : ∀ s ∈ state, Q s) : ∀ s ∈ state.map (uses.foldl use), Q s := by
  refine forall_mem_map (fun s hs => ?_) h
  exact List.foldlRecOn uses use hs fun s hs u hu => hQ u hu s hs

namespace Instrument.Windows

variable {P : StepTracker → Prop} {i next : Instrument}

/-- Uses keep the windows of an instrument. -/
theorem undergoes {uses : List TimedUse} (h : i.Windows P)
    (hP : ∀ u ∈ uses, StepTracker.Kept P u.moment.now)
    (hnext : i.Undergoes uses next) : next.Windows P := by
  have hkind := hnext.kind_eq
  cases i with
  | counter state =>
      obtain rfl := hnext
      exact forall_mem_map_foldl (fun u hu _ hc => hc.use (hP u hu)) h
  | timer state =>
      obtain rfl := hnext
      exact forall_mem_map_foldl (fun u hu _ hd => hd.use (hP u hu)) h
  | summary scale state =>
      obtain rfl := hnext
      exact forall_mem_map_foldl (fun u hu _ hd => hd.use (hP u hu)) h
  | functionCounter state =>
      obtain rfl := hnext
      exact forall_mem_map_foldl
        (Q := fun f : FunctionCounter => P f.step.tracker)
        (fun u hu _ hf => FunctionCounter.kept_use (hP u hu) hf) h
  | functionTimer state =>
      obtain rfl := hnext
      exact forall_mem_map_foldl
        (Q := fun f : FunctionTimer => P f.step.tracker)
        (fun u hu _ hf => FunctionTimer.kept_use (hP u hu) hf) h
  | _ => cases next <;> first | exact trivial | cases hkind

end Instrument.Windows

/-! ### New meters -/

/-- Under delta temporality histograms go by steps. -/
theorem Distribution.windows_create {c : RegistrySettings}
    (hdelta : c.temporality = .delta) {own : DistributionSettings}
    {now : Int} {d : Distribution} (hcreate : create c own now = .ok d) :
    d.Windows StepTracker.Timed := by
  obtain ⟨histogram, hhistogram, rfl⟩ := exists_of_map_eq_ok hcreate
  have htimed := StepTracker.timed_starting c.step now
  refine ⟨htimed, htimed, ?_, ?_⟩
  · intro h hh
    simp only [RegistrySettings.histogram, RegistrySettings.retention, hdelta,
      Histogram.create] at hhistogram
    split at hhistogram
    · cases hhistogram
    · unfold Histogram.createUnchecked at hhistogram
      split at hhistogram
      · cases hhistogram
        cases hh
      · cases hhistogram
        cases hh
        exact ⟨_, rfl, htimed⟩
  · intro r hr
    simp only [RegistrySettings.reservoir?] at hr
    split at hr
    · cases hr
      exact htimed
    · cases hr

theorem Blueprint.windows_instrument {b : Blueprint Source}
    {own : DistributionSettings} {c : RegistrySettings}
    (hdelta : c.temporality = .delta) {now : Int} {i : Instrument}
    (hinstrument : b.instrument own c now = .ok i) :
    i.Windows StepTracker.Timed := by
  have htimed := StepTracker.timed_starting c.step now
  cases b with
  | counter =>
      cases hinstrument
      rintro _ ⟨⟩
      refine ⟨htimed, fun r hr => ?_⟩
      simp only [Counter.create, RegistrySettings.reservoir?] at hr
      split at hr
      · cases hr
        exact htimed
      · cases hr
  | timer =>
      obtain ⟨d, hd, rfl⟩ := exists_of_map_eq_ok hinstrument
      rintro _ ⟨⟩
      exact Distribution.windows_create hdelta hd
  | summary scale =>
      obtain ⟨d, hd, rfl⟩ := exists_of_map_eq_ok hinstrument
      rintro _ ⟨⟩
      exact Distribution.windows_create hdelta hd
  | functionCounter source =>
      cases hinstrument
      rintro _ ⟨⟩
      exact htimed
  | functionTimer count total unit =>
      cases hinstrument
      rintro _ ⟨⟩
      exact htimed
  | _ =>
      cases hinstrument
      trivial

/-! ### Closing -/

namespace StepTracker

/-- Closing what is closed already changes nothing. -/
theorem Timed.shut_close {b : StepTracker} (h : b.Timed) :
    Shut (if b.isClosed then b else b.close) := by
  cases hclosed : b.isClosed with
  | true => exact ⟨h, hclosed⟩
  | false => exact ⟨h, by simp [isClosed, close]⟩

end StepTracker

theorem RollingWindow.shut_close {V : Type} {acc : Accumulator V}
    {w : RollingWindow acc} (h : w.tracker.Timed) : w.close.tracker.Shut := by
  have hshut := h.shut_close
  unfold close
  split <;> simp_all

theorem SteppedHistogram.shut_close {h : SteppedHistogram}
    (hh : h.tracker.Timed) : h.close.tracker.Shut := by
  have hshut := hh.shut_close
  unfold close
  split <;> simp_all

theorem Reservoir.shut_close {r : Reservoir} (h : r.tracker.Timed) :
    r.close.tracker.Shut := by
  have hshut := h.shut_close
  unfold close
  split <;> simp_all

theorem Distribution.Windows.close {d : Distribution}
    (h : d.Windows StepTracker.Timed) :
    d.close.Windows StepTracker.Shut := by
  refine ⟨RollingWindow.shut_close h.step, RollingWindow.shut_close h.max,
    forall_mem_map ?_ h.histogram,
    forall_mem_map (Q := fun r : Reservoir => r.tracker.Shut)
      (fun _ hr => Reservoir.shut_close hr) h.exemplars⟩
  rintro _ ⟨steps, rfl, hsteps⟩
  exact ⟨_, rfl, SteppedHistogram.shut_close hsteps⟩

theorem Counter.Windows.close {c : Counter}
    (h : c.Windows StepTracker.Timed) :
    c.close.Windows StepTracker.Shut :=
  ⟨RollingWindow.shut_close h.step,
    forall_mem_map (Q := fun r : Reservoir => r.tracker.Shut)
      (fun _ hr => Reservoir.shut_close hr) h.exemplars⟩

/-- Closing an instrument closes all its windows. -/
theorem Instrument.Windows.close {i : Instrument}
    (h : i.Windows StepTracker.Timed) (m : Moment) :
    (i.close m).Windows StepTracker.Shut := by
  cases i with
  | counter state => exact forall_mem_map (fun _ => Counter.Windows.close) h
  | timer state => exact forall_mem_map (fun _ => Distribution.Windows.close) h
  | summary scale state =>
      exact forall_mem_map (fun _ => Distribution.Windows.close) h
  | functionCounter state =>
      refine forall_mem_map
        (P := fun f : FunctionCounter => f.step.tracker.Timed)
        (Q := fun f : FunctionCounter => f.step.tracker.Shut)
        (fun f hf => ?_) h
      obtain ⟨w, hw, hstep⟩ := FunctionCounter.step_closeReading
        (u := ⟨m, .close⟩) (StepTracker.kept_timed m.now) hf
        (f.source.finite? m.readings)
      exact hstep ▸ RollingWindow.shut_close hw
  | functionTimer state =>
      refine forall_mem_map
        (P := fun f : FunctionTimer => f.step.tracker.Timed)
        (Q := fun f : FunctionTimer => f.step.tracker.Shut)
        (fun f hf => ?_) h
      obtain ⟨w, hw, hstep⟩ := FunctionTimer.step_closeReading
        (u := ⟨m, .close⟩) (StepTracker.kept_timed m.now) hf
        (f.readings? m.readings)
      exact hstep ▸ RollingWindow.shut_close hw
  | _ => trivial

end WindowedMetrics
