/-
Meters that keep track of what they accept.  Uses that do not close a meter
add the accepted amounts that they bring to its log, and leave the log as it
is if they bring none.
-/
import WindowedMetrics.Proofs.Meter.Pace
import WindowedMetrics.Proofs.Meter.Uses

namespace WindowedMetrics

/-- An instrument whose windows follow a log of accepted amounts.  Kinds that
take no amounts have nothing to keep track of. -/
def Instrument.Tracks (i : Instrument) (length present : Int)
    (log : StepLog Float) : Prop :=
  match i with
  | .counter state => ∃ c, state = some c ∧ c.Tracks length present log
  | .timer state => ∃ d, state = some d ∧ d.Tracks length present log
  | .summary _ state => ∃ d, state = some d ∧ d.Tracks length present log
  | _ => True

/-- The instruments of a registry with delta values start without a log. -/
theorem Blueprint.tracks_instrument {b : Blueprint Source}
    {config : DistributionSettings} {c : RegistrySettings} {now : Int}
    {i : Instrument} (hdelta : c.temporality = .delta)
    (hinstrument : b.instrument config c now = .ok i) :
    i.Tracks (StepTracker.lengthMillis c.step)
      (now.tdiv (StepTracker.lengthMillis c.step)) [] := by
  cases b with
  | counter =>
      cases hinstrument
      exact ⟨_, rfl, Counter.tracks_create c now⟩
  | timer =>
      obtain ⟨d, hd, rfl⟩ := exists_of_map_eq_ok hinstrument
      exact ⟨d, rfl, Distribution.tracks_create hdelta hd⟩
  | summary scale =>
      obtain ⟨d, hd, rfl⟩ := exists_of_map_eq_ok hinstrument
      exact ⟨d, rfl, Distribution.tracks_create hdelta hd⟩
  | _ =>
      cases hinstrument
      exact trivial

/-! ### Uses -/

namespace TimedUse

/-- A use that brings nothing leaves a log as it is. -/
theorem append_of_amount?_eq_none {u : TimedUse} (hnone : u.amount? = none)
    (log : StepLog Float) (step : Int) :
    log ++ StepLog.ofStep step (amounts [u]) = log := by
  simp [amounts, hnone, StepLog.ofStep]

/-- What every use that does not close adds to a log, several uses at one time
add in their order. -/
theorem foldl_log {S : Type} {use : S → TimedUse → S}
    {P : S → StepLog Float → Prop} {now step : Int}
    (huse : ∀ s log (u : TimedUse), u.moment.now = now → u.use ≠ .close →
      P s log → P (use s u) (log ++ StepLog.ofStep step (amounts [u])))
    {uses : List TimedUse}
    (huses : ∀ u ∈ uses, u.moment.now = now ∧ u.use ≠ .close) {s : S}
    {log : StepLog Float} (h : P s log) :
    P (uses.foldl use s) (log ++ StepLog.ofStep step (amounts uses)) := by
  induction uses generalizing s log with
  | nil => simpa [amounts, StepLog.ofStep] using h
  | cons u rest ih =>
      obtain ⟨hnow, hopen⟩ := huses u List.mem_cons_self
      have hrest := ih (fun e he => huses e (List.mem_cons_of_mem u he))
        (huse s log u hnow hopen h)
      have hamounts : amounts (u :: rest) = amounts [u] ++ amounts rest :=
        amounts_append [u] rest
      rw [hamounts, StepLog.ofStep, List.map_append, ← List.append_assoc]
      exact hrest

end TimedUse

/-- A use that does not close a counter adds what it brings to the log. -/
theorem Counter.Tracks.use {c : Counter} {length : Int} {log : StepLog Float}
    {u : TimedUse} (h : c.Tracks length (u.moment.now.tdiv length) log)
    (hopen : u.use ≠ .close) :
    (c.use u).Tracks length (u.moment.now.tdiv length)
      (log ++ StepLog.ofStep (u.moment.now.tdiv length)
        (TimedUse.amounts [u])) := by
  obtain ⟨m, use⟩ := u
  cases use with
  | record amount =>
      have hincrement := h.increment amount
      rw [StepLog.ofAccepted, ← TimedUse.amounts_ofAmounts m [amount]]
        at hincrement
      exact hincrement
  | maximum =>
      rw [TimedUse.append_of_amount?_eq_none rfl]
      exact h
  | read temporality =>
      rw [TimedUse.append_of_amount?_eq_none rfl]
      exact h.value temporality
  | takeExemplars =>
      rw [TimedUse.append_of_amount?_eq_none rfl]
      exact h.takeExemplars
  | rollover =>
      rw [TimedUse.append_of_amount?_eq_none rfl]
      exact RollingWindow.Paced.rollover h
  | close => exact absurd rfl hopen

/-- A use that does not close a distribution adds what it brings to the
log. -/
theorem Distribution.Tracks.use {d : Distribution} {length : Int}
    {log : StepLog Float} {u : TimedUse}
    (h : d.Tracks length (u.moment.now.tdiv length) log)
    (hopen : u.use ≠ .close) :
    (d.use u).Tracks length (u.moment.now.tdiv length)
      (log ++ StepLog.ofStep (u.moment.now.tdiv length)
        (TimedUse.amounts [u])) := by
  obtain ⟨m, use⟩ := u
  cases use with
  | record amount =>
      have hrecord := h.record (m := m) amount
      rw [StepLog.ofAccepted, ← TimedUse.amounts_ofAmounts m [amount]]
        at hrecord
      exact hrecord
  | maximum =>
      rw [TimedUse.append_of_amount?_eq_none rfl]
      exact h.maximum
  | read temporality =>
      rw [TimedUse.append_of_amount?_eq_none rfl]
      exact h.snapshot temporality
  | takeExemplars =>
      rw [TimedUse.append_of_amount?_eq_none rfl]
      exact h.takeExemplars
  | rollover =>
      rw [TimedUse.append_of_amount?_eq_none rfl]
      exact h.rollover
  | close => exact absurd rfl hopen

namespace Meter

/-- A meter whose instrument follows a log of accepted amounts. -/
def Tracks (meter : Meter) (length present : Int) (log : StepLog Float) :
    Prop :=
  meter.instrument.Tracks length present log

namespace Tracks

variable {meter next : Meter} {length present now : Int}
  {log : StepLog Float} {amounts : List Float}

theorem mono (h : meter.Tracks length present log) {later : Int}
    (hle : present ≤ later) : meter.Tracks length later log := by
  obtain ⟨id, created, instrument⟩ := meter
  cases instrument with
  | counter state =>
      obtain ⟨c, rfl, hc⟩ := h
      exact ⟨c, rfl, RollingWindow.Paced.mono hc hle⟩
  | timer state =>
      obtain ⟨d, rfl, hd⟩ := h
      exact ⟨d, rfl, hd.mono hle⟩
  | summary scale state =>
      obtain ⟨d, rfl, hd⟩ := h
      exact ⟨d, rfl, hd.mono hle⟩
  | _ => exact trivial

/-- Uses that do not close a meter add what they bring to its log. -/
theorem used (h : meter.Tracks length present log)
    (hpresent : present ≤ now.tdiv length)
    (hused : meter.Used now amounts False next) :
    next.Tracks length (now.tdiv length)
      (log ++ StepLog.ofStep (now.tdiv length) amounts) := by
  have hlater := h.mono hpresent
  obtain ⟨id, created, instrument⟩ := meter
  obtain ⟨other, time, after⟩ := next
  obtain ⟨_, _, uses, huses, rfl, hundergoes⟩ := hused
  simp only at hundergoes
  have hdistribution : ∀ {d : Distribution},
      d.Tracks length (now.tdiv length) log →
      (d.useAll uses).Tracks length (now.tdiv length)
        (log ++ StepLog.ofStep (now.tdiv length)
          (TimedUse.amounts uses)) := by
    intro d hd
    refine TimedUse.foldl_log (P := fun d log =>
      Distribution.Tracks d length (now.tdiv length) log) ?_ huses hd
    rintro d log u rfl hopen hd
    exact hd.use hopen
  cases instrument with
  | counter state =>
      obtain ⟨c, rfl, hc⟩ := hlater
      cases hundergoes
      refine ⟨_, rfl, TimedUse.foldl_log (P := fun c log =>
        Counter.Tracks c length (now.tdiv length) log) ?_ huses hc⟩
      rintro c log u rfl hopen hc
      exact hc.use hopen
  | timer state =>
      obtain ⟨d, rfl, hd⟩ := hlater
      cases hundergoes
      exact ⟨_, rfl, hdistribution hd⟩
  | summary scale state =>
      obtain ⟨d, rfl, hd⟩ := hlater
      cases hundergoes
      exact ⟨_, rfl, hdistribution hd⟩
  | _ =>
      have hkind := hundergoes.kind_eq
      cases after <;> first | exact trivial | cases hkind

end Tracks

end Meter

end WindowedMetrics
