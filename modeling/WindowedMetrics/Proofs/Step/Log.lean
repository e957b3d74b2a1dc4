/-
Logs of values by steps, and the two cells in which every window of steps
keeps what can still be read of its log: one for the step in progress and one
for the step before.
-/
import WindowedMetrics.Step.Tracker

namespace WindowedMetrics

/-- Values with the steps that they belong to, in the order of their
recording. -/
abbrev StepLog (V : Type) := List (Int × V)

namespace StepLog

variable {V W C : Type}

/-- The values of one step, in order. -/
def valuesIn (log : StepLog V) (step : Int) : List V :=
  (log.filter fun e => decide (e.1 = step)).map Prod.snd

/-- Several values of one step. -/
def ofStep (step : Int) (values : List V) : StepLog V :=
  values.map fun value => (step, value)

theorem valuesIn_append (log later : StepLog V) (step : Int) :
    (log ++ later).valuesIn step =
      log.valuesIn step ++ later.valuesIn step := by
  simp [valuesIn]

theorem valuesIn_ofStep_self (step : Int) (values : List V) :
    (ofStep step values).valuesIn step = values := by
  simp [valuesIn, ofStep, List.filter_map, Function.comp_def]

theorem valuesIn_ofStep_of_ne {step other : Int} (hne : step ≠ other)
    (values : List V) : (ofStep step values).valuesIn other = [] := by
  simp [valuesIn, ofStep, hne]

/-- Nothing belongs to a step above all steps of the log. -/
theorem valuesIn_eq_nil (log : StepLog V) {step : Int}
    (hbelow : ∀ e ∈ log, e.1 < step) : log.valuesIn step = [] := by
  simp only [valuesIn, List.map_eq_nil_iff, List.filter_eq_nil_iff,
    decide_eq_true_eq]
  intro e he heq
  have := hbelow e he
  omega

theorem valuesIn_map (log : StepLog V) (f : V → W) (step : Int) :
    valuesIn (log.map fun e => (e.1, f e.2)) step =
      (log.valuesIn step).map f := by
  simp [valuesIn, List.filter_map, Function.comp_def]

/-- The values of the steps up to `step`, going back `length` of them. -/
theorem flatten_valuesIn_perm (log : StepLog V) {step : Int}
    (hle : ∀ e ∈ log, e.1 ≤ step) (length : Nat) :
    ((List.range length).map fun back =>
        log.valuesIn (step - (back : Nat))).flatten.Perm
      ((log.filter fun e => decide (step - e.1 < length)).map Prod.snd) := by
  induction length with
  | zero =>
      have hnone : (log.filter fun e =>
          decide (step - e.1 < (0 : Nat))) = [] := by
        apply List.filter_eq_nil_iff.mpr
        intro e he
        have := hle e he
        simp only [decide_eq_true_eq]
        omega
      rw [hnone]
      simp
  | succ length ih =>
      have hold : (log.filter fun e =>
          decide (step - e.1 < (length + 1 : Nat))).filter
            (fun e => decide (step - e.1 < length)) =
          log.filter fun e => decide (step - e.1 < length) := by
        rw [List.filter_filter]
        apply List.filter_congr
        intro e _
        simp only [← Bool.decide_and, decide_eq_decide]
        omega
      have hnew : (log.filter fun e =>
          decide (step - e.1 < (length + 1 : Nat))).filter
            (fun e => !decide (step - e.1 < length)) =
          log.filter fun e => decide (e.1 = step - length) := by
        rw [List.filter_filter]
        apply List.filter_congr
        intro e _
        simp only [← decide_not, ← Bool.decide_and, decide_eq_decide]
        omega
      have hsplit := (List.filter_append_perm
        (fun e : Int × V => decide (step - e.1 < length))
        (log.filter fun e => decide (step - e.1 < (length + 1 : Nat)))).map
          Prod.snd
      rw [hold, hnew, List.map_append] at hsplit
      rw [List.range_succ, List.map_append, List.flatten_append]
      refine List.Perm.trans ?_ hsplit
      apply ih.append
      simp [valuesIn]

/-- Two cells show a log up to `step`: nothing lies beyond, `current` holds
the values of `step` and `previous` those of the step before.  What a cell
makes of its values is the business of `contents`. -/
structure Shows (contents : List V → C) (log : StepLog V) (step : Int)
    (current previous : C) : Prop where
  le_step : ∀ e ∈ log, e.1 ≤ step
  current_eq : current = contents (log.valuesIn step)
  previous_eq : previous = contents (log.valuesIn (step - 1))

namespace Shows

variable {contents : List V → C} {log : StepLog V} {step : Int}
  {current previous : C}

theorem nil (contents : List V → C) (step : Int) :
    Shows contents ([] : StepLog V) step (contents []) (contents []) :=
  ⟨by simp, rfl, rfl⟩

/-- Values recorded in the step in progress reach the current cell alone. -/
theorem append (h : Shows contents log step current previous)
    (values : List V) :
    Shows contents (log ++ ofStep step values) step
      (contents (log.valuesIn step ++ values)) previous := by
  refine ⟨?_, ?_, ?_⟩
  · intro e he
    rcases List.mem_append.mp he with hold | hnew
    · exact h.le_step e hold
    · obtain ⟨value, _, rfl⟩ := List.mem_map.mp hnew
      exact Int.le_refl step
  · rw [valuesIn_append, valuesIn_ofStep_self]
  · rw [valuesIn_append, valuesIn_ofStep_of_ne (by omega), List.append_nil]
    exact h.previous_eq

/-- Entering a later step closes the current cell if the steps are adjacent;
if not, the step before the new one saw nothing. -/
theorem enter (h : Shows contents log step current previous) {entered : Int}
    (hlater : step < entered) :
    Shows contents log entered (contents [])
      (if entered = step + 1 then current else contents []) := by
  have hempty : ∀ later, step < later → log.valuesIn later = [] := by
    intro later hlt
    apply valuesIn_eq_nil
    intro e he
    exact Int.lt_of_le_of_lt (h.le_step e he) hlt
  refine ⟨?_, ?_, ?_⟩
  · intro e he
    exact Int.le_trans (h.le_step e he) (Int.le_of_lt hlater)
  · rw [hempty entered hlater]
  · by_cases hnext : entered = step + 1
    · rw [if_pos hnext, h.current_eq, hnext]
      congr 2
      omega
    · rw [if_neg hnext, hempty (entered - 1) (by omega)]

end Shows

end StepLog

end WindowedMetrics
