/-
Registries whose meters keep track of what they accept, one log for every
meter that was made.
-/
import WindowedMetrics.Proofs.Export.Delta
import WindowedMetrics.Proofs.Registry.Edits

namespace WindowedMetrics

/-- The step of a wall time under the settings of a registry. -/
def RegistrySettings.stepAt (c : RegistrySettings) (now : Int) : Int :=
  now.tdiv (StepTracker.lengthMillis c.step)

theorem RegistrySettings.stepAt_mono (c : RegistrySettings) {now later : Int}
    (hnow : 0 ≤ now) (hle : now ≤ later) : c.stepAt now ≤ c.stepAt later := by
  have hlength : 0 < StepTracker.lengthMillis c.step := by
    simp only [StepTracker.lengthMillis]
    omega
  rw [stepAt, stepAt, Int.tdiv_eq_ediv_of_nonneg hnow,
    Int.tdiv_eq_ediv_of_nonneg (Int.le_trans hnow hle)]
  exact Int.ediv_le_ediv hlength hle

/-- No time whose nanoseconds fit 64 bits is in the step of what is closed. -/
theorem RegistrySettings.stepAt_lt_closedStep (c : RegistrySettings)
    {now : Int} (hnow : 0 ≤ now) (hfits : now * 1000000 < UInt64.size) :
    c.stepAt now < StepTracker.closedStep := by
  have hle := Int.ediv_le_self (StepTracker.lengthMillis c.step) hnow
  rw [stepAt, Int.tdiv_eq_ediv_of_nonneg hnow]
  simp only [StepTracker.closedStep, maxInt64, UInt64.size] at *
  omega

/-- A meter that tracks a log in the steps of a registry, as of a wall
time. -/
abbrev Meter.TracksAt (meter : Meter) (c : RegistrySettings) (now : Int)
    (log : StepLog Float) : Prop :=
  meter.Tracks (StepTracker.lengthMillis c.step) (c.stepAt now) log

namespace Registry

/-- Every meter that was made tracks its own log, and no log is ahead of its
meter. -/
structure Tracks (r : Registry) (config : RegistrySettings) (now : Int)
    (logs : Nat → StepLog Float) : Prop where
  config_eq : r.config = config
  wellFormed : r.WellFormed
  meters : ∀ reference (meter : Meter),
    r.made[reference]? = some meter → meter.TracksAt config now (logs reference)
  fresh : ∀ reference, r.made.size ≤ reference → logs reference = []

theorem tracks_create (config : RegistrySettings) (now : Int) :
    (create config).Tracks config now fun _ => [] :=
  ⟨rfl, wellFormed_create config, by simp [create], fun _ _ => rfl⟩

end Registry

end WindowedMetrics
