/-
Registrations that fail.  They change nothing but what limits on tag values
remember: a limit that learns the value of a meter that was never made counts
it like the values of meters.
-/
import WindowedMetrics.Proofs.Registry.Asking
import WindowedMetrics.Session.Perform

namespace WindowedMetrics

namespace Answer

/-- Whether the meter that is answered measures nothing. -/
def isIdle? : Answer → Option Bool
  | .meter view => view.bind MeterView.isIdle
  | _ => none

/-- Whether a registration failed. -/
def isFailed : Answer → Bool
  | .failed _ => true
  | _ => false

theorem exists_error_of_isFailed {a : Answer} (hfailed : a.isFailed = true) :
    ∃ error, a = .failed error := by
  cases a with
  | failed error => exact ⟨error, rfl⟩
  | _ => cases hfailed

end Answer

namespace Session

/-- An answer of failure comes with an error of the registration, and the
session takes over the registry alone. -/
theorem bindOutcome_of_failed {s : Session} {name : String}
    {done : Logged (Except RegistrationError MeterHandle × Registry)}
    {error : RegistrationError}
    (hfailed : (s.bindOutcome name done).value.1 = .failed error) :
    done.value.1 = .error error ∧
      (s.bindOutcome name done).value.2 =
        { s with registry := done.value.2 } := by
  unfold bindOutcome at hfailed ⊢
  cases houtcome : done.value.1 with
  | error cause =>
      simp only [houtcome] at hfailed
      cases hfailed
      exact ⟨rfl, rfl⟩
  | ok handle =>
      simp only [houtcome] at hfailed
      cases hfailed

/-- A registration by kind, of an application that has made its sources. -/
theorem perform_add (s : Session) (name : String) (id : Id)
    (parts : Blueprint SourceRequest) (config : DistributionSettings) :
    s.perform (.registry (.add name id parts config)) =
      { s with cells := (s.cells.resolve parts).2 }.bindOutcome name
        (s.registry.add (s.cells.resolve parts).1 id config s.clock.wall) :=
  rfl

/-- A registration by kind that fails leaves an application with the sources
that it made for it, and a registry whose limits on tag values may have learnt
from it.  If a meter is registered under the final identity, or no limit that
is asked meets a new value, it leaves no trace: whatever comes later answers
as if there had been no registration. -/
theorem run_of_failed_add (s : Session) (name : String) (id : Id)
    (parts : Blueprint SourceRequest) (config : DistributionSettings)
    (error : RegistrationError)
    (hfailed : (s.perform (.registry (.add name id parts config))).value.1 =
      .failed error) :
    let without : Session := { s with cells := (s.cells.resolve parts).2 }
    let after := (s.perform (.registry (.add name id parts config))).value.2
    let r := s.registry
    let final := r.finalId (s.cells.resolve parts).1 id
    let untraced := (r.get? final.key).isSome = true ∨
      ∀ f ∈ undecided r.filters final, f.learns final = false
    after = { without with
      registry := { r with filters := r.filtersAfter final } } ∧
    (r.filtersAfter final = r.filters ↔ untraced) ∧
    (untraced → ∀ commands, after.run commands = without.run commands) := by
  intro without after r final untraced
  rw [perform_add] at hfailed
  obtain ⟨herror, hsession⟩ := bindOutcome_of_failed hfailed
  have hafter : after = { without with
      registry := { r with filters := r.filtersAfter final } } := by
    simp only [after]
    rw [perform_add, hsession, (Registry.add_of_error herror).2]
  have hfilters : r.filtersAfter final = r.filters ↔ untraced :=
    Registry.filtersAfter_eq_self_iff r final
  refine ⟨hafter, hfilters, ?_⟩
  intro huntraced commands
  rw [hafter, hfilters.mpr huntraced]

/-- A summary that cannot be built has a value that the limit knows from
another meter; nothing is ever different for it. -/
theorem run_of_failed_add_known :
    let limit : Filter := .limitTagValues ⟨"sizes", "k", 1, []⟩
    let broken := { DistributionSettings.empty with
      percentiles := some [0.5], bufferLength := some 0 }
    let s := ((create .standard .standard none 0 fun _ _ => 0).run
      [.registry (.appendFilter limit), .registry (.add "a"
        (.named "sizes" [⟨"k", "1"⟩]) .counter .empty)]).2
    ∀ commands,
      (s.perform (.registry (.add "b" (.named "sizes.raw" [⟨"k", "1"⟩])
        (.summary 1.0) broken))).value.2.run commands = s.run commands := by
  intro limit broken s
  let raw := Id.named "sizes.raw" [⟨"k", "1"⟩]
  have hfails : (s.perform (.registry
      (.add "b" raw (.summary 1.0) broken))).value.1.isFailed = true := by
    decide +kernel
  have hknown : ∀ f ∈ undecided s.registry.filters
      (s.registry.finalId (.summary 1.0) raw),
      f.learns (s.registry.finalId (.summary 1.0) raw) = false := by
    decide +kernel
  -- What follows holds of any session with these facts.
  clear_value s
  obtain ⟨error, hfailed⟩ := Answer.exists_error_of_isFailed hfails
  exact (run_of_failed_add s "b" raw (.summary 1.0) broken error
    hfailed).2.2 (.inr hknown)

/-- A summary that cannot be built uses up the one value that a limit admits,
so that a later summary measures nothing. -/
theorem exists_failed_add_traced :
    ∃ (s : Session) (name : String) (id : Id)
      (parts : Blueprint SourceRequest) (config : DistributionSettings)
      (later : List Command),
      let failing : Command := .registry (.add name id parts config)
      (∃ error, (s.perform failing).value.1 = .failed error) ∧
        ((s.perform failing).value.2.run later).1 ≠
          ({ s with cells := (s.cells.resolve parts).2 }.run later).1 := by
  let limit : Filter := .limitTagValues ⟨"sizes", "k", 1, []⟩
  refine ⟨((create .standard .standard none 0 fun _ _ => 0).run
      [.registry (.appendFilter limit)]).2, "a",
    .named "sizes" [⟨"k", "1"⟩], .summary 1.0,
    { DistributionSettings.empty with
      percentiles := some [0.5], bufferLength := some 0 },
    [.registry (.add "b" (.named "sizes" [⟨"k", "2"⟩]) (.summary 1.0)
      .empty)], ?_, ?_⟩
  · exact Answer.exists_error_of_isFailed (by decide +kernel)
  · intro hsame
    have hidle := congrArg (List.map fun l => l.value.isIdle?) hsame
    revert hidle
    decide +kernel

end Session

end WindowedMetrics
