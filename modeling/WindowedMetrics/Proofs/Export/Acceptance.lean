/-
How a registration of a timer, a summary or a long task timer ends in a
registry with settings that were read from properties.  The reader checks
what was supplied; the registration checks it again after the step took the
place of an open expiry and the kind's range that of an open one.
-/
import WindowedMetrics.Proofs.Export.Supplied
import WindowedMetrics.Proofs.Registry.Checking

namespace WindowedMetrics

/-! ### What is read is in range -/

theorem readDistribution_of_read {start : String} {lookup : Lookup}
    {c : ExportSettings} (hread : ExportSettings.read start lookup = .ok c) :
    readDistribution lookup start = .ok c.distribution := by
  simp only [ExportSettings.read, bind_eq_ok_iff] at hread
  obtain ⟨_, _, _, _, _, _, distribution, hdistribution, _, _, _, _, hc⟩ :=
    hread
  cases hc
  exact hdistribution

open DistributionSettings in
theorem inRange_of_readDistribution {start : String} {lookup : Lookup}
    {d : DistributionSettings} (hread : readDistribution lookup start = .ok d) :
    d.InRange := by
  obtain ⟨hfrom, hfit⟩ := readDistribution_eq_ok_iff.mp hread
  refine ⟨hfrom.slots_pos, ?_, ?_, ?_, ?_⟩
  · unfold digits
    cases hdigits : d.precision with
    | none => exact Nat.le_of_ble_eq_true rfl
    | some n =>
        obtain ⟨text, hn⟩ := hfrom.precision.exists_read hdigits
        exact (readPrecision_eq_ok_iff.mp hn).2
  · unfold minimum
    cases hmin : d.min with
    | none => decide +kernel
    | some low =>
        obtain ⟨text, hlow⟩ := hfrom.min.exists_read hmin
        exact (readNumber_eq_ok_iff.mp hlow).2
  · unfold maximum
    cases hmax : d.max with
    | none => decide +kernel
    | some high =>
        obtain ⟨text, hhigh⟩ := hfrom.max.exists_read hmax
        exact (readNumber_eq_ok_iff.mp hhigh).2
  · simpa [isFraction] using hfit.percentiles

/-! ### Meters under settings that were read -/

/-- The range that a kind's registration checks where none is configured; a
long task timer is checked before it gets its own. -/
def Blueprint.checkedRange (b : Blueprint Source) : DistributionSettings :=
  match b with
  | longTaskTimer => .empty
  | other => other.defaultRange

theorem Blueprint.checkedRange_cases (b : Blueprint Source) :
    b.checkedRange = .empty ∨
      b.checkedRange = .ofRange 1000000.0 30000000000.0 := by
  cases b with
  | timer => exact .inr rfl
  | _ => exact .inl rfl

namespace ExportSettings

/-- The settings that a registry completes those of its meters from. -/
def completed (c : ExportSettings) : DistributionSettings :=
  { c.distribution with
    expiry := some (c.distribution.expiry.getD c.step) }

/-- The settings that a meter without any of its own is checked with. -/
def resolved (c : ExportSettings) (b : Blueprint Source) :
    DistributionSettings :=
  { c.completed with
    min := c.distribution.min.or b.checkedRange.min
    max := c.distribution.max.or b.checkedRange.max }

/-- How a registration under accepted settings ends: the expiry has to leave
a millisecond for each buffer, the range may not be upside down, and the turn
of a ring of percentiles may not vanish in 64 bits. -/
def verdict (c : ExportSettings) (b : Blueprint Source) :
    Except DistributionError Unit :=
  let d := c.resolved b
  if d.lifetime.millis < d.slots then
    .error (.emptyRotationInterval d.lifetime d.slots)
  else if d.maximum < d.minimum then
    .error (.invertedRange d.minimum d.maximum)
  else if b.kind ≠ .longTaskTimer ∧ c.temporality = .cumulative ∧
      d.publishesPercentiles ∧
      wrapInt64 (d.lifetime.millis / d.slots : Nat) = 0 then
    .error (.emptyRotationInterval d.lifetime d.slots)
  else .ok ()

theorem merge_checkedRange (c : ExportSettings) (b : Blueprint Source) :
    c.completed.merge b.checkedRange = c.resolved b := by
  obtain hrange | hrange := b.checkedRange_cases <;>
    simp [DistributionSettings.merge, resolved, completed, hrange,
      DistributionSettings.empty, DistributionSettings.ofRange]

/-- What takes the place of an open setting is in range as well. -/
theorem inRange_resolved {c : ExportSettings} (h : c.distribution.InRange)
    (b : Blueprint Source) : (c.resolved b).InRange := by
  have hcompleted : c.completed.InRange :=
    h.congr rfl rfl rfl h.min_not_nan h.max_not_nan
  have hlow : Float.isNaN 1000000.0 = false := by decide +kernel
  have hhigh : Float.isNaN 30000000000.0 = false := by decide +kernel
  rw [← merge_checkedRange]
  obtain hrange | hrange := b.checkedRange_cases
  · rw [hrange, DistributionSettings.merge_empty]
    exact hcompleted
  · rw [hrange]
    exact hcompleted.merge_ofRange hlow hhigh

/-- The verdict is the one on the settings that a meter without any of its own
gets from the registry. -/
theorem verdict_eq {c : ExportSettings} (h : c.distribution.InRange)
    (b : Blueprint Source) (sampled : Bool) :
    c.verdict b = b.verdict (c.forRegistry sampled) c.completed := by
  have hverdict : c.verdict b = (do
      (c.resolved b).check
      if b.kind = .longTaskTimer then .ok ()
      else (c.resolved b).ringVerdict c.temporality) := by
    rw [(inRange_resolved h b).check_eq]
    simp only [verdict, DistributionSettings.ringVerdict]
    split_ifs <;> simp_all [bind, Except.bind]
  rw [hverdict, ← merge_checkedRange]
  cases b with
  | longTaskTimer =>
      rw [Blueprint.checkedRange, DistributionSettings.merge_empty]
      simp only [Blueprint.verdict, Blueprint.kind, ↓reduceIte]
      cases c.completed.check <;> rfl
  | _ => rfl

/-- Where the expiry and both ends of the range are supplied nothing is left
to fill in, and what was accepted once is accepted again. -/
theorem verdict_of_supplied {start : String} {lookup : Lookup}
    {c : ExportSettings} (hread : ExportSettings.read start lookup = .ok c)
    (b : Blueprint Source) {expiry : Duration} {low high : Float}
    (hexpiry : c.distribution.expiry = some expiry)
    (hlow : c.distribution.min = some low)
    (hhigh : c.distribution.max = some high)
    (hturn : expiry.millis < UInt64.size) : c.verdict b = .ok () := by
  have hdistribution := readDistribution_of_read hread
  have hslots := (inRange_of_readDistribution hdistribution).slots_pos
  obtain ⟨-, hfit⟩ := readDistribution_eq_ok_iff.mp hdistribution
  have hexpired := hfit.expiry expiry hexpiry
  have hordered := hfit.range low hlow high hhigh
  have hlifetime : (c.resolved b).lifetime = expiry := by
    simp [resolved, completed, DistributionSettings.lifetime, hexpiry]
  have hminimum : (c.resolved b).minimum = low := by
    simp [resolved, completed, DistributionSettings.minimum, hlow]
  have hmaximum : (c.resolved b).maximum = high := by
    simp [resolved, completed, DistributionSettings.maximum, hhigh]
  have hlength : (c.resolved b).slots = c.distribution.slots := rfl
  have hquotient : 0 < expiry.millis / c.distribution.slots :=
    Nat.div_pos hexpired hslots
  have hquotient_le := Nat.div_le_self expiry.millis c.distribution.slots
  have hring : wrapInt64 (expiry.millis / c.distribution.slots : Nat) ≠ 0 := by
    intro hwrap
    have hdvd := Int.dvd_of_bmod_eq_zero hwrap
    have := Int.le_of_dvd (by omega) hdvd
    omega
  simp only [verdict, hlifetime, hminimum, hmaximum, hlength]
  rw [if_neg (Nat.not_lt.mpr hexpired), if_neg hordered,
    if_neg fun h => hring h.2.2.2]

end ExportSettings

namespace Registry

variable {r : Registry}

/-- Without filters and settings of its own, a meter gets those of the
registry, and the step where the expiry is open. -/
theorem resolveConfig_of_unfiltered {c : ExportSettings} {sampled : Bool}
    (hconfig : r.config = c.forRegistry sampled) (hfilters : r.filters = [])
    {kind : MeterKind} (hkind : kind.hasDistribution = true) (id : Id) :
    r.resolveConfig kind id .empty = c.completed := by
  have hexpiry (expiry : Option Duration) :
      expiry.or (some c.step) = some (expiry.getD c.step) := by
    cases expiry <;> rfl
  simp [resolveConfig, hkind, hfilters, hconfig, adjustByAll,
    DistributionSettings.merge, DistributionSettings.empty,
    ExportSettings.forRegistry, RegistrySettings.withCells,
    ExportSettings.completed, hexpiry]

/-- A timer, a summary or a long task timer without settings of its own is
registered under accepted settings exactly if these still hold once the step
is the expiry and the kind's range the expected one; and else its
registration fails with what is wrong with them. -/
theorem outcome_add_of_read {start : String} {lookup : Lookup}
    {c : ExportSettings} (hread : ExportSettings.read start lookup = .ok c)
    {sampled : Bool} (hconfig : r.config = c.forRegistry sampled)
    (hopen : r.closed = false) (hfilters : r.filters = [])
    {b : Blueprint Source} (hkind : b.kind.hasDistribution = true) {id : Id}
    (hnew : r.find? id.key = none) (now : Int) :
    (r.add b id .empty now).value.1 =
      match c.verdict b with
      | .ok () => .ok (.made r.made.size)
      | .error cause => .error (.distribution (id.withKind b.kind) cause) := by
  have hrange := inRange_of_readDistribution (readDistribution_of_read hread)
  have hfinal : r.finalId b id = id.withKind b.kind := by
    rw [finalId, hfilters]
    rfl
  have hget : r.get? (r.finalId b id).key = none := by
    rw [hfinal, get?, show r.find? (id.withKind b.kind).key = none from hnew]
    rfl
  have hadmitted : firstVerdict? r.filters (r.finalId b id) ≠ some .deny := by
    rw [hfilters]
    rintro ⟨⟩
  rw [outcome_add hkind hopen hget hadmitted,
    resolveConfig_of_unfiltered hconfig hfilters hkind, hconfig,
    ← c.verdict_eq hrange b sampled, hfinal]
  cases c.verdict b <;> rfl

/-- An expiry of nine milliseconds is long enough for three buffers, whatever
the step. -/
theorem outcome_add_of_supplied_expiry :
    let lookup : Lookup := fun key =>
      if key = "otlp.step" then some "2ms"
      else if key = "otlp.histogramExpiry" then some "9ms" else none
    let c : ExportSettings :=
      { ExportSettings.standard with
        step := .ofMillis 2
        distribution :=
          { DistributionSettings.empty with expiry := some (.ofMillis 9) } }
    ExportSettings.read "otlp" lookup = .ok c ∧
      ((create (c.forRegistry false)).add .timer (.named "rpc" []) .empty
        0).value.1 = .ok (.made 0) := by
  intro lookup c
  have hread : ExportSettings.read "otlp" lookup = .ok c := by
    with_unfolding_all rfl
  have hverdict : c.verdict .timer = .ok () := by
    simp only [ExportSettings.verdict]
    rw [if_neg (by decide +kernel), if_neg (by decide +kernel),
      if_neg (by decide +kernel)]
  have hnew : (create (c.forRegistry false)).find? (Id.named "rpc" []).key =
      none := rfl
  have htimer : (Blueprint.timer : Blueprint Source).kind.hasDistribution =
      true := rfl
  have houtcome := outcome_add_of_read hread rfl rfl rfl htimer hnew 0
  rw [hverdict] at houtcome
  exact ⟨hread, houtcome⟩

/-- A step of two milliseconds is accepted, and takes the place of the expiry
that no timer can then be built with. -/
theorem exists_read_and_refused :
    ∃ (lookup : Lookup) (c : ExportSettings),
      ExportSettings.read "otlp" lookup = .ok c ∧
      ((create (c.forRegistry false)).add .timer (.named "rpc" []) .empty
        0).value.1 =
          .error (.distribution ((Id.named "rpc" []).withKind .timer)
            (.emptyRotationInterval (.ofMillis 2) 3)) := by
  refine ⟨fun key => if key = "otlp.step" then some "2ms" else none,
    { ExportSettings.standard with step := .ofMillis 2 }, ?_, rfl⟩
  with_unfolding_all rfl

end Registry

end WindowedMetrics
