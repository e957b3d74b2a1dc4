/-
Which texts a configuration can be read from, and what it then holds.  The
condition speaks of the texts and their values alone: every supplied text has
a value, and the values fit together.  A setting is then the value of its
text, and its standard value only where no text is supplied.
-/
import WindowedMetrics.Proofs.Export.ValueTexts

namespace WindowedMetrics

variable {A : Type}

/-! ### Single values -/

/-- What an optional text supplies: nothing if it is absent, and else the
value of the trimmed text, which has to have one. -/
def Supplied (text : Option String) (reader : SettingReader A)
    (value : Option A) : Prop :=
  match text with
  | none => value = none
  | some text => ∃ a, reader (trim text) = .ok a ∧ value = some a

theorem readKey_eq_ok_iff {lookup : Lookup} {key : String}
    {reader : SettingReader A} {value : Option A} :
    readKey lookup key reader = .ok value ↔
      Supplied (lookup key) reader value := by
  unfold readKey
  cases lookup key with
  | none => simp [Supplied, eq_comm]
  | some text => cases hread : reader (trim text) <;>
      simp [Supplied, hread, eq_comm]

/-- The second key is read only if the first one is absent. -/
theorem readKeyOr_eq_ok_iff {lookup : Lookup} {key other : String}
    {reader : SettingReader A} {value : Option A} :
    readKeyOr lookup key other reader = .ok value ↔
      Supplied ((lookup key).or (lookup other)) reader value := by
  unfold readKeyOr
  cases hkey : lookup key with
  | none =>
      have hnone : readKey lookup key reader = .ok none :=
        readKey_eq_ok_iff.mpr (by simp [hkey, Supplied])
      simp only [hnone, Option.none_or]
      exact readKey_eq_ok_iff
  | some text =>
      cases hread : reader (trim text) <;>
        simp [readKey, hkey, hread, Supplied, eq_comm]

/-- A supplied value is one that the reader gives. -/
theorem Supplied.exists_read {text : Option String}
    {reader : SettingReader A} {value : Option A}
    (h : Supplied text reader value) {a : A} (ha : a ∈ value) :
    ∃ text, reader text = .ok a := by
  cases text with
  | none =>
      rw [show value = none from h] at ha
      cases ha
  | some text =>
      obtain ⟨b, hread, rfl⟩ := h
      cases ha
      exact ⟨_, hread⟩

/-! ### Settings of distributions -/

namespace DistributionSettings

/-- Every setting of a distribution is what the text of its property
supplies. -/
structure ReadFrom (d : DistributionSettings) (start : String)
    (lookup : Lookup) : Prop where
  percentiles : Supplied (lookup (propertyKey start "percentiles"))
    readNumbers d.percentiles
  precision : Supplied (lookup (propertyKey start "percentilePrecision"))
    readPrecision d.precision
  ladder : Supplied (lookup (propertyKey start "percentileHistogram"))
    readBool d.ladder
  objectives : Supplied (lookup (propertyKey start "serviceLevelObjectives"))
    readNumbers d.objectives
  min : Supplied (lookup (propertyKey start "minimumExpectedValue"))
    readNumber d.min
  max : Supplied (lookup (propertyKey start "maximumExpectedValue"))
    readNumber d.max
  expiry : Supplied (lookup (propertyKey start "histogramExpiry"))
    readDuration d.expiry
  bufferLength : Supplied (lookup (propertyKey start "histogramBufferLength"))
    readPositive d.bufferLength

/-- The supplied settings of a distribution fit together: percentiles are
fractions, the ends of the range are in order, and the expiry leaves a
millisecond for each buffer. -/
structure Consistent (d : DistributionSettings) : Prop where
  percentiles : ∀ p ∈ d.percentileList, 0.0 ≤ p ∧ p ≤ 1.0
  range : ∀ low ∈ d.min, ∀ high ∈ d.max, ¬ high < low
  expiry : ∀ expiry ∈ d.expiry, d.slots ≤ expiry.millis

/-- Settings read from texts have room for a buffer. -/
theorem ReadFrom.slots_pos {d : DistributionSettings} {start : String}
    {lookup : Lookup} (h : d.ReadFrom start lookup) : 0 < d.slots := by
  unfold slots
  cases hlength : d.bufferLength with
  | none => exact Nat.succ_pos 2
  | some length =>
      obtain ⟨text, hread⟩ := h.bufferLength.exists_read hlength
      exact (readPositive_eq_ok_iff.mp hread).2.1

end DistributionSettings

open DistributionSettings in
theorem readPercentiles_eq_ok_iff {start : String} {lookup : Lookup}
    {value : Option (List Float)} :
    readPercentiles lookup start = .ok value ↔
      Supplied (lookup (propertyKey start "percentiles")) readNumbers value ∧
        ∀ p ∈ value.getD [], 0.0 ≤ p ∧ p ≤ 1.0 := by
  have hfractions (list : List Float) :
      (list.find? fun p => !isFraction p) = none ↔
        ∀ p ∈ list, 0.0 ≤ p ∧ p ≤ 1.0 := by
    simp [isFraction]
  simp only [readPercentiles, bind_eq_ok_iff, readKey_eq_ok_iff,
    ← hfractions]
  constructor
  · rintro ⟨list, hread, hcheck⟩
    split at hcheck
    · cases hcheck
    · rename_i hnone
      cases hcheck
      exact ⟨hread, hnone⟩
  · rintro ⟨hread, hnone⟩
    exact ⟨value, hread, by rw [hnone]; rfl⟩

theorem readRange_eq_ok_iff {start : String} {lookup : Lookup}
    {min max : Option Float} :
    readRange lookup start = .ok (min, max) ↔
      Supplied (lookup (propertyKey start "minimumExpectedValue"))
          readNumber min ∧
        Supplied (lookup (propertyKey start "maximumExpectedValue"))
          readNumber max ∧
        ∀ low ∈ min, ∀ high ∈ max, ¬ high < low := by
  simp only [readRange, bind_eq_ok_iff, readKey_eq_ok_iff]
  constructor
  · rintro ⟨low?, hlow, high?, hhigh, hcheck⟩
    split at hcheck
    · rename_i low high
      split at hcheck
      · cases hcheck
      · rename_i horder
        cases hcheck
        refine ⟨hlow, hhigh, ?_⟩
        rintro _ ⟨⟩ _ ⟨⟩
        exact horder
    · rename_i hopen
      cases hcheck
      exact ⟨hlow, hhigh, fun low hl high hh => (hopen low high hl hh).elim⟩
  · rintro ⟨hlow, hhigh, horder⟩
    refine ⟨min, hlow, max, hhigh, ?_⟩
    cases min with
    | none => rfl
    | some low =>
        cases max with
        | none => rfl
        | some high => simp [horder low rfl high rfl, pure, Except.pure]

open DistributionSettings in
/-- The expiry is checked against the supplied number of buffers or the
default one. -/
theorem readExpiry_eq_ok_iff {start : String} {lookup : Lookup}
    {expiry : Option Duration} {length : Option Nat} :
    readExpiry lookup start = .ok (expiry, length) ↔
      Supplied (lookup (propertyKey start "histogramExpiry"))
          readDuration expiry ∧
        Supplied (lookup (propertyKey start "histogramBufferLength"))
          readPositive length ∧
        ∀ duration ∈ expiry, duration.millis /
          { empty with bufferLength := length }.slots ≠ 0 := by
  simp only [readExpiry, bind_eq_ok_iff, readKey_eq_ok_iff]
  constructor
  · rintro ⟨expiry?, hexpiry, length?, hlength, hcheck⟩
    split at hcheck
    · split at hcheck
      · cases hcheck
      · rename_i hfit
        cases hcheck
        refine ⟨hexpiry, hlength, ?_⟩
        rintro _ ⟨⟩
        exact hfit
    · cases hcheck
      exact ⟨hexpiry, hlength, by rintro _ ⟨⟩⟩
  · rintro ⟨hexpiry, hlength, hfit⟩
    refine ⟨expiry, hexpiry, length, hlength, ?_⟩
    cases expiry with
    | none => rfl
    | some duration => simp [hfit duration rfl, pure, Except.pure]

open DistributionSettings in
theorem readDistribution_eq_ok_iff {start : String} {lookup : Lookup}
    {d : DistributionSettings} :
    readDistribution lookup start = .ok d ↔
      d.ReadFrom start lookup ∧ d.Consistent := by
  -- With room for a buffer, a rotation interval is empty only if the expiry
  -- has fewer milliseconds than there are buffers.
  have hrotation (hread : d.ReadFrom start lookup) (duration : Duration) :
      duration.millis / { empty with bufferLength := d.bufferLength }.slots ≠ 0
        ↔ d.slots ≤ duration.millis := by
    have hslots : { empty with bufferLength := d.bufferLength }.slots =
      d.slots := rfl
    rw [hslots, Ne, Nat.div_eq_zero_iff_lt hread.slots_pos, Nat.not_lt]
  simp only [readDistribution, bind_eq_ok_iff, readPercentiles_eq_ok_iff,
    readKey_eq_ok_iff, Prod.exists, readRange_eq_ok_iff,
    readExpiry_eq_ok_iff]
  constructor
  · rintro ⟨_, ⟨hpercentiles, hfractions⟩, _, hprecision, _, hladder, _,
      hobjectives, _, _, ⟨hmin, hmax, horder⟩, _, _,
      ⟨hexpiry, hlength, hfit⟩, hd⟩
    cases hd
    have hread : ReadFrom ⟨_, _, _, _, _, _, _, _⟩ start lookup :=
      ⟨hpercentiles, hprecision, hladder, hobjectives, hmin, hmax, hexpiry,
        hlength⟩
    exact ⟨hread, hfractions, horder, fun duration hduration =>
      (hrotation hread duration).mp (hfit duration hduration)⟩
  · rintro ⟨hread, hfit⟩
    exact ⟨_, ⟨hread.percentiles, hfit.percentiles⟩, _, hread.precision, _,
      hread.ladder, _, hread.objectives, _, _,
      ⟨hread.min, hread.max, hfit.range⟩, _, _,
      ⟨hread.expiry, hread.bufferLength, fun duration hduration =>
        (hrotation hread duration).mpr (hfit.expiry duration hduration)⟩,
      rfl⟩

/-! ### Resource attributes -/

theorem setAttribute_of_not_mem {attributes : Attributes} {key : String}
    (value : String) (hfresh : key ∉ attributes.map Prod.fst) :
    setAttribute attributes key value = attributes ++ [(key, value)] := by
  induction attributes with
  | nil => rfl
  | cons head rest ih =>
      obtain ⟨hhead, hrest⟩ : head.1 ≠ key ∧ key ∉ rest.map Prod.fst := by
        simpa [eq_comm] using hfresh
      simp only [setAttribute, if_neg hhead, ih hrest, List.cons_append]

/-- Attributes and, unless they name a service, this one. -/
def withService (given : Attributes) (service : Option String) : Attributes :=
  if "service.name" ∈ given.map Prod.fst then given
  else given ++ (service.map ("service.name", ·)).toList

/-- The attributes of the property or else of the environment, with the
service of the environment. -/
def resourceOf (start : String) (lookup : Lookup) : Attributes :=
  withService
    (readAttributes (((lookup (propertyKey start "resourceAttributes")).or
      (lookup resourceVariable)).getD ""))
    (lookup serviceVariable)

theorem readResource_eq (start : String) (lookup : Lookup) :
    readResource lookup start = resourceOf start lookup := by
  simp only [readResource, resourceOf]
  generalize readAttributes _ = given
  have hnamed : given.lookup "service.name" = none ↔
      "service.name" ∉ given.map Prod.fst := by
    simp only [List.lookup_eq_none_iff, bne_iff_ne, ne_eq, List.mem_map,
      not_exists, not_and]
    exact forall₂_congr fun pair _ => not_congr eq_comm
  unfold withService
  split
  · rename_i service hnone hservice
    have hfresh := hnamed.mp hnone
    rw [if_neg hfresh, hservice]
    exact setAttribute_of_not_mem service hfresh
  · rename_i hother
    split
    · rfl
    · rename_i hfresh
      cases hservice : lookup serviceVariable with
      | none => exact (List.append_nil given).symm
      | some service =>
          exact (hother service (hnamed.mpr hfresh) hservice).elim

/-! ### Whole configurations -/

/-- The values of the texts that were supplied. -/
structure SuppliedSettings where
  step : Option Duration
  temporality : Option Temporality
  baseTimeUnit : Option TimeUnit
  distribution : DistributionSettings
  exemplars : Option Bool
  exemplarCells : Option Nat

namespace SuppliedSettings

/-- Every value is what the text of its property supplies; for the step and
the temporality the text of an environment variable takes the place of an
absent property. -/
structure ReadFrom (v : SuppliedSettings) (start : String)
    (lookup : Lookup) : Prop where
  step : Supplied
    ((lookup (propertyKey start "step")).or (lookup intervalVariable))
    readDuration v.step
  temporality : Supplied
    ((lookup (propertyKey start "aggregationTemporality")).or
      (lookup temporalityVariable))
    Temporality.read v.temporality
  baseTimeUnit : Supplied (lookup (propertyKey start "baseTimeUnit"))
    TimeUnit.read v.baseTimeUnit
  distribution : v.distribution.ReadFrom start lookup
  exemplars : Supplied (lookup (propertyKey start "exemplars"))
    readBool v.exemplars
  exemplarCells : Supplied (lookup (propertyKey start "exemplarCells"))
    readPositive v.exemplarCells

/-- The configuration with these values, standard where there is none. -/
def settings (v : SuppliedSettings) (resource : Attributes) :
    ExportSettings where
  step := v.step.getD ExportSettings.standard.step
  temporality := v.temporality.getD ExportSettings.standard.temporality
  baseTimeUnit := v.baseTimeUnit.getD ExportSettings.standard.baseTimeUnit
  distribution := v.distribution
  exemplars := v.exemplars.getD ExportSettings.standard.exemplars
  exemplarCells := v.exemplarCells.getD ExportSettings.standard.exemplarCells
  resource := resource
  scopeName := ExportSettings.standard.scopeName

/-- The values fit together: the resulting step is not zero, and neither do
the settings of distributions contradict one another. -/
structure Consistent (v : SuppliedSettings) : Prop where
  step : (v.step.getD ExportSettings.standard.step).nanos ≠ 0
  distribution : v.distribution.Consistent

end SuppliedSettings

theorem readStep_eq_ok_iff {start : String} {lookup : Lookup}
    {step : Duration} :
    readStep lookup start = .ok step ↔
      ∃ supplied, Supplied
          ((lookup (propertyKey start "step")).or (lookup intervalVariable))
          readDuration supplied ∧
        step = supplied.getD ExportSettings.standard.step ∧
        step.nanos ≠ 0 := by
  simp only [readStep, bind_eq_ok_iff, readKeyOr_eq_ok_iff]
  refine exists_congr fun supplied => and_congr_right fun _ => ?_
  by_cases hzero :
      (supplied.getD ExportSettings.standard.step).nanos = 0
  · simp only [hzero, if_true]
    constructor
    · intro h
      cases h
    · rintro ⟨rfl, hstep⟩
      exact (hstep hzero).elim
  · simp only [if_neg hzero]
    constructor
    · intro h
      cases h
      exact ⟨rfl, hzero⟩
    · rintro ⟨rfl, -⟩
      rfl

/-- A configuration is read exactly if every supplied text has a value and
the values fit together.  Every setting is then the value of its text, or the
standard one where no text is supplied; so a text without a value is never
passed over. -/
theorem ExportSettings.read_eq_ok_iff (start : String) (lookup : Lookup)
    (c : ExportSettings) :
    ExportSettings.read start lookup = .ok c ↔
      ∃ v : SuppliedSettings, v.ReadFrom start lookup ∧ v.Consistent ∧
        c = v.settings (resourceOf start lookup) := by
  simp only [ExportSettings.read, bind_eq_ok_iff, readStep_eq_ok_iff,
    readKeyOr_eq_ok_iff, readKey_eq_ok_iff, readDistribution_eq_ok_iff,
    readResource_eq]
  constructor
  · rintro ⟨_, ⟨step, hstep, rfl, hpositive⟩, temporality, htemporality,
      unit, hunit, distribution, ⟨hdistribution, hfit⟩, exemplars,
      hexemplars, cells, hcells, hc⟩
    cases hc
    exact ⟨⟨step, temporality, unit, distribution, exemplars, cells⟩,
      ⟨hstep, htemporality, hunit, hdistribution, hexemplars, hcells⟩,
      ⟨hpositive, hfit⟩, rfl⟩
  · rintro ⟨v, hread, hfit, rfl⟩
    exact ⟨_, ⟨_, hread.step, rfl, hfit.step⟩, _, hread.temporality, _,
      hread.baseTimeUnit, _, ⟨hread.distribution, hfit.distribution⟩, _,
      hread.exemplars, _, hread.exemplarCells, rfl⟩

end WindowedMetrics
