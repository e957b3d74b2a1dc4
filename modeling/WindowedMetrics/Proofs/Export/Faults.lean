/-
Faults of a configuration and what is reported of them.  A text without a
value is quoted under the key it was found at.  Values that were read but
cannot be used are written anew, and a step of no length is always reported
for the property, wherever its text came from.
-/
import WindowedMetrics.Proofs.Export.Supplied

namespace WindowedMetrics

/-- What is wrong with supplied texts: one has no value, or values do not do
or do not fit together. -/
inductive SettingFault
  | malformed (key text reason : String)
  | emptyStep
  | percentile (bad : Float)
  | range (low high : Float)
  | expiry (duration : Duration) (slots : Nat)

namespace SettingFault

/-- How a fault is reported. -/
def report (start : String) : SettingFault → SettingError
  | malformed key text reason => ⟨key, text, reason⟩
  | emptyStep => ⟨propertyKey start "step", "0", "step must be positive"⟩
  | percentile bad =>
      ⟨propertyKey start "percentiles", FloatFormat.plain.write bad,
        "percentiles must be between 0 and 1"⟩
  | range low high =>
      ⟨propertyKey start "minimumExpectedValue", FloatFormat.plain.write low,
        "exceeds " ++ propertyKey start "maximumExpectedValue" ++ " (" ++
          FloatFormat.plain.write high ++ ")"⟩
  | expiry duration slots =>
      ⟨propertyKey start "histogramExpiry", duration.text,
        "must leave at least 1ms for each of " ++ toString slots ++
          " buffers"⟩

/-- Where a fault comes from.  The texts of a fault are supplied; only the
one of an empty step may have been found in the environment. -/
def Found (start : String) (lookup : Lookup) : SettingFault → Prop
  | malformed key text _ => lookup key = some text
  | emptyStep => ∃ text step,
      (lookup (propertyKey start "step")).or (lookup intervalVariable) =
        some text ∧ readDuration (trim text) = .ok step ∧ step.nanos = 0
  | percentile bad => ∃ text list,
      lookup (propertyKey start "percentiles") = some text ∧
        readNumbers (trim text) = .ok list ∧
        list.find? (fun p => !DistributionSettings.isFraction p) = some bad
  | range low high => ∃ lowText highText,
      lookup (propertyKey start "minimumExpectedValue") = some lowText ∧
        readNumber (trim lowText) = .ok low ∧
        lookup (propertyKey start "maximumExpectedValue") = some highText ∧
        readNumber (trim highText) = .ok high ∧ high < low
  | expiry duration slots => ∃ text,
      lookup (propertyKey start "histogramExpiry") = some text ∧
        readDuration (trim text) = .ok duration ∧ duration.millis / slots = 0

end SettingFault

/-! ### The faults of a lookup -/

section Faults

variable {A : Type}

/-- The value of a text, if it is supplied and has one. -/
def valueOf? (text : Option String) (reader : SettingReader A) : Option A :=
  text.bind fun text => (reader (trim text)).toOption

theorem Supplied.valueOf?_eq {text : Option String} {reader : SettingReader A}
    {value : Option A} (h : Supplied text reader value) :
    valueOf? text reader = value := by
  cases text with
  | none => exact h.symm
  | some text =>
      obtain ⟨a, hread, rfl⟩ := h
      simp [valueOf?, hread, Except.toOption]

theorem valueOf?_eq_some_iff {text : Option String} {reader : SettingReader A}
    {a : A} : valueOf? text reader = some a ↔
      ∃ given, text = some given ∧ reader (trim given) = .ok a := by
  cases text with
  | none => simp [valueOf?]
  | some text => cases hread : reader (trim text) <;>
      simp [valueOf?, hread, Except.toOption]

variable (start : String) (lookup : Lookup)

/-- The fault of the text of a key. -/
def textFaults (key : String) (reader : SettingReader A) :
    List SettingFault :=
  match lookup key with
  | none => []
  | some text =>
      match reader (trim text) with
      | .ok _ => []
      | .error reason => [.malformed key text reason]

/-- The fault of the text of a key, or else of a second one. -/
def textFaultsOr (key other : String) (reader : SettingReader A) :
    List SettingFault :=
  match lookup key with
  | none => textFaults lookup other reader
  | some _ => textFaults lookup key reader

def stepFaults : List SettingFault :=
  let key := propertyKey start "step"
  let step := valueOf? ((lookup key).or (lookup intervalVariable)) readDuration
  textFaultsOr lookup key intervalVariable readDuration ++
    if (step.getD ExportSettings.standard.step).nanos = 0 then [.emptyStep]
    else []

def percentileFaults : List SettingFault :=
  let key := propertyKey start "percentiles"
  let list := (valueOf? (lookup key) readNumbers).getD []
  textFaults lookup key readNumbers ++
    ((list.find? fun p => !DistributionSettings.isFraction p).map
      SettingFault.percentile).toList

def rangeFaults : List SettingFault :=
  let low := propertyKey start "minimumExpectedValue"
  let high := propertyKey start "maximumExpectedValue"
  textFaults lookup low readNumber ++ textFaults lookup high readNumber ++
    match valueOf? (lookup low) readNumber,
      valueOf? (lookup high) readNumber with
    | some low, some high => if high < low then [.range low high] else []
    | _, _ => []

def expiryFaults : List SettingFault :=
  let expiry := propertyKey start "histogramExpiry"
  let length := propertyKey start "histogramBufferLength"
  let slots := { DistributionSettings.empty with
    bufferLength := valueOf? (lookup length) readPositive }.slots
  textFaults lookup expiry readDuration ++
    textFaults lookup length readPositive ++
    match valueOf? (lookup expiry) readDuration with
    | some duration =>
        if duration.millis / slots = 0 then [.expiry duration slots] else []
    | none => []

def distributionFaults : List SettingFault :=
  let key := propertyKey start
  percentileFaults start lookup ++
    (textFaults lookup (key "percentilePrecision") readPrecision ++
      (textFaults lookup (key "percentileHistogram") readBool ++
        (textFaults lookup (key "serviceLevelObjectives") readNumbers ++
          (rangeFaults start lookup ++ expiryFaults start lookup))))

/-- All faults, in the order in which they are looked for. -/
def settingFaults : List SettingFault :=
  let key := propertyKey start
  stepFaults start lookup ++
    (textFaultsOr lookup (key "aggregationTemporality") temporalityVariable
        Temporality.read ++
      (textFaults lookup (key "baseTimeUnit") TimeUnit.read ++
        (distributionFaults start lookup ++
          (textFaults lookup (key "exemplars") readBool ++
            textFaults lookup (key "exemplarCells") readPositive))))

/-! ### What is reported -/

variable {B : Type} {start} {lookup}

/-- A reading fails at the first of some faults and succeeds if there are
none. -/
def Reports (start : String) (faults : List SettingFault)
    (outcome : Except SettingError A) : Prop :=
  match faults with
  | [] => ∃ a, outcome = .ok a
  | fault :: _ => outcome = .error (fault.report start)

theorem Reports.exists_ok {outcome : Except SettingError A}
    (h : Reports start [] outcome) : ∃ a, outcome = .ok a := h

/-- A later step of a reading is reached only if the earlier ones found no
fault. -/
theorem Reports.bind {faults more : List SettingFault}
    {outcome : Except SettingError A} {next : A → Except SettingError B}
    (h : Reports start faults outcome)
    (hnext : ∀ a, outcome = .ok a → Reports start more (next a)) :
    Reports start (faults ++ more) (outcome >>= next) := by
  cases faults with
  | nil =>
      obtain ⟨a, rfl⟩ := h.exists_ok
      exact hnext a rfl
  | cons fault rest =>
      obtain rfl : outcome = .error (fault.report start) := h
      rfl

/-- A last step that only collects what was read. -/
theorem Reports.bind_ok {faults : List SettingFault}
    {outcome : Except SettingError A} {next : A → Except SettingError B}
    (h : Reports start faults outcome)
    (hnext : ∀ a, ∃ b, next a = .ok b) :
    Reports start faults (outcome >>= next) := by
  have hbind : Reports start (faults ++ []) (outcome >>= next) :=
    h.bind fun a _ => hnext a
  rwa [List.append_nil] at hbind

theorem reports_readKey (key : String) (reader : SettingReader A) :
    Reports start (textFaults lookup key reader)
      (readKey lookup key reader) := by
  cases hkey : lookup key with
  | none =>
      simp only [textFaults, readKey, hkey]
      exact ⟨none, rfl⟩
  | some text =>
      cases hread : reader (trim text) with
      | ok a =>
          simp only [textFaults, readKey, hkey, hread]
          exact ⟨some a, rfl⟩
      | error reason =>
          simp only [textFaults, readKey, hkey, hread]
          rfl

theorem readKeyOr_of_none {key : String} (other : String)
    (reader : SettingReader A) (hkey : lookup key = none) :
    readKeyOr lookup key other reader = readKey lookup other reader := by
  simp only [readKeyOr, readKey, hkey]

/-- The second text is not looked at if there is a first one. -/
theorem readKeyOr_of_some {key text : String} (other : String)
    (reader : SettingReader A) (hkey : lookup key = some text) :
    readKeyOr lookup key other reader = readKey lookup key reader := by
  cases hread : reader (trim text) <;>
    simp only [readKeyOr, readKey, hkey, hread]

theorem reports_readKeyOr (key other : String) (reader : SettingReader A) :
    Reports start (textFaultsOr lookup key other reader)
      (readKeyOr lookup key other reader) := by
  cases hkey : lookup key with
  | none =>
      rw [readKeyOr_of_none other reader hkey]
      simp only [textFaultsOr, hkey]
      exact reports_readKey other reader
  | some text =>
      rw [readKeyOr_of_some other reader hkey]
      simp only [textFaultsOr, hkey]
      exact reports_readKey key reader

theorem valueOf?_of_readKey {key : String} {reader : SettingReader A}
    {value : Option A} (h : readKey lookup key reader = .ok value) :
    valueOf? (lookup key) reader = value :=
  (readKey_eq_ok_iff.mp h).valueOf?_eq

theorem reports_readStep :
    Reports start (stepFaults start lookup) (readStep lookup start) := by
  unfold readStep stepFaults
  refine (reports_readKeyOr _ _ _).bind fun step hread => ?_
  rw [(readKeyOr_eq_ok_iff.mp hread).valueOf?_eq]
  by_cases hzero : (step.getD ExportSettings.standard.step).nanos = 0
  · simp only [hzero, if_true]
    rfl
  · simp only [hzero, if_false]
    exact ⟨_, rfl⟩

theorem reports_readPercentiles :
    Reports start (percentileFaults start lookup)
      (readPercentiles lookup start) := by
  unfold readPercentiles percentileFaults
  refine (reports_readKey _ _).bind fun list hread => ?_
  rw [valueOf?_of_readKey hread]
  cases hbad : (list.getD []).find? fun p =>
      !DistributionSettings.isFraction p with
  | none => exact ⟨list, rfl⟩
  | some bad => rfl

theorem reports_readRange :
    Reports start (rangeFaults start lookup) (readRange lookup start) := by
  unfold readRange rangeFaults
  rw [List.append_assoc]
  refine (reports_readKey _ _).bind fun low hlow => ?_
  refine (reports_readKey _ _).bind fun high hhigh => ?_
  rw [valueOf?_of_readKey hlow, valueOf?_of_readKey hhigh]
  match low, high with
  | none, _ => exact ⟨_, rfl⟩
  | some low, none => exact ⟨_, rfl⟩
  | some low, some high =>
      by_cases horder : high < low
      · simp only [horder, if_true]
        rfl
      · simp only [horder, if_false]
        exact ⟨_, rfl⟩

theorem reports_readExpiry :
    Reports start (expiryFaults start lookup) (readExpiry lookup start) := by
  unfold readExpiry expiryFaults
  rw [List.append_assoc]
  refine (reports_readKey _ _).bind fun expiry hexpiry => ?_
  refine (reports_readKey _ _).bind fun length hlength => ?_
  rw [valueOf?_of_readKey hexpiry, valueOf?_of_readKey hlength]
  cases expiry with
  | none => exact ⟨_, rfl⟩
  | some duration =>
      dsimp only
      split
      · rfl
      · exact ⟨_, rfl⟩

theorem reports_readDistribution :
    Reports start (distributionFaults start lookup)
      (readDistribution lookup start) := by
  unfold readDistribution distributionFaults
  refine reports_readPercentiles.bind fun _ _ => ?_
  refine (reports_readKey _ _).bind fun _ _ => ?_
  refine (reports_readKey _ _).bind fun _ _ => ?_
  refine (reports_readKey _ _).bind fun _ _ => ?_
  refine reports_readRange.bind fun _ _ => ?_
  exact reports_readExpiry.bind_ok fun _ => ⟨_, rfl⟩

theorem reports_read :
    Reports start (settingFaults start lookup)
      (ExportSettings.read start lookup) := by
  unfold ExportSettings.read settingFaults
  refine reports_readStep.bind fun _ _ => ?_
  refine (reports_readKeyOr _ _ _).bind fun _ _ => ?_
  refine (reports_readKey _ _).bind fun _ _ => ?_
  refine reports_readDistribution.bind fun _ _ => ?_
  refine (reports_readKey _ _).bind fun _ _ => ?_
  exact (reports_readKey _ _).bind_ok fun _ => ⟨_, rfl⟩

/-! ### Where the faults come from -/

theorem found_of_mem_textFaults {key : String} {reader : SettingReader A}
    {fault : SettingFault} (h : fault ∈ textFaults lookup key reader) :
    fault.Found start lookup := by
  unfold textFaults at h
  split at h
  · cases h
  · rename_i text hkey
    split at h
    · cases h
    · obtain rfl := List.mem_singleton.mp h
      exact hkey

theorem found_of_mem_textFaultsOr {key other : String}
    {reader : SettingReader A} {fault : SettingFault}
    (h : fault ∈ textFaultsOr lookup key other reader) :
    fault.Found start lookup := by
  unfold textFaultsOr at h
  split at h
  · exact found_of_mem_textFaults h
  · exact found_of_mem_textFaults h

/-- Without a text the standard step is taken, which has a length. -/
theorem found_of_mem_stepFaults {fault : SettingFault}
    (h : fault ∈ stepFaults start lookup) : fault.Found start lookup := by
  rcases List.mem_append.mp h with h | h
  · exact found_of_mem_textFaultsOr h
  · split at h
    · rename_i hzero
      obtain rfl := List.mem_singleton.mp h
      cases hstep : valueOf? ((lookup (propertyKey start "step")).or
          (lookup intervalVariable)) readDuration with
      | none =>
          rw [hstep] at hzero
          exact (nomatch (show (60000000000 : Nat) = 0 from hzero))
      | some step =>
          rw [hstep] at hzero
          obtain ⟨text, htext, hread⟩ := valueOf?_eq_some_iff.mp hstep
          exact ⟨text, step, htext, hread, hzero⟩
    · cases h

theorem found_of_mem_percentileFaults {fault : SettingFault}
    (h : fault ∈ percentileFaults start lookup) :
    fault.Found start lookup := by
  rcases List.mem_append.mp h with h | h
  · exact found_of_mem_textFaults h
  · obtain ⟨bad, hbad, rfl⟩ := Option.map_eq_some_iff.mp
      (Option.mem_toList.mp h)
    cases hlist : valueOf? (lookup (propertyKey start "percentiles"))
        readNumbers with
    | none =>
        rw [hlist] at hbad
        cases hbad
    | some list =>
        rw [hlist] at hbad
        obtain ⟨text, htext, hread⟩ := valueOf?_eq_some_iff.mp hlist
        exact ⟨text, list, htext, hread, hbad⟩

theorem found_of_mem_rangeFaults {fault : SettingFault}
    (h : fault ∈ rangeFaults start lookup) : fault.Found start lookup := by
  rcases List.mem_append.mp h with h | h
  · rcases List.mem_append.mp h with h | h
    · exact found_of_mem_textFaults h
    · exact found_of_mem_textFaults h
  · split at h
    · rename_i low high hlow hhigh
      split at h
      · rename_i horder
        obtain rfl := List.mem_singleton.mp h
        obtain ⟨lowText, hlowText, hreadLow⟩ := valueOf?_eq_some_iff.mp hlow
        obtain ⟨highText, hhighText, hreadHigh⟩ :=
          valueOf?_eq_some_iff.mp hhigh
        exact ⟨lowText, highText, hlowText, hreadLow, hhighText, hreadHigh,
          horder⟩
      · cases h
    · cases h

theorem found_of_mem_expiryFaults {fault : SettingFault}
    (h : fault ∈ expiryFaults start lookup) : fault.Found start lookup := by
  rcases List.mem_append.mp h with h | h
  · rcases List.mem_append.mp h with h | h
    · exact found_of_mem_textFaults h
    · exact found_of_mem_textFaults h
  · split at h
    · rename_i duration hduration
      split at h
      · rename_i hempty
        obtain rfl := List.mem_singleton.mp h
        obtain ⟨text, htext, hread⟩ := valueOf?_eq_some_iff.mp hduration
        exact ⟨text, htext, hread, hempty⟩
      · cases h
    · cases h

theorem found_of_mem_settingFaults {fault : SettingFault}
    (h : fault ∈ settingFaults start lookup) : fault.Found start lookup := by
  simp only [settingFaults, distributionFaults, List.mem_append] at h
  rcases h with h | h | h | (h | h | h | h | h | h) | h | h
  · exact found_of_mem_stepFaults h
  · exact found_of_mem_textFaultsOr h
  · exact found_of_mem_textFaults h
  · exact found_of_mem_percentileFaults h
  · exact found_of_mem_textFaults h
  · exact found_of_mem_textFaults h
  · exact found_of_mem_textFaults h
  · exact found_of_mem_rangeFaults h
  · exact found_of_mem_expiryFaults h
  · exact found_of_mem_textFaults h
  · exact found_of_mem_textFaults h

/-- All but an empty step are reported for a key that is supplied. -/
theorem SettingFault.Found.exists_text {fault : SettingFault}
    (h : fault.Found start lookup) (hstep : fault ≠ .emptyStep) :
    ∃ text, lookup (fault.report start).key = some text := by
  cases fault with
  | malformed key text reason => exact ⟨text, h⟩
  | emptyStep => exact (hstep rfl).elim
  | percentile bad =>
      obtain ⟨text, -, htext, -⟩ := h
      exact ⟨text, htext⟩
  | range low high =>
      obtain ⟨text, -, htext, -⟩ := h
      exact ⟨text, htext⟩
  | expiry duration slots =>
      obtain ⟨text, htext, -⟩ := h
      exact ⟨text, htext⟩

end Faults

/-- A reading fails exactly if there is a fault, and reports the first one.
A text without a value is quoted as it was supplied, under the key it was
supplied for.  Of the others, all but an empty step name a key that is
supplied, but their values are written anew from what was read. -/
theorem ExportSettings.read_eq_error_iff (start : String) (lookup : Lookup)
    (e : SettingError) :
    ExportSettings.read start lookup = .error e ↔
      ∃ fault, (settingFaults start lookup).head? = some fault ∧
        fault.report start = e ∧ fault.Found start lookup ∧
        (fault ≠ .emptyStep → ∃ text, lookup e.key = some text) ∧
        ∀ key text reason, fault = .malformed key text reason →
          lookup e.key = some e.value := by
  have hreports : Reports start (settingFaults start lookup)
    (ExportSettings.read start lookup) := reports_read
  have hfound (fault : SettingFault) (h : fault ∈ settingFaults start lookup) :
    fault.Found start lookup := found_of_mem_settingFaults h
  generalize settingFaults start lookup = faults at hreports hfound
  cases faults with
  | nil =>
      obtain ⟨c, hread⟩ := hreports.exists_ok
      rw [hread]
      constructor
      · intro h
        cases h
      · rintro ⟨_, h, -⟩
        cases h
  | cons fault rest =>
      rw [show ExportSettings.read start lookup = _ from hreports]
      have hfirst := hfound fault List.mem_cons_self
      constructor
      · intro h
        cases h
        refine ⟨fault, rfl, rfl, hfirst, hfirst.exists_text, ?_⟩
        rintro key text reason rfl
        exact hfirst
      · rintro ⟨_, h, rfl, -⟩
        cases h
        rfl

/-- A step of no length that was found in the environment is reported for
the property, which is not supplied. -/
theorem ExportSettings.exists_error_of_other_key :
    ∃ (start : String) (lookup : Lookup) (e : SettingError),
      ExportSettings.read start lookup = .error e ∧
        lookup e.key = none ∧ lookup intervalVariable = some e.value :=
  ⟨"otlp", fun key => if key = intervalVariable then some "0" else none,
    ⟨"otlp.step", "0", "step must be positive"⟩,
    by with_unfolding_all rfl, by decide, by decide⟩

end WindowedMetrics
