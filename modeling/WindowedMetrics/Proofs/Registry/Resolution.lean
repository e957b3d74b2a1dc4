/-
The settings that a new meter is built from.  A filter that sets an end of
the expected range overrules the filters before it and the meter's own
settings; these overrule the defaults of the registry, and those the range of
the kind and the step that stands in for an open expiry.
-/
import WindowedMetrics.Proofs.Registry.Checking

namespace WindowedMetrics

/-! ### Filters that set an end of the expected range -/

namespace Filter

/-- The largest expected value that a filter sets for an identity. -/
def max? (f : Filter) (id : Id) : Option Float :=
  match f with
  | expectMax start value =>
      if id.nameStartsWith start then some value else none
  | _ => none

/-- The least expected value that a filter sets for an identity. -/
def min? (f : Filter) (id : Id) : Option Float :=
  match f with
  | expectMin start value =>
      if id.nameStartsWith start then some value else none
  | _ => none

/-- Whether a filter adjusts settings as it likes. -/
def configures : Filter → Bool
  | configure _ _ _ => true
  | _ => false

/-- All other filters set an end of the range or nothing. -/
theorem adjust_eq {f : Filter} (h : f.configures = false) (id : Id)
    (config : DistributionSettings) :
    f.adjust id config =
      { config with
        min := (f.min? id).or config.min
        max := (f.max? id).or config.max } := by
  cases f with
  | expectMax start value =>
      simp only [adjust, max?, min?]
      split <;> rfl
  | expectMin start value =>
      simp only [adjust, max?, min?]
      split <;> rfl
  | configure start own override => cases h
  | _ => rfl

end Filter

/-- What the last of several filters sets that sets anything. -/
def lastSet? (sets : Filter → Option Float) (filters : List Filter) :
    Option Float :=
  filters.reverse.findSome? sets

theorem lastSet?_cons (sets : Filter → Option Float) (f : Filter)
    (rest : List Filter) :
    lastSet? sets (f :: rest) = (lastSet? sets rest).or (sets f) := by
  rw [lastSet?, List.reverse_cons, List.findSome?_append]
  congr 1
  cases hset : sets f <;> simp [hset]

/-- A chain leaves what its last filters set, and else what was there. -/
theorem adjustByAll_eq {filters : List Filter}
    (h : ∀ f ∈ filters, f.configures = false) (id : Id)
    (config : DistributionSettings) :
    adjustByAll filters id config =
      { config with
        min := (lastSet? (·.min? id) filters).or config.min
        max := (lastSet? (·.max? id) filters).or config.max } := by
  induction filters generalizing config with
  | nil => rfl
  | cons f rest ih =>
      have hrest := ih fun other hother => h other (List.mem_cons_of_mem f hother)
      rw [adjustByAll, List.foldl_cons, f.adjust_eq (h f List.mem_cons_self)]
      refine (hrest _).trans ?_
      simp only [lastSet?_cons, Option.or_assoc]

/-! ### Settings by rank -/

/-- A kind has no default but its expected range. -/
theorem Blueprint.merge_defaultRange (b : Blueprint Source)
    (config : DistributionSettings) :
    config.merge b.defaultRange =
      { config with
        min := config.min.or b.defaultRange.min
        max := config.max.or b.defaultRange.max } := by
  cases b <;> simp [DistributionSettings.merge, defaultRange,
    DistributionSettings.empty, DistributionSettings.ofRange]

namespace Registry

/-- The settings of a new meter, each from the first that has it: the last
filter that sets it, the meter's own settings, the defaults of the registry,
and then the range of the kind or, for the expiry, the step. -/
def settingsByRank (r : Registry) (b : Blueprint Source) (id : Id)
    (own : DistributionSettings) : DistributionSettings where
  percentiles := own.percentiles.or r.config.distribution.percentiles
  precision := own.precision.or r.config.distribution.precision
  ladder := own.ladder.or r.config.distribution.ladder
  objectives := own.objectives.or r.config.distribution.objectives
  min := (lastSet? (·.min? id) r.filters).or
    (own.min.or (r.config.distribution.min.or b.defaultRange.min))
  max := (lastSet? (·.max? id) r.filters).or
    (own.max.or (r.config.distribution.max.or b.defaultRange.max))
  expiry := own.expiry.or
    (r.config.distribution.expiry.or (some r.config.step))
  bufferLength := own.bufferLength.or r.config.distribution.bufferLength

theorem builtFrom_eq {r : Registry} {b : Blueprint Source}
    (hchain : ∀ f ∈ r.filters, f.configures = false)
    (hkind : b.kind.hasDistribution = true) (id : Id)
    (own : DistributionSettings) :
    r.builtFrom b id own = r.settingsByRank b (r.finalId b id) own := by
  rw [builtFrom, Blueprint.merge_defaultRange, resolveConfig, if_pos hkind,
    adjustByAll_eq hchain]
  simp only [settingsByRank, DistributionSettings.merge,
    DistributionSettings.empty, Option.or_none, Option.or_assoc]

theorem resolveConfig_of_not_hasDistribution {r : Registry} {kind : MeterKind}
    (hkind : kind.hasDistribution = false) (id : Id)
    (own : DistributionSettings) : r.resolveConfig kind id own = own := by
  rw [resolveConfig, if_neg (Bool.eq_false_iff.mp hkind)]

/-- Under filters that map, admit or set an end of the expected range, a new
timer, summary or long task timer is built from the settings by rank; the
factory of any other kind gets the meter's own settings. -/
theorem new_meters_built_by_rank {r : Registry}
    (hchain : ∀ f ∈ r.filters, f.configures = false) :
    (∀ (b : Blueprint Source) (id : Id) (own : DistributionSettings)
      (now : Int) (reference : Nat), b.kind.hasDistribution = true →
      r.get? (r.finalId b id).key = none →
      (r.add b id own now).value.1 = .ok (.made reference) →
      ∃ instrument,
        b.instrument (r.settingsByRank b (r.finalId b id) own) r.config now =
          .ok instrument ∧
        (r.add b id own now).value.2.made[reference]? =
          some ⟨r.finalId b id, now, instrument⟩) ∧
    (∀ (id : Id) (own : DistributionSettings) (factory : MeterFactory)
      (now : Int), id.kind.hasDistribution = false → r.closed = false →
      r.get? (mapByAll r.filters id).key = none →
      firstVerdict? r.filters (mapByAll r.filters id) ≠ some .deny →
      (r.register id own factory now).value.1 =
        (factory (mapByAll r.filters id) own r.config now).map (fun _ =>
          .made r.made.size) ∧
      ∀ meter, factory (mapByAll r.filters id) own r.config now = .ok meter →
        (r.register id own factory now).value.2.made[r.made.size]? =
          some meter) := by
  constructor
  · intro b id own now reference hkind hnew hmade
    rw [← builtFrom_eq hchain hkind]
    exact instrument_of_add hnew hmade
  · intro id own factory now hkind hopen hnew hadmitted
    rw [register_of_new id own factory now hopen hnew hadmitted,
      resolveConfig_of_not_hasDistribution hkind]
    cases factory (mapByAll r.filters id) own r.config now with
    | error error => exact ⟨rfl, by simp⟩
    | ok meter => exact ⟨rfl, by simp [enter]⟩

/-- Of two limits for a name the later one counts, also above the timer's own;
the least value comes from the registry, since the filter that sets it is for
other names, and the expiry is the step.  A counter has no use for any. -/
theorem new_meters_built_by_rank_of_limits :
    let own : DistributionSettings :=
      { DistributionSettings.empty with max := some 1000000.0 }
    let config : RegistrySettings :=
      { RegistrySettings.standard with
        distribution :=
          { DistributionSettings.empty with
            min := some 10.0
            max := some 2000000.0 } }
    let r : Registry :=
      { create config with
        filters := [.expectMax "rpc" 5000000.0, .commonTags .empty,
          .expectMin "db" 1.0, .expectMax "rpc" 7000000.0] }
    let id := Id.named "rpc.calls" []
    let settings : DistributionSettings :=
      { DistributionSettings.empty with
        min := some 10.0
        max := some 7000000.0
        expiry := some (.ofSeconds 60) }
    (∀ f ∈ r.filters, f.configures = false) ∧
      r.get? (r.finalId .timer id).key = none ∧
      (r.add .timer id own 0).value.1 = .ok (.made 0) ∧
      (∃ instrument,
        Blueprint.instrument .timer settings config 0 = .ok instrument ∧
        (r.add .timer id own 0).value.2.made[0]? =
          some ⟨r.finalId .timer id, 0, instrument⟩) ∧
      (r.register (id.withKind .counter) own (Blueprint.build .counter)
        0).value.1 = .ok (.made 0) := by
  intro own config r id settings
  have hchain : ∀ f ∈ r.filters, f.configures = false := by decide
  have hkind : (Blueprint.timer : Blueprint Source).kind.hasDistribution =
      true := rfl
  have hnew : r.get? (r.finalId .timer id).key = none := rfl
  have hrpc : (r.finalId .timer id).nameStartsWith "rpc" = true := by
    decide +kernel
  have hdb : (r.finalId .timer id).nameStartsWith "db" = false := by
    decide +kernel
  have hmax : lastSet? (·.max? (r.finalId .timer id)) r.filters =
      some 7000000.0 := by
    simp [lastSet?, r, Filter.max?, hrpc]
  have hmin : lastSet? (·.min? (r.finalId .timer id)) r.filters = none := by
    simp [lastSet?, r, Filter.min?, hdb]
  have hsettings : r.settingsByRank .timer (r.finalId .timer id) own =
      settings := by
    rw [settingsByRank, hmax, hmin]
    rfl
  have hbuilt : r.builtFrom .timer id own = settings :=
    (builtFrom_eq hchain hkind id own).trans hsettings
  have hpassed : settings.check = .ok () := by
    simp only [DistributionSettings.check]
    rw [if_neg (by decide +kernel), if_neg (by decide +kernel),
      if_neg (by decide +kernel), if_neg (by decide +kernel)]
    rfl
  have hturn : settings.ringVerdict r.config.temporality = .ok () :=
    if_neg (by decide +kernel)
  have hmade : (r.add .timer id own 0).value.1 = .ok (.made 0) := by
    rw [outcome_add hkind rfl hnew (by decide +kernel), Blueprint.verdict,
      if_neg (by decide)]
    change Except.map _ (Except.mapError _ (do
      (r.builtFrom .timer id own).check
      (r.builtFrom .timer id own).ringVerdict r.config.temporality)) = _
    rw [hbuilt, hpassed]
    exact congrArg _ (congrArg _ hturn)
  obtain ⟨htimers, hothers⟩ := new_meters_built_by_rank hchain
  refine ⟨hchain, hnew, hmade, ?_, ?_⟩
  · rw [← hsettings]
    exact htimers .timer id own 0 0 hkind hnew hmade
  · rw [(hothers (id.withKind .counter) own (Blueprint.build .counter) 0 rfl
      rfl rfl (by decide +kernel)).1]
    rfl

end Registry

end WindowedMetrics
