/-
The checks on the way to a new timer, summary or long task timer.  The
settings are checked when they are complete, except for a long task timer,
which gets the range of its kind after the check and may so end up with one
that is upside down.
-/
import WindowedMetrics.Proofs.Registry.Registration

namespace WindowedMetrics

/-! ### Outcomes without their values -/

section Verdicts

variable {E A B : Type}

/-- Whether a construction succeeds, and why not. -/
def verdictOf (x : Except E A) : Except E Unit := x.map fun _ => ()

@[simp] theorem verdictOf_ok (a : A) :
    verdictOf (.ok a : Except E A) = .ok () := rfl

@[simp] theorem verdictOf_map (x : Except E A) (f : A → B) :
    verdictOf (x.map f) = verdictOf x := by
  cases x <;> rfl

theorem mapError_eq_ok {E' : Type} {x : Except E A} {f : E → E'} {a : A} :
    x.mapError f = .ok a ↔ x = .ok a := by
  cases x <;> simp [Except.mapError]

end Verdicts

/-! ### The check of settings whose single values are in range -/

namespace DistributionSettings

/-- Every single value is in its own range. -/
structure InRange (d : DistributionSettings) : Prop where
  slots_pos : 0 < d.slots
  digits_le : d.digits ≤ 5
  min_not_nan : d.minimum.isNaN = false
  max_not_nan : d.maximum.isNaN = false
  fractions : (d.percentileList.find? fun p => !isFraction p) = none

/-- Of single values in range only two things can be wrong: too short an
expiry for the buffers, and a range upside down. -/
theorem InRange.check_eq {d : DistributionSettings} (h : d.InRange) :
    d.check =
      if d.lifetime.millis < d.slots then
        .error (.emptyRotationInterval d.lifetime d.slots)
      else if d.maximum < d.minimum then
        .error (.invertedRange d.minimum d.maximum)
      else .ok () := by
  have hrotation : d.lifetime.millis / d.slots = 0 ↔
      d.lifetime.millis < d.slots := Nat.div_eq_zero_iff_lt h.slots_pos
  unfold check
  simp only [Nat.ne_of_gt h.slots_pos, Nat.not_lt.mpr h.digits_le, hrotation,
    h.min_not_nan, h.max_not_nan, h.fractions, ↓reduceIte, Bool.false_or,
    decide_eq_true_eq]

/-- What passes the check has every value in range, an expiry that is long
enough and a range that is not upside down. -/
theorem inRange_of_check {d : DistributionSettings} (h : d.check = .ok ()) :
    d.InRange ∧ d.slots ≤ d.lifetime.millis ∧ ¬ d.maximum < d.minimum := by
  unfold check at h
  split at h
  · cases h
  rename_i hslots
  split at h
  · cases h
  rename_i hrotation
  split at h
  · cases h
  rename_i hdigits
  split at h
  · cases h
  rename_i hrange
  simp only [Bool.or_eq_true, decide_eq_true_eq, not_or,
    Bool.not_eq_true] at hrange
  obtain ⟨⟨hmin, hmax⟩, hordered⟩ := hrange
  cases hfraction : d.percentileList.find? fun p => !isFraction p with
  | some p => simp [hfraction] at h
  | none =>
      have hpos : 0 < d.slots := Nat.pos_of_ne_zero hslots
      rw [Nat.div_eq_zero_iff_lt hpos, Nat.not_lt] at hrotation
      exact ⟨⟨hpos, Nat.not_lt.mp hdigits, hmin, hmax, hfraction⟩, hrotation,
        hordered⟩

theorem merge_empty (d : DistributionSettings) : d.merge .empty = d := by
  simp [merge, empty]

/-- The expected range and the expiry do not matter for the other values. -/
theorem InRange.congr {d e : DistributionSettings} (h : d.InRange)
    (hlength : e.bufferLength = d.bufferLength)
    (hprecision : e.precision = d.precision)
    (hpercentiles : e.percentiles = d.percentiles)
    (hmin : e.minimum.isNaN = false) (hmax : e.maximum.isNaN = false) :
    e.InRange := by
  refine ⟨?_, ?_, hmin, hmax, ?_⟩
  · simpa only [slots, hlength] using h.slots_pos
  · simpa only [digits, hprecision] using h.digits_le
  · simpa only [percentileList, hpercentiles] using h.fractions

/-- Whether one end of the expected range is open and the other one lies
beyond what is to take its place. -/
def missesRange (d : DistributionSettings) (low high : Float) : Bool :=
  match d.min, d.max with
  | some least, none => decide (high < least)
  | none, some most => decide (most < low)
  | _, _ => false

section Completed

variable {d : DistributionSettings} {low high : Float}
  (hlow : low.isNaN = false) (hhigh : high.isNaN = false)

include hlow hhigh

theorem InRange.merge_ofRange (h : d.InRange) :
    (d.merge (.ofRange low high)).InRange := by
  refine h.congr Option.or_none Option.or_none Option.or_none ?_ ?_
  · have hmin := h.min_not_nan
    unfold minimum at hmin ⊢
    cases hleast : d.min with
    | none => simpa [merge, ofRange, hleast] using hlow
    | some least => simpa [merge, ofRange, hleast] using hmin
  · have hmax := h.max_not_nan
    unfold maximum at hmax ⊢
    cases hmost : d.max with
    | none => simpa [merge, ofRange, hmost] using hhigh
    | some most => simpa [merge, ofRange, hmost] using hmax

/-- Filling a range in after the check can only turn it upside down, and does
so where the end that is set lies beyond the one that is filled in. -/
theorem check_merge_ofRange (hordered : ¬ high < low)
    (h : d.check = .ok ()) :
    let complete := d.merge (.ofRange low high)
    complete.check =
      if d.missesRange low high then
        .error (.invertedRange complete.minimum complete.maximum)
      else .ok () := by
  intro complete
  obtain ⟨hrange, hlong, hupright⟩ := inRange_of_check h
  have hlifetime : complete.lifetime = d.lifetime := by
    simp [complete, lifetime, merge, ofRange, empty]
  have hslots : complete.slots = d.slots := by
    simp [complete, slots, merge, ofRange, empty]
  have hinverted : complete.maximum < complete.minimum ↔
      d.missesRange low high = true := by
    simp only [minimum, maximum] at hupright
    cases hleast : d.min <;> cases hmost : d.max <;>
      simp_all [complete, missesRange, minimum, maximum, merge, ofRange]
  rw [(hrange.merge_ofRange hlow hhigh).check_eq, hlifetime, hslots,
    if_neg (Nat.not_lt.mpr hlong)]
  simp only [hinverted, complete]

end Completed

end DistributionSettings

/-! ### Building a histogram from checked settings -/

theorem RingHistogram.verdict_create (plan : SlotPlan) (expiry : Duration)
    {length : Nat} (hlength : 0 < length) (now : Int) :
    verdictOf (create plan expiry length now) =
      if wrapInt64 (expiry.millis / length : Nat) = 0 then
        .error (.emptyRotationInterval expiry length)
      else .ok () := by
  simp only [create, if_neg (Nat.ne_of_gt hlength)]
  split <;> rfl

/-- What the check of settings leaves open: under cumulative temporality the
percentiles have a ring, and its turn may vanish in 64 bits. -/
def DistributionSettings.ringVerdict (d : DistributionSettings)
    (temporality : Temporality) : Except DistributionError Unit :=
  if temporality = .cumulative ∧ d.publishesPercentiles ∧
      wrapInt64 (d.lifetime.millis / d.slots : Nat) = 0 then
    .error (.emptyRotationInterval d.lifetime d.slots)
  else .ok ()

namespace Histogram

open DistributionSettings

/-- The plan of settings has a part for percentiles if they publish any. -/
theorem isSome_withoutBuckets? {d : DistributionSettings} {plan : SlotPlan}
    (hplan : SlotPlan.ofConfig? d = some plan) :
    plan.withoutBuckets?.isSome = d.publishesPercentiles := by
  have hgrid : plan.logLinear.isSome = d.publishesPercentiles := by
    simp only [SlotPlan.ofConfig?, Option.ite_none_left_eq_some,
      Option.some.injEq] at hplan
    obtain ⟨-, rfl⟩ := hplan
    cases d.publishesPercentiles <;> rfl
  rw [← hgrid, SlotPlan.withoutBuckets?]
  cases plan.logLinear <;> rfl

/-- Without percentiles the cumulative histogram has no ring to refuse. -/
theorem verdict_createUnchecked_cumulative {d : DistributionSettings}
    (hslots : 0 < d.slots) (now : Int) :
    verdictOf (createUnchecked d .cumulative now) =
      d.ringVerdict .cumulative := by
  unfold createUnchecked ringVerdict
  cases hplan : SlotPlan.ofConfig? d with
  | none =>
      have hnone : d.publishesPercentiles = false := by
        cases hpercentiles : d.publishesPercentiles with
        | false => rfl
        | true => simp [SlotPlan.ofConfig?, hpercentiles] at hplan
      simp [hnone]
  | some plan =>
      have hpart := isSome_withoutBuckets? hplan
      simp only [verdictOf_map, ofPlan, CumulativeHistogram.create]
      cases hring : plan.withoutBuckets? with
      | none => simp_all
      | some part =>
          rw [hring] at hpart
          simp only [verdictOf_map, RingHistogram.verdict_create part _ hslots,
            ← hpart, Option.isSome_some, true_and]

theorem verdict_createUnchecked_step (d : DistributionSettings)
    (length : Duration) (now : Int) :
    verdictOf (createUnchecked d (.step length) now) = .ok () := by
  unfold createUnchecked
  cases SlotPlan.ofConfig? d <;> rfl

end Histogram

/-- The histogram of a registry's meter needs settings that pass the check,
and a ring that turns where it has one. -/
theorem RegistrySettings.verdict_histogram (c : RegistrySettings)
    (d : DistributionSettings) (now : Int) :
    verdictOf (c.histogram d now) = (do
      d.check
      d.ringVerdict c.temporality) := by
  unfold histogram retention Histogram.create
  cases hcheck : d.check with
  | error fault => rfl
  | ok u =>
      have hslots :=
        (DistributionSettings.inRange_of_check hcheck).1.slots_pos
      cases htemporality : c.temporality with
      | cumulative =>
          exact Histogram.verdict_createUnchecked_cumulative hslots now
      | delta => exact Histogram.verdict_createUnchecked_step d c.step now

/-! ### Building a meter from resolved settings -/

/-- A factory fails with what its instrument fails with. -/
theorem Blueprint.verdictOf_build (b : Blueprint Source) (id : Id)
    (config : DistributionSettings) (c : RegistrySettings) (now : Int) :
    verdictOf (b.build id config c now) =
      (verdictOf (b.instrument config c now)).mapError (.distribution id) := by
  unfold build
  cases b.instrument config c now <;> rfl

/-- How the construction of a timer, a summary or a long task timer from
resolved settings ends.  A long task timer's are checked as they are; the
others' are checked with the range of the kind, and those that are to back a
histogram need a ring that turns. -/
def Blueprint.verdict (b : Blueprint Source) (c : RegistrySettings)
    (config : DistributionSettings) : Except DistributionError Unit :=
  if b.kind = .longTaskTimer then config.check
  else do
    (config.merge b.defaultRange).check
    (config.merge b.defaultRange).ringVerdict c.temporality

/-- A registration by kind makes a meter, or fails with the fault of the
settings that are checked. -/
theorem Blueprint.verdictOf_buildTyped {b : Blueprint Source}
    (hkind : b.kind.hasDistribution = true) (id : Id)
    (config : DistributionSettings) (c : RegistrySettings) (now : Int) :
    verdictOf (b.buildTyped id config c now) =
      (b.verdict c config).mapError (.distribution id) := by
  have hhistogram := c.verdict_histogram (config.merge b.defaultRange) now
  cases b with
  | timer =>
      simp only [buildTyped, verdictOf_build, instrument, verdictOf_map,
        Distribution.create, hhistogram]
      rfl
  | summary scale =>
      simp only [buildTyped, verdictOf_build, instrument, verdictOf_map,
        Distribution.create, hhistogram]
      rfl
  | longTaskTimer =>
      simp only [buildTyped, verdict]
      cases config.check <;> rfl
  | _ => cases hkind

namespace Registry

/-! ### What a registration makes -/

section Made

variable {r : Registry} {id : Id} {own : DistributionSettings} {now : Int}
  {reference : Nat}

/-- Where nothing was registered, a registration that succeeds has had its
meter made from the resolved settings. -/
theorem register_made {factory : MeterFactory}
    (hnew : r.get? (mapByAll r.filters id).key = none)
    (hmade : (r.register id own factory now).value.1 =
      .ok (.made reference)) :
    ∃ meter, factory (mapByAll r.filters id)
        (r.resolveConfig id.kind (mapByAll r.filters id) own) r.config now =
          .ok meter ∧
      (r.register id own factory now).value.2.made[reference]? =
        some meter := by
  cases hopen : r.closed with
  | true =>
      rw [register_of_closed id own factory now hopen] at hmade
      cases hmade
  | false =>
      by_cases hdenied :
          firstVerdict? r.filters (mapByAll r.filters id) = some .deny
      · rw [register_of_denied id own factory now hopen hnew hdenied] at hmade
        cases hmade
      · have hregister := register_of_new id own factory now hopen hnew hdenied
        rw [hregister] at hmade ⊢
        cases hfactory : factory (mapByAll r.filters id)
            (r.resolveConfig id.kind (mapByAll r.filters id) own) r.config
            now with
        | error error =>
            rw [hfactory] at hmade
            cases hmade
        | ok meter =>
            rw [hfactory] at hmade
            cases hmade
            exact ⟨meter, rfl, by simp [enter]⟩

/-- A registration by kind succeeds as the plain one does. -/
theorem register_of_add {b : Blueprint Source}
    (hmade : (r.add b id own now).value.1 = .ok (.made reference)) :
    (r.register (id.withKind b.kind) own b.buildTyped now).value.1 =
      .ok (.made reference) := by
  cases hregister : (r.register (id.withKind b.kind) own b.buildTyped
      now).value with
  | mk outcome next =>
      simp only [add, hregister] at hmade
      split at hmade
      · split at hmade <;> cases hmade
      · exact hmade

/-- Where a meter is registered already, a registration by kind that succeeds
has found that one and changes nothing. -/
theorem found_of_add {b : Blueprint Source} {existing : Meter}
    (hget : r.get? (r.finalId b id).key = some existing)
    (hmade : (r.add b id own now).value.1 = .ok (.made reference)) :
    existing.kind = b.kind ∧ r.made[reference]? = some existing ∧
      (r.add b id own now).value.2 = r := by
  have hregistered := register_of_add hmade
  cases hopen : r.closed with
  | true =>
      rw [register_of_closed (id.withKind b.kind) own b.buildTyped now
        hopen] at hregistered
      cases hregistered
  | false =>
      obtain ⟨found, hfind, hmeter⟩ := Option.bind_eq_some_iff.mp hget
      by_cases hkind : existing.kind = b.kind
      · have hregister := register_of_found (id.withKind b.kind) own
          b.buildTyped now hopen hfind hget hkind
        rw [add_of_register hregister (by simp)] at hmade ⊢
        cases hmade
        exact ⟨hkind, hmeter, rfl⟩
      · rw [register_of_conflict (id.withKind b.kind) own b.buildTyped now
          hopen hfind hget hkind] at hregistered
        cases hregistered

theorem buildTyped_of_add {b : Blueprint Source}
    (hnew : r.get? (r.finalId b id).key = none)
    (hmade : (r.add b id own now).value.1 = .ok (.made reference)) :
    ∃ meter, b.buildTyped (r.finalId b id)
        (r.resolveConfig b.kind (r.finalId b id) own) r.config now =
          .ok meter ∧
      (r.add b id own now).value.2.made[reference]? = some meter := by
  rw [registry_add]
  exact register_made hnew (register_of_add hmade)

/-- The settings that a new meter of a kind is built from: the resolved ones
and, where these leave the expected range open, the range of the kind. -/
def builtFrom (r : Registry) (b : Blueprint Source) (id : Id)
    (own : DistributionSettings) : DistributionSettings :=
  (r.resolveConfig b.kind (r.finalId b id) own).merge b.defaultRange

theorem instrument_of_add {b : Blueprint Source}
    (hnew : r.get? (r.finalId b id).key = none)
    (hmade : (r.add b id own now).value.1 = .ok (.made reference)) :
    ∃ instrument,
      b.instrument (r.builtFrom b id own) r.config now = .ok instrument ∧
      (r.add b id own now).value.2.made[reference]? =
        some ⟨r.finalId b id, now, instrument⟩ := by
  obtain ⟨meter, hbuilt, hentered⟩ := buildTyped_of_add hnew hmade
  obtain ⟨instrument, hinstrument, rfl⟩ := Blueprint.buildTyped_eq_ok hbuilt
  exact ⟨instrument, hinstrument, hentered⟩

theorem verdict_of_add {b : Blueprint Source}
    (hkind : b.kind.hasDistribution = true)
    (hnew : r.get? (r.finalId b id).key = none)
    (hmade : (r.add b id own now).value.1 = .ok (.made reference)) :
    b.verdict r.config (r.resolveConfig b.kind (r.finalId b id) own) =
      .ok () := by
  obtain ⟨meter, hbuilt, -⟩ := buildTyped_of_add hnew hmade
  have hverdict := b.verdictOf_buildTyped hkind (r.finalId b id)
    (r.resolveConfig b.kind (r.finalId b id) own) r.config now
  rw [hbuilt] at hverdict
  exact mapError_eq_ok.mp hverdict.symm

/-- A new meter that is admitted is had exactly if its construction from the
resolved settings succeeds. -/
theorem outcome_add {b : Blueprint Source}
    (hkind : b.kind.hasDistribution = true) (hopen : r.closed = false)
    (hnew : r.get? (r.finalId b id).key = none)
    (hadmitted : firstVerdict? r.filters (r.finalId b id) ≠ some .deny) :
    (r.add b id own now).value.1 =
      ((b.verdict r.config (r.resolveConfig b.kind (r.finalId b id)
        own)).mapError (.distribution (r.finalId b id))).map fun _ =>
          .made r.made.size := by
  have hregister := register_of_new (id.withKind b.kind) own b.buildTyped now
    hopen hnew hadmitted
  have hbuild := b.verdictOf_buildTyped hkind (r.finalId b id)
    (r.resolveConfig b.kind (r.finalId b id) own) r.config now
  have hfactory : b.buildTyped (mapByAll r.filters (id.withKind b.kind))
      (r.resolveConfig (id.withKind b.kind).kind
        (mapByAll r.filters (id.withKind b.kind)) own) r.config now =
      b.buildTyped (r.finalId b id)
        (r.resolveConfig b.kind (r.finalId b id) own) r.config now := rfl
  rw [hfactory] at hregister
  rw [← hbuild]
  cases hmade : b.buildTyped (r.finalId b id)
      (r.resolveConfig b.kind (r.finalId b id) own) r.config now with
  | error error =>
      rw [hmade] at hregister
      rw [add_of_register hregister (by simp)]
      rfl
  | ok meter =>
      rw [hmade] at hregister
      rw [add_of_register hregister (by simp)]
      rfl

/-- What is built passes the check, except where the range that a long task
timer gets after its check turns out upside down. -/
theorem check_builtFrom {b : Blueprint Source}
    (hpassed : b.verdict r.config
      (r.resolveConfig b.kind (r.finalId b id) own) = .ok ()) :
    (r.builtFrom b id own).check =
      if b.kind = .longTaskTimer ∧
          (r.resolveConfig b.kind (r.finalId b id) own).missesRange
            120000000000.0 7200000000000.0 = true then
        .error (.invertedRange (r.builtFrom b id own).minimum
          (r.builtFrom b id own).maximum)
      else .ok () := by
  by_cases hlong : b.kind = .longTaskTimer
  · obtain rfl : b = .longTaskTimer := by
      cases b with
      | longTaskTimer => rfl
      | _ => cases hlong
    have hlow : Float.isNaN 120000000000.0 = false := by decide +kernel
    have hhigh : Float.isNaN 7200000000000.0 = false := by decide +kernel
    have hordered : ¬ (7200000000000.0 : Float) < 120000000000.0 := by
      decide +kernel
    simp only [hlong, true_and]
    exact DistributionSettings.check_merge_ofRange hlow hhigh hordered hpassed
  · rw [if_neg fun h => hlong h.1]
    rw [Blueprint.verdict, if_neg hlong] at hpassed
    cases hcheck : (r.builtFrom b id own).check with
    | error cause =>
        rw [builtFrom] at hcheck
        rw [hcheck] at hpassed
        cases hpassed
    | ok u => rfl

end Made

/-- A new timer, summary or long task timer that is admitted is had exactly if
its settings pass, and those of a timer or a summary are the ones that it is
then built from.  A registration that succeeds has found its meter, or has
built it from settings that pass the check; except for a long task timer with
one end of its expected range set beyond the default for the other end, which
has a range upside down. -/
theorem new_distributions_checked {b : Blueprint Source}
    (hkind : b.kind.hasDistribution = true) (r : Registry) (id : Id)
    (own : DistributionSettings) (now : Int) :
    (r.closed = false → r.get? (r.finalId b id).key = none →
      firstVerdict? r.filters (r.finalId b id) ≠ some .deny →
      (r.add b id own now).value.1 =
        ((if b.kind = .longTaskTimer then
            (r.resolveConfig b.kind (r.finalId b id) own).check
          else do
            (r.builtFrom b id own).check
            (r.builtFrom b id own).ringVerdict r.config.temporality).mapError
              (.distribution (r.finalId b id))).map fun _ =>
                .made r.made.size) ∧
    ∀ reference, (r.add b id own now).value.1 = .ok (.made reference) →
      (∃ existing, r.get? (r.finalId b id).key = some existing ∧
        existing.kind = b.kind ∧ r.made[reference]? = some existing ∧
        (r.add b id own now).value.2 = r) ∨
      r.get? (r.finalId b id).key = none ∧
      (∃ instrument,
        b.instrument (r.builtFrom b id own) r.config now = .ok instrument ∧
        (r.add b id own now).value.2.made[reference]? =
          some ⟨r.finalId b id, now, instrument⟩) ∧
      (r.builtFrom b id own).check =
        if b.kind = .longTaskTimer ∧
            (r.resolveConfig b.kind (r.finalId b id) own).missesRange
              120000000000.0 7200000000000.0 = true then
          .error (.invertedRange (r.builtFrom b id own).minimum
            (r.builtFrom b id own).maximum)
        else .ok () := by
  constructor
  · intro hopen hnew hadmitted
    exact outcome_add hkind hopen hnew hadmitted
  · intro reference hmade
    cases hget : r.get? (r.finalId b id).key with
    | some existing => exact .inl ⟨existing, rfl, found_of_add hget hmade⟩
    | none =>
        exact .inr ⟨rfl, instrument_of_add hget hmade,
          check_builtFrom (verdict_of_add hkind hget hmade)⟩

/-- Long tasks of at most an hour fit the two minutes that they are expected
to last at least. -/
theorem new_distributions_checked_of_hour :
    let own : DistributionSettings :=
      { DistributionSettings.empty with max := some 3600000000000.0 }
    let r := create .standard
    let id := Id.named "job" []
    r.get? (r.finalId .longTaskTimer id).key = none ∧
      (r.add .longTaskTimer id own 0).value.1 = .ok (.made 0) ∧
      (r.builtFrom .longTaskTimer id own).check = .ok () := by
  intro own r id
  have hkind : (Blueprint.longTaskTimer :
      Blueprint Source).kind.hasDistribution = true := rfl
  have hnew : r.get? (r.finalId .longTaskTimer id).key = none := rfl
  have hlong : (Blueprint.longTaskTimer : Blueprint Source).kind =
      .longTaskTimer := rfl
  have hpassed : (r.resolveConfig .longTaskTimer
      (r.finalId .longTaskTimer id) own).check = .ok () := by
    simp only [DistributionSettings.check]
    rw [if_neg (by decide +kernel), if_neg (by decide +kernel),
      if_neg (by decide +kernel), if_neg (by decide +kernel)]
    rfl
  obtain ⟨houtcome, hends⟩ := new_distributions_checked hkind r id own 0
  have hmade : (r.add .longTaskTimer id own 0).value.1 = .ok (.made 0) := by
    rw [houtcome rfl hnew (by decide), if_pos hlong, hlong, hpassed]
    rfl
  refine ⟨hnew, hmade, ?_⟩
  obtain ⟨existing, hget, _⟩ | ⟨_, _, hchecked⟩ := hends 0 hmade
  · rw [hnew] at hget
    cases hget
  · rw [hchecked]
    exact if_neg (by decide +kernel)

/-- A microsecond at most is accepted for a long task timer too, which then
expects two minutes at least. -/
theorem exists_made_upside_down :
    ∃ own : DistributionSettings,
      let r := create .standard
      let id := Id.named "job" []
      r.get? (r.finalId .longTaskTimer id).key = none ∧
        (r.add .longTaskTimer id own 0).value.1 = .ok (.made 0) ∧
        (r.builtFrom .longTaskTimer id own).check =
          .error (.invertedRange 120000000000.0 1000.0) := by
  refine ⟨{ DistributionSettings.empty with max := some 1000.0 }, rfl, ?_, ?_⟩
  · rfl
  · rfl

end Registry

end WindowedMetrics
