/-
What a registration answers.  A closed registry refuses; a name and tags that
are taken lead to the meter that has them, or to an error if it is of another
kind; and only then do the filters admit or refuse and is a meter made.
-/
import WindowedMetrics.Proofs.Registry.Catalogue

namespace WindowedMetrics

/-! ### Filters -/

/-- The first verdict of several filters that is not neutral, each filter
asked on its own. -/
def firstVerdict? (filters : List Filter) (id : Id) : Option Verdict :=
  (filters.map fun filter => (filter.judge id).value.1).find? fun verdict =>
    decide (verdict ≠ .neutral)

/-- What is not denied first is admitted. -/
theorem admitByAll_eq (filters : List Filter) (id : Id) :
    (admitByAll filters id).value.1 =
      decide (firstVerdict? filters id ≠ some .deny) := by
  induction filters with
  | nil => rfl
  | cons filter rest ih =>
      simp only [firstVerdict?] at ih
      simp only [admitByAll, firstVerdict?, List.map_cons, List.find?_cons]
      cases (filter.judge id).value.1 with
      | accept => rfl
      | deny => rfl
      | neutral => exact ih

/-- Whether a filter gives identities another kind.  None but an edit with a
kind of its own does. -/
def Filter.rewritesKind : Filter → Bool
  | edit change => change.kind.isSome
  | _ => false

theorem Filter.kind_map {filter : Filter}
    (hkeeps : filter.rewritesKind = false) (id : Id) :
    (filter.map id).kind = id.kind := by
  cases filter with
  | renameTag start source target =>
      simp only [map]
      split <;> rfl
  | replaceTagValues key replacement exceptions =>
      simp only [map]
      split
      · rfl
      · split <;> rfl
  | edit change =>
      have hnone : change.kind = none := by
        simpa [rewritesKind] using hkeeps
      simp only [map, IdEdit.apply, hnone, Option.getD_none]
  | _ => rfl

/-- Filters that leave the kind of every identity as it is. -/
def KeepKinds (filters : List Filter) : Prop :=
  ∀ id, (mapByAll filters id).kind = id.kind

theorem KeepKinds.append {filters : List Filter} (h : KeepKinds filters)
    {filter : Filter} (hkeeps : filter.rewritesKind = false) :
    KeepKinds (filters ++ [filter]) := by
  intro id
  rw [mapByAll, List.foldl_append]
  exact (Filter.kind_map hkeeps _).trans (h id)

/-! ### New meters -/

/-- A new instrument is of its blueprint's kind and measures. -/
theorem Blueprint.instrument_fits {b : Blueprint Source}
    {config : DistributionSettings} {c : RegistrySettings} {now : Int}
    {i : Instrument} (hinstrument : b.instrument config c now = .ok i) :
    i.kind = b.kind ∧ i.isIdle? ≠ some true := by
  cases b with
  | timer =>
      obtain ⟨d, _, rfl⟩ := exists_of_map_eq_ok hinstrument
      exact ⟨rfl, by simp [Instrument.isIdle?]⟩
  | summary scale =>
      obtain ⟨d, _, rfl⟩ := exists_of_map_eq_ok hinstrument
      exact ⟨rfl, by simp [Instrument.isIdle?]⟩
  | _ =>
      cases hinstrument
      exact ⟨rfl, by simp [Instrument.isIdle?]⟩

theorem Blueprint.buildTyped_error {b : Blueprint Source} {id : Id}
    {config : DistributionSettings} {c : RegistrySettings} {now : Int}
    {error : RegistrationError}
    (herror : b.buildTyped id config c now = .error error) :
    ∃ cause, error = .distribution id cause := by
  have hbuild : b.build id (config.merge b.defaultRange) c now =
      .error error → ∃ cause, error = .distribution id cause := by
    intro hbuild
    unfold build at hbuild
    split at hbuild
    · cases hbuild
      exact ⟨_, rfl⟩
    · cases hbuild
  unfold buildTyped at herror
  split at herror
  · split at herror
    · cases herror
      exact ⟨_, rfl⟩
    · exact hbuild herror
  · exact hbuild herror

theorem Meter.kind_idle (id : Id) : (Meter.idle id).kind = id.kind := by
  unfold Meter.idle Meter.kind
  cases id.kind <;> rfl

namespace Registry

/-! ### Registering, case by case -/

section Registering

variable {r : Registry} (id : Id) (own : DistributionSettings)
  (factory : MeterFactory) (now : Int)

theorem register_of_closed (hclosed : r.closed = true) :
    (r.register id own factory now).value =
      (.ok (.refused (Meter.idle id)), r) := by
  simp only [register, hclosed, ↓reduceIte]

theorem register_of_found (hopen : r.closed = false) {reference : Nat}
    {existing : Meter}
    (hfind : r.find? (mapByAll r.filters id).key = some reference)
    (hget : r.get? (mapByAll r.filters id).key = some existing)
    (hkind : existing.kind = id.kind) :
    (r.register id own factory now).value = (.ok (.made reference), r) := by
  simp only [register, hopen, Bool.false_eq_true, ↓reduceIte, hfind, hget,
    hkind]

theorem register_of_conflict (hopen : r.closed = false) {reference : Nat}
    {existing : Meter}
    (hfind : r.find? (mapByAll r.filters id).key = some reference)
    (hget : r.get? (mapByAll r.filters id).key = some existing)
    (hkind : existing.kind ≠ id.kind) :
    (r.register id own factory now).value =
      (.error (.kindConflict existing.id existing.kind id.kind), r) := by
  simp only [register, hopen, Bool.false_eq_true, ↓reduceIte, hfind, hget,
    hkind, refuseKind]

theorem register_of_denied (hopen : r.closed = false)
    (hnew : r.get? (mapByAll r.filters id).key = none)
    (hdenied : firstVerdict? r.filters (mapByAll r.filters id) =
      some .deny) :
    (r.register id own factory now).value =
      (.ok (.refused (Meter.idle (mapByAll r.filters id))),
        { r with
          filters := (admitByAll r.filters (mapByAll r.filters id)).value.2 })
      := by
  have hadmit := admitByAll_eq r.filters (mapByAll r.filters id)
  rw [hdenied] at hadmit
  cases hfind : r.find? (mapByAll r.filters id).key <;>
    simp only [register, hopen, Bool.false_eq_true, ↓reduceIte, hfind, hnew,
      hadmit, ne_eq, not_true_eq_false, decide_false]

/-- A new meter that is admitted is made by the factory, from the settings as
they are resolved under its final identity. -/
theorem register_of_new (hopen : r.closed = false)
    (hnew : r.get? (mapByAll r.filters id).key = none)
    (hadmitted : firstVerdict? r.filters (mapByAll r.filters id) ≠
      some .deny) :
    let asked := { r with
      filters := (admitByAll r.filters (mapByAll r.filters id)).value.2 }
    (r.register id own factory now).value =
      match factory (mapByAll r.filters id)
        (r.resolveConfig id.kind (mapByAll r.filters id) own) r.config now with
      | .error error => (.error error, asked)
      | .ok meter =>
          (.ok (.made r.made.size),
            enter asked (mapByAll r.filters id) meter) := by
  intro asked
  have hadmit := admitByAll_eq r.filters (mapByAll r.filters id)
  have hresolve : asked.resolveConfig id.kind (mapByAll r.filters id) own =
      r.resolveConfig id.kind (mapByAll r.filters id) own := by
    simp only [resolveConfig, asked, adjustByAll_admitByAll]
  rw [← hresolve]
  cases hfind : r.find? (mapByAll r.filters id).key <;>
    simp only [asked, register, hopen, Bool.false_eq_true, ↓reduceIte, hfind,
      hnew, hadmit, hadmitted, ne_eq, not_false_eq_true, decide_true] <;>
    split <;> rename_i heq <;> rw [heq]

end Registering

/-! ### Registering by kind -/

/-- The identity of a registration by kind after all filters. -/
def finalId (r : Registry) (b : Blueprint Source) (id : Id) : Id :=
  mapByAll r.filters (id.withKind b.kind)

/-- How a registration by kind can end, with the condition of each end.  The
filters that are asked may remember what they judged. -/
inductive Registration (r : Registry) (b : Blueprint Source) (id : Id)
    (own : DistributionSettings) (now : Int) :
    Except RegistrationError MeterHandle → Registry → Prop
  /-- A closed registry hands out a meter that measures nothing. -/
  | closed (hclosed : r.closed = true) :
      Registration r b id own now
        (.ok (.refused (Meter.idle (id.withKind b.kind)))) r
  /-- The meter of that name and tags is found, whatever the factory. -/
  | found {reference : Nat} {existing : Meter} (hopen : r.closed = false)
      (hfind : r.find? (r.finalId b id).key = some reference)
      (hget : r.get? (r.finalId b id).key = some existing)
      (hkind : existing.kind = b.kind)
      (hfactory : ∀ factory, (r.register (id.withKind b.kind) own factory
        now).value = (.ok (.made reference), r)) :
      Registration r b id own now (.ok (.made reference)) r
  /-- A meter of that name and tags is of another kind, whatever the
  factory. -/
  | conflict {existing : Meter} (hopen : r.closed = false)
      (hget : r.get? (r.finalId b id).key = some existing)
      (hkind : existing.kind ≠ b.kind)
      (hfactory : ∀ factory, (r.register (id.withKind b.kind) own factory
        now).value =
          (.error (.kindConflict existing.id existing.kind b.kind), r)) :
      Registration r b id own now
        (.error (.kindConflict existing.id existing.kind b.kind)) r
  /-- The first filter with an opinion denies. -/
  | denied (filters : List Filter) (hopen : r.closed = false)
      (hnew : r.get? (r.finalId b id).key = none)
      (hdenied : firstVerdict? r.filters (r.finalId b id) = some .deny) :
      Registration r b id own now
        (.ok (.refused (Meter.idle (r.finalId b id))))
        { r with filters := filters }
  /-- The distribution configuration is refused. -/
  | failed (filters : List Filter) (cause : DistributionError)
      (hopen : r.closed = false)
      (hnew : r.get? (r.finalId b id).key = none)
      (hadmitted : firstVerdict? r.filters (r.finalId b id) ≠ some .deny) :
      Registration r b id own now
        (.error (.distribution (r.finalId b id) cause))
        { r with filters := filters }
  /-- A new meter enters. -/
  | fresh (filters : List Filter) (meter : Meter) (hopen : r.closed = false)
      (hnew : r.find? (r.finalId b id).key = none)
      (hadmitted : firstVerdict? r.filters (r.finalId b id) ≠ some .deny)
      (hid : meter.id = r.finalId b id) (hkind : meter.kind = b.kind)
      (hmeasures : meter.instrument.isIdle? ≠ some true) :
      Registration r b id own now (.ok (.made r.made.size))
        (enter { r with filters := filters } (r.finalId b id) meter)

/-- A registration by kind that does not hand out a refused meter ends as the
plain one does. -/
theorem add_of_register {r : Registry} {b : Blueprint Source} {id : Id}
    {own : DistributionSettings} {now : Int}
    {outcome : Except RegistrationError MeterHandle} {next : Registry}
    (hregister : (r.register (id.withKind b.kind) own b.buildTyped now).value =
      (outcome, next))
    (hrefused : ∀ meter, outcome = .ok (.refused meter) →
      meter.kind = b.kind) :
    (r.add b id own now).value = (outcome, next) := by
  simp only [add, hregister]
  split
  · rw [if_pos (hrefused _ rfl)]
  · rfl

/-- What the factory of a registration by kind makes. -/
theorem fits_of_buildTyped {b : Blueprint Source} {id : Id}
    {config : DistributionSettings} {c : RegistrySettings} {now : Int}
    {meter : Meter} (hmade : b.buildTyped id config c now = .ok meter) :
    meter.id = id ∧ meter.kind = b.kind ∧
      meter.instrument.isIdle? ≠ some true := by
  obtain ⟨instrument, hinstrument, rfl⟩ := Blueprint.buildTyped_eq_ok hmade
  exact ⟨rfl, Blueprint.instrument_fits hinstrument⟩

/-- Every registration by kind ends in one of these ways. -/
theorem registration_add {r : Registry} (hr : r.WellFormed)
    (hkinds : KeepKinds r.filters) (b : Blueprint Source) (id : Id)
    (own : DistributionSettings) (now : Int) :
    r.Registration b id own now (r.add b id own now).value.1
      (r.add b id own now).value.2 := by
  -- It is enough to know the plain registration, whose refusals keep the kind.
  suffices hplain : ∃ outcome next,
      (r.register (id.withKind b.kind) own b.buildTyped now).value =
        (outcome, next) ∧
      (∀ meter, outcome = .ok (.refused meter) → meter.kind = b.kind) ∧
      r.Registration b id own now outcome next by
    obtain ⟨outcome, next, hregister, hrefused, hends⟩ := hplain
    rw [add_of_register hregister hrefused]
    exact hends
  have hfinal : (r.finalId b id).kind = b.kind := hkinds _
  cases hopen : r.closed with
  | true =>
      refine ⟨_, _, register_of_closed _ own _ now hopen, ?_, .closed hopen⟩
      rintro meter ⟨⟩
      exact Meter.kind_idle _
  | false =>
      cases hget : r.get? (r.finalId b id).key with
      | some existing =>
          obtain ⟨reference, hfind, _⟩ := Option.bind_eq_some_iff.mp hget
          by_cases hkind : existing.kind = b.kind
          · have hregister := fun factory => register_of_found
              (id.withKind b.kind) own factory now hopen hfind hget hkind
            exact ⟨_, _, hregister _, by simp,
              .found hopen hfind hget hkind hregister⟩
          · have hregister := fun factory => register_of_conflict
              (id.withKind b.kind) own factory now hopen hfind hget hkind
            exact ⟨_, _, hregister _, by simp,
              .conflict hopen hget hkind hregister⟩
      | none =>
          have hnew := hr.get?_eq_none hget
          by_cases hdenied :
              firstVerdict? r.filters (r.finalId b id) = some .deny
          · have hregister := register_of_denied (id.withKind b.kind) own
              b.buildTyped now hopen hget hdenied
            refine ⟨_, _, hregister, ?_, .denied _ hopen hget hdenied⟩
            rintro meter ⟨⟩
            exact (Meter.kind_idle _).trans hfinal
          · have hregister := register_of_new (id.withKind b.kind) own
              b.buildTyped now hopen hget hdenied
            cases hmade : b.buildTyped (r.finalId b id)
                (r.resolveConfig (id.withKind b.kind).kind (r.finalId b id) own)
                r.config now with
            | error error =>
                obtain ⟨cause, rfl⟩ := Blueprint.buildTyped_error hmade
                simp only [finalId] at hmade
                rw [hmade] at hregister
                exact ⟨_, _, hregister, by simp,
                  .failed _ cause hopen hget hdenied⟩
            | ok meter =>
                obtain ⟨hid, hkind, hmeasures⟩ := fits_of_buildTyped hmade
                simp only [finalId] at hmade
                rw [hmade] at hregister
                exact ⟨_, _, hregister, by simp,
                  .fresh _ meter hopen hnew hdenied hid hkind hmeasures⟩

namespace Registration

variable {r next : Registry} {b : Blueprint Source} {id : Id}
  {own : DistributionSettings} {now : Int}
  {outcome : Except RegistrationError MeterHandle}

/-- A registration touches no other name and tags. -/
theorem get?_of_ne (h : r.Registration b id own now outcome next)
    (hr : r.WellFormed) {key : MeterKey} (hkey : key ≠ (r.finalId b id).key) :
    next.get? key = r.get? key := by
  cases h with
  | fresh filters meter hopen hnew =>
      have hfind : (enter { r with filters := filters } (r.finalId b id)
          meter).find? key = r.find? key := by
        rw [find?_enter { r with filters := filters } _ meter hnew,
          if_neg hkey]
        rfl
      rw [get?, get?, hfind]
      cases hreference : r.find? key with
      | none => rfl
      | some reference =>
          have hlt := hr.lt_size _ (mem_entries_of_find? hreference)
          simp only [Option.bind_some, enter, Array.getElem?_push]
          rw [if_neg (Nat.ne_of_lt hlt)]
  | _ => rfl

/-- What a registration hands out as made is what is registered under the
final identity. -/
theorem get?_of_made (h : r.Registration b id own now outcome next)
    {reference : Nat} (hmade : outcome = .ok (.made reference)) :
    ∃ meter, next.made[reference]? = some meter ∧
      next.get? (r.finalId b id).key = some meter ∧ meter.kind = b.kind := by
  cases h with
  | found hopen hfind hget hkind =>
      cases hmade
      refine ⟨_, ?_, hget, hkind⟩
      rw [get?, hfind] at hget
      exact hget
  | fresh filters meter hopen hnew hadmitted hid hkind =>
      cases hmade
      refine ⟨meter, by simp [enter], ?_, hkind⟩
      simp only [get?, find?_enter { r with filters := filters } _ meter hnew,
        ↓reduceIte]
      simp [enter]
  | _ => cases hmade

/-- An open registry does not hand out a meter of another kind. -/
theorem outcome_of_kind_ne (h : r.Registration b id own now outcome next)
    (hopen : r.closed = false) {existing : Meter}
    (hget : r.get? (r.finalId b id).key = some existing)
    (hkind : existing.kind ≠ b.kind) :
    outcome = .error (.kindConflict existing.id existing.kind b.kind) := by
  cases h with
  | closed hclosed => rw [hopen] at hclosed; cases hclosed
  | found _ _ hfound hsame =>
      rw [hget] at hfound
      cases hfound
      exact absurd hsame hkind
  | conflict _ hfound =>
      rw [hget] at hfound
      cases hfound
      rfl
  | denied _ _ hnew => rw [hget] at hnew; cases hnew
  | failed _ _ _ hnew => rw [hget] at hnew; cases hnew
  | fresh _ _ _ hnew => rw [get?, hnew] at hget; cases hget

end Registration

end Registry

end WindowedMetrics
