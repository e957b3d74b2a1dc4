/-
What one command does to a session.  It may add a filter, register a meter, or
put meters to use at the wall time that it ends at; what it measures is what
these uses bring to each meter.
-/
import WindowedMetrics.Proofs.Registry.Uses
import WindowedMetrics.Proofs.Session.Recording

namespace WindowedMetrics

/-- The amounts of a meter, in the order of their measurement. -/
def Recorded.amountsOf (record : List Recorded) (meter : Nat) : List Float :=
  (record.filter fun e => decide (e.meter = meter)).map Recorded.amount

theorem Recorded.amountsOf_append (record more : List Recorded)
    (meter : Nat) :
    amountsOf (record ++ more) meter =
      amountsOf record meter ++ amountsOf more meter := by
  simp [amountsOf]

theorem Recorded.amountsOf_ofMeter (meter : Nat) (wall : Int)
    (amounts : List Float) :
    amountsOf (ofMeter meter wall amounts) =
      fun other => if other = meter then amounts else [] := by
  funext other
  by_cases heq : other = meter
  · simp [amountsOf, ofMeter, heq, List.filter_map, Function.comp_def]
  · have hne : meter ≠ other := fun hmeter => heq hmeter.symm
    simp [amountsOf, ofMeter, heq, hne]

theorem Recorded.amountsOf_eq_nil {record : List Recorded} {meter : Nat}
    (hother : ∀ e ∈ record, e.meter ≠ meter) : amountsOf record meter = [] := by
  simpa [amountsOf] using hother

/-- The registrations that a command can ask for: by the kind of a blueprint,
or with the identity as it is. -/
inductive Command.Registers : Command → Id → Blueprint Source →
    MeterFactory → Prop
  | typed (name : String) (id : Id) (parts : Blueprint SourceRequest)
      (config : DistributionSettings) (b : Blueprint Source)
      (hkind : b.kind = parts.kind) :
      Registers (.registry (.add name id parts config)) (id.withKind b.kind)
        b b.buildTyped
  | plain (name : String) (id : Id) (parts : Blueprint SourceRequest)
      (config : DistributionSettings) (b : Blueprint Source)
      (hkind : b.kind = parts.kind) :
      Registers (.registry (.register name id parts config)) id b b.build

/-- A registered meter has an instrument of the blueprint. -/
theorem Command.Registers.built {c : Command} {id : Id}
    {b : Blueprint Source} {factory : MeterFactory}
    (h : c.Registers id b factory) {final : Id} {own : DistributionSettings}
    {config : RegistrySettings} {now : Int} {meter : Meter}
    (hmade : factory final own config now = .ok meter) :
    ∃ settings instrument,
      b.instrument settings config now = .ok instrument ∧
      meter = ⟨final, now, instrument⟩ := by
  cases h with
  | typed name id parts config hkind =>
      obtain ⟨instrument, hinstrument, rfl⟩ := Blueprint.buildTyped_eq_ok hmade
      exact ⟨_, instrument, hinstrument, rfl⟩
  | plain name id parts config hkind =>
      unfold Blueprint.build at hmade
      split at hmade
      · cases hmade
      · rename_i instrument hinstrument
        cases hmade
        exact ⟨own, instrument, hinstrument, rfl⟩

/-- What a command can do to a registry. -/
inductive Registry.Changed (r : Registry) (c : Command) (now : Int)
    (brought : Nat → List Float) : Registry → Prop
  | used {next : Registry}
      (h : r.Used now brought (c.keepsOpen = false) next) :
      Changed r c now brought next
  | filtered (filter : Filter)
      (hcommand : c = .registry (.appendFilter filter))
      (hnothing : brought = fun _ => []) :
      Changed r c now brought { r with filters := r.filters ++ [filter] }
  | registered {id : Id} {b : Blueprint Source} {factory : MeterFactory}
      {next : Registry} (hcommand : c.Registers id b factory)
      (hnothing : brought = fun _ => [])
      (h : r.Registered id factory now next) :
      Changed r c now brought next

/-- A meter after a command: one that was made before and was put to uses, or
a new one that no amounts were brought to. -/
inductive Registry.Became (r : Registry) (now : Int) (amounts : List Float)
    (closing : Prop) (reference : Nat) (after : Meter) : Prop
  | used (meter : Meter) (hmeter : r.made[reference]? = some meter)
      (h : meter.Used now amounts closing after)
  | new (id : Id) (b : Blueprint Source) (own : DistributionSettings)
      (instrument : Instrument) (hreference : reference = r.made.size)
      (hinstrument : b.instrument own r.config now = .ok instrument)
      (hafter : after = ⟨id, now, instrument⟩) (hnothing : amounts = [])

namespace Registry.Changed

variable {r next : Registry} {c : Command} {now : Int}
  {brought : Nat → List Float}

theorem config_eq (h : r.Changed c now brought next) :
    next.config = r.config := by
  cases h with
  | used hused => exact hused.config_eq
  | filtered => rfl
  | registered _ _ hregistered => cases hregistered <;> rfl

theorem size_le (h : r.Changed c now brought next) :
    r.made.size ≤ next.made.size := by
  cases h with
  | used hused => exact Nat.le_of_eq hused.size_eq.symm
  | filtered => exact Nat.le_refl _
  | registered _ _ hregistered =>
      cases hregistered with
      | same => exact Nat.le_refl _
      | entered => simp [Registry.enter]

theorem wellFormed (h : r.Changed c now brought next) (hr : r.WellFormed) :
    next.WellFormed := by
  cases h with
  | used hused => exact hused.wellFormed hr
  | filtered => exact ⟨hr.lt_size, hr.references_nodup⟩
  | registered _ _ hregistered => exact hr.registered hregistered

/-- Only a new meter is newly registered. -/
theorem mem_references (h : r.Changed c now brought next) {reference : Nat}
    (hreference : reference ∈ next.references)
    (hmade : reference < r.made.size) : reference ∈ r.references := by
  cases h with
  | used hused =>
      exact (hused.entries_sublist.map Prod.snd).subset hreference
  | filtered => exact hreference
  | registered _ _ hregistered =>
      cases hregistered with
      | same => exact hreference
      | entered filters meter own =>
          simp only [references, Registry.enter, List.map_append,
            List.map_cons, List.map_nil, List.mem_append,
            List.mem_singleton] at hreference
          exact hreference.resolve_right (Nat.ne_of_lt hmade)

theorem meters (h : r.Changed c now brought next) (reference : Nat)
    (after : Meter) (hafter : next.made[reference]? = some after) :
    r.Became now (brought reference) (c.keepsOpen = false) reference
      after := by
  have hsame : brought = (fun _ => []) →
      r.made[reference]? = some after →
      r.Became now (brought reference) (c.keepsOpen = false) reference
        after := by
    rintro rfl hmeter
    exact .used after hmeter (.refl after now _)
  cases h with
  | used hused =>
      obtain ⟨meter, hmeter, hchange⟩ := hused.meters reference after hafter
      exact .used meter hmeter hchange
  | filtered filter hcommand hnothing => exact hsame hnothing hafter
  | registered hcommand hnothing hregistered =>
      cases hregistered with
      | same => exact hsame hnothing hafter
      | entered filters meter own hmap hnew hmade =>
          simp only [Registry.enter, Array.getElem?_push] at hafter
          by_cases heq : reference = r.made.size
          · rw [if_pos heq] at hafter
            cases hafter
            obtain ⟨settings, instrument, hinstrument, rfl⟩ :=
              hcommand.built hmade
            exact .new _ _ settings instrument heq hinstrument rfl
              (congrFun hnothing reference)
          · rw [if_neg heq] at hafter
            exact hsame hnothing hafter

end Registry.Changed

namespace Session

/-- What a command does to a session. -/
structure Effect (s : Session) (c : Command) (next : Session) : Prop where
  exporter_eq : next.exporter = s.exporter
  registry : s.registry.Changed c next.clock.wall
    (Recorded.amountsOf (s.measured c)) next.registry

/-- Another session at the same time whose meters were put to use. -/
structure Serves (s : Session) (brought : Nat → List Float) (closing : Prop)
    (next : Session) : Prop where
  exporter_eq : next.exporter = s.exporter
  clock_eq : next.clock = s.clock
  registry : s.registry.Used s.clock.wall brought closing next.registry

namespace Serves

variable {s next : Session} {brought : Nat → List Float} {closing : Prop}

theorem refl (s : Session) (closing : Prop) :
    s.Serves (fun _ => []) closing s :=
  ⟨rfl, rfl, .refl _ _ _⟩

/-- A command that amounts to a command on a meter. -/
theorem effect_measuredOn {c : Command} {name : String}
    {command : MeterCommand} (hcommand : s.meterCommand? c =
      some (name, command))
    (h : s.Serves (Recorded.amountsOf
      (s.measuredOn name command s.clock.wall)) (c.keepsOpen = false)
      (s.perform c).value.2) :
    s.Effect c (s.perform c).value.2 := by
  refine ⟨h.exporter_eq, .used ?_⟩
  simp only [measured, hcommand, h.clock_eq]
  exact h.registry

/-- A command that measures nothing. -/
theorem effect_nothing {c : Command} (hcommand : s.meterCommand? c = none)
    (h : s.Serves (fun _ => []) (c.keepsOpen = false)
      (s.perform c).value.2) :
    s.Effect c (s.perform c).value.2 := by
  refine ⟨h.exporter_eq, .used ?_⟩
  simp only [measured, hcommand, h.clock_eq]
  exact h.registry

/-! ### Commands on meters -/

theorem onMeter (s : Session) (name : String) (c : MeterCommand)
    {op : Meter → Option (Answer × Meter)}
    (hop : ∀ (meter : Meter) answer after, op meter = some (answer, after) →
      meter.Used s.clock.wall ((meter.amounts c).filter isAccepted) closing
        after)
    (hnone : ∀ meter : Meter, op meter = none → meter.amounts c = []) :
    s.Serves (Recorded.amountsOf (s.measuredOn name c s.clock.wall)) closing
      (s.onMeter name op).value.2 := by
  unfold Session.onMeter Session.meter? measuredOn
  cases hhandle : s.handle? name with
  | none => exact refl s closing
  | some handle =>
      simp only [Option.bind_some]
      cases handle with
      | refused own =>
          simp only [Registry.meterOf?]
          cases op own with
          | none => exact refl s closing
          | some result =>
              obtain ⟨answer, after⟩ := result
              simp only [Session.answer, Session.put, tick, Registry.put]
              exact ⟨rfl, rfl, .refl _ _ _⟩
      | made reference =>
          simp only [Registry.meterOf?]
          cases hmeter : s.registry.made[reference]? with
          | none => exact refl s closing
          | some meter =>
              simp only
              cases hresult : op meter with
              | none =>
                  rw [hnone meter hresult]
                  exact refl s closing
              | some result =>
                  obtain ⟨answer, after⟩ := result
                  rw [Recorded.amountsOf_ofMeter]
                  have hused := hop meter answer after hresult
                  simp only [Session.answer, Session.put, tick]
                  exact ⟨rfl, rfl, Registry.Used.put hmeter hused⟩

/-- Recording durations on a timer, whatever the answer. -/
theorem onTimer (s : Session) (name : String) {m : Moment}
    (hnow : m.now = s.clock.wall) (durations : List Duration)
    (nanos : List Nat) (answer : Answer) (closing : Prop) :
    s.Serves (Recorded.amountsOf (s.measuredOn name
        (.recordDurations durations nanos) s.clock.wall)) closing
      (s.onMeter name fun meter =>
        (meter.recordNanos? m
          (durations.map Meter.recordableNanos ++ nanos)).map fun meter =>
            (answer, meter)).value.2 := by
  apply onMeter
  · intro meter _ after hdone
    obtain ⟨recorded, hrecorded, heq⟩ := Option.map_eq_some_iff.mp hdone
    cases heq
    rw [← hnow]
    exact Meter.Used.recordNanos? hrecorded
  · intro meter hnone
    have hperform : Session.performOn m meter
        (.recordDurations durations nanos) = none := by
      rw [Option.map_eq_none_iff] at hnone
      simp only [Session.performOn, hnone, Option.map_none]
    exact Meter.amounts_of_performOn_eq_none hperform

/-- Stopping what was started measures it if it did start and there is a
timer. -/
theorem stopOn (s : Session) (name : String) (start : Option Int)
    {consume : Session → Session}
    (hconsume : ∃ samples scope,
      consume s = { s with samples := samples, scope := scope })
    (closing : Prop) :
    s.Serves (match start with
        | some start => Recorded.amountsOf (s.measuredOn name
            (.recordDurations [s.clock.since start] []) s.clock.wall)
        | none => fun _ => []) closing
      (s.stopOn name start consume).value.2 := by
  obtain ⟨samples, scope, hconsume⟩ := hconsume
  have hnothing : (∀ meter, s.meter? name = some meter →
        meter.kind ≠ .timer) → s.Serves (match start with
        | some start => Recorded.amountsOf (s.measuredOn name
            (.recordDurations [s.clock.since start] []) s.clock.wall)
        | none => fun _ => []) closing s := by
    intro hkind
    cases start with
    | none => exact refl s closing
    | some start =>
        simp only
        rw [measuredOn_eq_nil_of_kind_ne hkind]
        exact refl s closing
  unfold Session.stopOn
  cases hmeter : s.meter? name with
  | none => exact hnothing (by simp [hmeter])
  | some meter =>
      simp only
      by_cases hkind : meter.kind = .timer
      · rw [if_pos hkind]
        cases start with
        | none => exact refl s closing
        | some start =>
            have htimer := onTimer { s with
                samples := samples, scope := scope } name (m := s.moment) rfl
              [s.clock.since start] []
              (.elapsed (some (s.clock.since start))) closing
            simp only [hconsume]
            exact ⟨htimer.exporter_eq, htimer.clock_eq, htimer.registry⟩
      · rw [if_neg hkind]
        apply hnothing
        intro other hother
        rw [hmeter] at hother
        exact Option.some.inj hother ▸ hkind

theorem startTask (s : Session) (name task : String) (closing : Prop) :
    s.Serves (fun _ => []) closing
      (s.performSample (.startTask name task)).value.2 := by
  simp only [Session.performSample, meter?]
  cases s.handle? name with
  | none => exact refl s closing
  | some handle =>
      simp only [Option.bind_some]
      cases hmeter : s.registry.meterOf? handle with
      | none => exact refl s closing
      | some meter =>
          simp only
          cases hstart : meter.startTask? s.clock with
          | none => exact refl s closing
          | some started =>
              obtain ⟨sample, after⟩ := started
              exact ⟨rfl, rfl,
                .put_handle hmeter (.startTask? hstart s.clock.wall)⟩

theorem stopTask (s : Session) (task : String) (closing : Prop) :
    s.Serves (fun _ => []) closing
      (s.performSample (.stopTask task)).value.2 := by
  simp only [Session.performSample]
  cases s.tasks.lookup task with
  | none => exact refl s closing
  | some running =>
      simp only
      cases running.sample with
      | none => exact ⟨rfl, rfl, .refl _ _ _⟩
      | some sample =>
          cases hmeter : s.registry.meterOf? running.timer with
          | none => exact ⟨rfl, rfl, .refl _ _ _⟩
          | some meter =>
              exact ⟨rfl, rfl, .put_handle hmeter (.stopTask meter closing
                s.clock sample s.clock.wall)⟩

/-! ### Commands on the exporter -/

theorem performExporter (s : Session) (c : ExportCommand) :
    s.Serves (fun _ => []) ((Command.exporter c).keepsOpen = false)
      (s.performExporter c).value.2 := by
  cases c with
  | convert names temporality unit step =>
      exact ⟨rfl, rfl, .convertHandles _ s.registry s.moment _ _⟩
  | batch => exact ⟨rfl, rfl, .batch s.exporter s.registry s.moment _⟩
  | batchNamed name => exact ⟨rfl, rfl, .batch s.exporter s.registry s.moment _⟩
  | log => exact ⟨rfl, rfl, .batch s.exporter s.registry s.moment _⟩
  | publish failure =>
      exact ⟨rfl, rfl, .publish s.exporter s.registry s.moment _ _⟩
  | runPublisher wakes =>
      simp only [Session.performExporter]
      split
      · exact refl s _
      · exact ⟨rfl, rfl,
          .runPublisher s.exporter s.registry s.moment wakes rfl⟩

end Serves

/-! ### Commands on the registry -/

/-- Binding an outcome keeps the registry that came with it. -/
theorem bindOutcome_keeps (s : Session) (name : String)
    (done : Logged (Except RegistrationError MeterHandle × Registry)) :
    (s.bindOutcome name done).value.2.registry = done.value.2 ∧
      (s.bindOutcome name done).value.2.exporter = s.exporter ∧
      (s.bindOutcome name done).value.2.clock = s.clock := by
  unfold bindOutcome
  simp only
  split <;> exact ⟨rfl, rfl, rfl⟩

theorem kind_resolve (t : CellTable) (parts : Blueprint SourceRequest) :
    (t.resolve parts).1.kind = parts.kind := by
  cases parts <;> rfl

/-- A command that registers a meter. -/
theorem effect_registered {s : Session} {c : Command} {id : Id}
    {b : Blueprint Source} {factory : MeterFactory} {name : String}
    {cells : CellTable}
    {done : Logged (Except RegistrationError MeterHandle × Registry)}
    (hperform : s.perform c = { s with cells := cells }.bindOutcome name done)
    (hcommand : c.Registers id b factory) (hmeasures : s.measured c = [])
    (hdone : s.registry.Registered id factory s.clock.wall done.value.2) :
    s.Effect c (s.perform c).value.2 := by
  obtain ⟨hregistry, hexporter, hclock⟩ :=
    bindOutcome_keeps { s with cells := cells } name done
  rw [← hperform] at hregistry hexporter hclock
  refine ⟨hexporter, .registered hcommand ?_ ?_⟩
  · rw [hmeasures]
    rfl
  · rw [hregistry, hclock]
    exact hdone

theorem effect_performRegistry {s : Session} (hs : s.registry.WellFormed)
    (c : RegistryCommand) :
    s.Effect (.registry c) (s.perform (.registry c)).value.2 := by
  have hremove : ∀ key, s.registry.Served s.clock.wall (false = false)
      (s.registry.remove key s.surroundings).value.2 := by
    intro key
    have haround : ∀ used, (s.surroundings used).now = s.clock.wall :=
      fun _ => rfl
    exact .remove haround rfl s.registry key
  cases c with
  | appendFilter filter => exact ⟨rfl, .filtered filter rfl rfl⟩
  | add name id parts own =>
      refine effect_registered rfl
        (.typed name id parts own _ (kind_resolve s.cells parts)) rfl ?_
      exact Registry.registered_add hs _ _ _ _
  | register name id parts own =>
      refine effect_registered rfl
        (.plain name id parts own _ (kind_resolve s.cells parts)) rfl ?_
      exact Registry.registered_register hs _ _ _ _
  | refuse name id =>
      obtain ⟨hregistry, hexporter, hclock⟩ := bindOutcome_keeps s name
        ⟨(.ok (.refused (Meter.idle id)), s.registry), []⟩
      refine Serves.effect_nothing rfl ⟨hexporter, hclock, ?_⟩
      exact (Registry.Used.refl _ _ _).congr
        (congrArg Registry.config hregistry)
        (congrArg Registry.filters hregistry)
        (congrArg Registry.made hregistry)
        (congrArg Registry.entries hregistry)
  | remove id => exact Serves.effect_nothing rfl ⟨rfl, rfl, hremove id.key⟩
  | removeFiltered id =>
      exact Serves.effect_nothing rfl ⟨rfl, rfl, hremove _⟩
  | clear =>
      exact Serves.effect_nothing rfl ⟨rfl, rfl,
        .clear s.registry s.moment rfl⟩
  | close =>
      exact Serves.effect_nothing rfl ⟨rfl, rfl, .close s.registry _ _⟩
  | rolloverAll =>
      exact Serves.effect_nothing rfl ⟨rfl, rfl,
        .rolloverAll s.registry s.moment _⟩
  | closeAll =>
      exact Serves.effect_nothing rfl ⟨rfl, rfl,
        .closeAll s.registry s.moment rfl⟩
  | _ => exact Serves.effect_nothing rfl (.refl s _)

/-! ### All together -/

/-- What is timed counts at the end of the time. -/
theorem effect_recordRun (s : Session) (name : String) (elapsed : Duration) :
    s.Effect (.recordRun name elapsed)
      (s.perform (.recordRun name elapsed)).value.2 := by
  have hnothing : (∀ meter, s.meter? name = some meter →
        meter.kind ≠ .timer) → s.Effect (.recordRun name elapsed) s := by
    intro hkind
    refine ⟨rfl, .used ?_⟩
    simp only [measured, meterCommand?]
    rw [measuredOn_eq_nil_of_kind_ne hkind]
    exact .refl _ _ _
  simp only [Session.perform, Session.recordRun]
  cases hmeter : s.meter? name with
  | none => exact hnothing (by simp [hmeter])
  | some meter =>
      simp only
      by_cases hkind : meter.kind = .timer
      · rw [if_pos hkind]
        have htimer := Serves.onTimer
          { s with clock := s.clock.advance elapsed } name
          (m := Session.moment { s with clock := s.clock.advance elapsed }) rfl
          [] [((s.clock.advance elapsed).since s.clock.monotonic).nanos]
          .returned ((Command.recordRun name elapsed).keepsOpen = false)
        refine ⟨htimer.exporter_eq, .used ?_⟩
        simp only [measured, meterCommand?, Session.perform,
          Session.recordRun, hmeter, hkind, ↓reduceIte, clock_onMeter]
        exact htimer.registry
      · rw [if_neg hkind]
        apply hnothing
        intro other hother
        rw [hmeter] at hother
        exact Option.some.inj hother ▸ hkind

/-- A command that stops what was started measures it if it did start. -/
theorem effect_stopOn {s : Session} {c : SampleCommand} {name : String}
    {start : Option Int} (consume : Session → Session)
    (hperform : s.performSample c = s.stopOn name start consume)
    (hcommand : s.meterCommand? (.sample c) = start.map fun start =>
      (name, .recordDurations [s.clock.since start] []))
    (hconsume : ∃ samples scope,
      consume s = { s with samples := samples, scope := scope }) :
    s.Effect (.sample c) (s.perform (.sample c)).value.2 := by
  have hstop := Serves.stopOn s name start hconsume
    ((Command.sample c).keepsOpen = false)
  rw [← hperform] at hstop
  cases start with
  | none => exact hstop.effect_nothing hcommand
  | some start => exact hstop.effect_measuredOn hcommand

theorem effect_performSample (s : Session) (c : SampleCommand) :
    s.Effect (.sample c) (s.perform (.sample c)).value.2 := by
  cases c with
  | stop sample name =>
      exact effect_stopOn
        (fun s => { s with samples := unbind s.samples sample }) rfl rfl
        ⟨_, _, rfl⟩
  | popScope name =>
      exact effect_stopOn (fun s => { s with scope := s.scope.drop 1 })
        rfl rfl ⟨_, _, rfl⟩
  | startTask name task =>
      exact (Serves.startTask s name task _).effect_nothing rfl
  | stopTask task => exact (Serves.stopTask s task _).effect_nothing rfl
  | _ => exact Serves.effect_nothing rfl ⟨rfl, rfl, .refl _ _ _⟩

/-- What every command does. -/
theorem effect_perform {s : Session} (hs : s.registry.WellFormed)
    (c : Command) : s.Effect c (s.perform c).value.2 := by
  cases c with
  | advance elapsed => exact ⟨rfl, .used (.refl _ _ _)⟩
  | setWall wall => exact ⟨rfl, .used (.refl _ _ _)⟩
  | registry command => exact effect_performRegistry hs command
  | meter name command =>
      have hcommand : s.meterCommand? (.meter name command) =
          some (name, command) := rfl
      apply Serves.effect_measuredOn hcommand
      apply Serves.onMeter
      · intro meter answer after hdone
        refine Meter.Used.performOn ?_ hdone
        rintro rfl
        rfl
      · intro meter hnone
        exact Meter.amounts_of_performOn_eq_none hnone
  | recordRun name elapsed => exact effect_recordRun s name elapsed
  | sample command => exact effect_performSample s command
  | exporter command =>
      exact (Serves.performExporter s command).effect_nothing rfl
  | _ => exact Serves.effect_nothing rfl ⟨rfl, rfl, .refl _ _ _⟩

end Session

end WindowedMetrics
