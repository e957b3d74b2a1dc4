/-
What an application gets to see of metrics.  In every run, each data point of
each answer is one that a built meter owed.
-/
import WindowedMetrics.Proofs.Registry.Provenance
import WindowedMetrics.Proofs.Session.Effect

namespace WindowedMetrics

/-- The metrics that an answer shows. -/
def Answer.exported : Answer → List Metric
  | .metrics _ groups => groups
  | .batch b => b.metrics
  | .published _ batches => batches.flatMap Batch.metrics
  | .publisher first last => (first ++ last.toList).flatMap Batch.metrics
  | _ => []

namespace Session

/-- All meters that the application can reach are built. -/
structure Traceable (s : Session) : Prop where
  registry : s.registry.AllBuilt
  handles : ∀ e ∈ s.handles, e.2.IsBuilt

/-- A command that shows reported points only, and goes on with built
meters. -/
structure Traced (done : Logged (Answer × Session)) : Prop where
  exported : ∀ g ∈ done.value.1.exported, g.IsReported
  session : done.value.2.Traceable

theorem traceable_create (config : RegistrySettings)
    (exporter : ExportSettings) (context : Option TraceContext) (wall : Int)
    (draws : Nat → Nat → Nat) :
    (create config exporter context wall draws).Traceable :=
  ⟨Registry.allBuilt_create config, by simp [create]⟩

/-- An answer without metrics. -/
theorem Traced.of_exported_eq_nil {done : Logged (Answer × Session)}
    (hnothing : done.value.1.exported = []) (hs : done.value.2.Traceable) :
    Traced done := by
  refine ⟨?_, hs⟩
  rw [hnothing]
  exact List.forall_mem_nil _

/-- Commands on a meter show no metrics. -/
theorem exported_performOn {m : Moment} {meter next : Meter}
    {c : MeterCommand} {answer : Answer}
    (h : performOn m meter c = some (answer, next)) :
    answer.exported = [] := by
  cases c <;> simp only [performOn, Option.map_eq_some_iff] at h <;>
    grind [Answer.exported]

namespace Traceable

variable {s : Session} (h : s.Traceable)

include h

theorem handle? {name : String} {handle : MeterHandle}
    (hhandle : s.handle? name = some handle) : handle.IsBuilt := by
  obtain ⟨before, after, hhandles, _⟩ := List.lookup_eq_some_iff.mp hhandle
  apply h.handles (name, handle)
  rw [hhandles]
  simp

theorem put (handle : MeterHandle) {meter : Meter} (hmeter : meter.IsBuilt) :
    (s.put handle meter).Traceable :=
  ⟨h.registry.put handle hmeter, h.handles⟩

theorem tick : s.tick.Traceable := by
  -- The next draw of chance is left as it is.
  simp only [Session.tick]
  exact ⟨h.registry, h.handles⟩

/-! ### Commands on meters -/

theorem onMeter {name : String} {op : Meter → Option (Answer × Meter)}
    (hop : ∀ meter answer next, op meter = some (answer, next) →
      answer.exported = [] ∧ (meter.IsBuilt → next.IsBuilt)) :
    Traced (s.onMeter name op) := by
  unfold Session.onMeter Session.meter?
  cases hhandle : s.handle? name with
  | none => exact .of_exported_eq_nil rfl h
  | some handle =>
      simp only [Option.bind_some]
      cases hmeter : s.registry.meterOf? handle with
      | none => exact .of_exported_eq_nil rfl h
      | some meter =>
          simp only
          cases hresult : op meter with
          | none => exact .of_exported_eq_nil rfl h
          | some result =>
              obtain ⟨answer, next⟩ := result
              obtain ⟨hnothing, hnext⟩ := hop meter answer next hresult
              have hbuilt := h.registry.meterOf? (h.handle? hhandle) hmeter
              exact .of_exported_eq_nil hnothing
                (h.put handle (hnext hbuilt)).tick

theorem performMeter (name : String) {m : Moment} (c : MeterCommand) :
    Traced (s.onMeter name fun meter => performOn m meter c) :=
  h.onMeter fun _ _ _ hdone =>
    ⟨exported_performOn hdone, fun hmeter => hmeter.commanded hdone⟩

/-- Recording durations on a timer, whatever the answer. -/
theorem recordNanos (name : String) {m : Moment} {nanos : List Nat}
    {answer : Answer} (hnothing : answer.exported = []) :
    Traced (s.onMeter name fun meter =>
      (meter.recordNanos? m nanos).map fun meter => (answer, meter)) := by
  apply h.onMeter
  intro meter _ next hdone
  obtain ⟨recorded, hrecorded, heq⟩ := Option.map_eq_some_iff.mp hdone
  cases heq
  refine ⟨hnothing, fun hmeter => ?_⟩
  have hperform : performOn m meter (.recordDurations [] nanos) =
      some (.done, next) := by
    simp [performOn, hrecorded]
  exact hmeter.commanded hperform

theorem recordRun (name : String) (elapsed : Duration) :
    Traced (s.recordRun name elapsed) := by
  unfold Session.recordRun
  split
  · exact .of_exported_eq_nil rfl h
  · split
    · have hlater : Traceable { s with clock := s.clock.advance elapsed } :=
        ⟨h.registry, h.handles⟩
      exact hlater.recordNanos name rfl
    · exact .of_exported_eq_nil rfl h

theorem stopOn (name : String) (start : Option Int)
    {consume : Session → Session} (hconsume : (consume s).Traceable) :
    Traced (s.stopOn name start consume) := by
  unfold Session.stopOn
  split
  · exact .of_exported_eq_nil rfl h
  · split
    · split
      · exact .of_exported_eq_nil rfl h
      · exact hconsume.recordNanos name rfl
    · exact .of_exported_eq_nil rfl h

theorem startTask (name task : String) :
    Traced (s.performSample (.startTask name task)) := by
  simp only [Session.performSample, meter?]
  cases hhandle : s.handle? name with
  | none => exact .of_exported_eq_nil rfl h
  | some handle =>
      simp only [Option.bind_some]
      cases hmeter : s.registry.meterOf? handle with
      | none => exact .of_exported_eq_nil rfl h
      | some meter =>
          simp only
          cases hstart : meter.startTask? s.clock with
          | none => exact .of_exported_eq_nil rfl h
          | some started =>
              obtain ⟨sample, next⟩ := started
              have hbuilt := h.registry.meterOf? (h.handle? hhandle) hmeter
              exact .of_exported_eq_nil rfl
                ⟨h.registry.put handle (hbuilt.started hstart), h.handles⟩

/-- A task may run on a meter that is refused, which then has nothing to put
back. -/
theorem stopTask (task : String) :
    Traced (s.performSample (.stopTask task)) := by
  simp only [Session.performSample]
  cases s.tasks.lookup task with
  | none => exact .of_exported_eq_nil rfl h
  | some running =>
      simp only
      cases running.sample with
      | none => exact .of_exported_eq_nil rfl ⟨h.registry, h.handles⟩
      | some sample =>
          cases hmeter : s.registry.meterOf? running.timer with
          | none => exact .of_exported_eq_nil rfl ⟨h.registry, h.handles⟩
          | some meter =>
              refine .of_exported_eq_nil rfl ⟨?_, h.handles⟩
              simp only [Session.answer, Session.put]
              cases htimer : running.timer with
              | made reference =>
                  have htaken : running.timer.IsBuilt := by
                    rw [htimer]
                    trivial
                  have hbuilt := h.registry.meterOf? htaken hmeter
                  exact h.registry.put _ (hbuilt.stopped s.clock sample)
              | refused own => exact h.registry

theorem performSample (c : SampleCommand) : Traced (s.performSample c) := by
  cases c with
  | stop sample name =>
      apply h.stopOn
      exact ⟨h.registry, h.handles⟩
  | popScope name =>
      apply h.stopOn
      exact ⟨h.registry, h.handles⟩
  | startTask name task => exact h.startTask name task
  | stopTask task => exact h.stopTask task
  | _ => exact .of_exported_eq_nil rfl ⟨h.registry, h.handles⟩

/-! ### Commands on the registry -/

theorem bindOutcome (name : String)
    {done : Logged (Except RegistrationError MeterHandle × Registry)}
    (hregistry : done.value.2.AllBuilt)
    (hhandle : ∀ handle, done.value.1 = .ok handle → handle.IsBuilt) :
    Traced (s.bindOutcome name done) := by
  unfold Session.bindOutcome
  simp only
  split
  · exact .of_exported_eq_nil rfl ⟨hregistry, h.handles⟩
  · rename_i handle hok
    refine .of_exported_eq_nil rfl ⟨hregistry, ?_⟩
    intro e he
    rcases List.mem_append.mp he with hold | hnew
    · exact h.handles e (List.mem_filter.mp hold).1
    · rw [List.mem_singleton.mp hnew]
      exact hhandle handle hok

theorem performRegistry (hs : s.registry.WellFormed) (c : RegistryCommand) :
    Traced (s.performRegistry c) := by
  have hremove : ∀ key,
      (s.registry.remove key s.surroundings).value.2.AllBuilt :=
    fun key => h.registry.remove key
  cases c with
  | appendFilter filter =>
      exact .of_exported_eq_nil rfl ⟨h.registry, h.handles⟩
  | add name id parts own =>
      have hcells : Traceable { s with cells := (s.cells.resolve parts).2 } :=
        ⟨h.registry, h.handles⟩
      exact hcells.bindOutcome name
        (h.registry.registered (Registry.registered_add hs _ _ _ _)
          fun _ _ _ _ => Blueprint.isBuilt_buildTyped)
        fun _ => Registry.isBuilt_of_add
  | register name id parts own =>
      have hcells : Traceable { s with cells := (s.cells.resolve parts).2 } :=
        ⟨h.registry, h.handles⟩
      exact hcells.bindOutcome name
        (h.registry.registered (Registry.registered_register hs _ _ _ _)
          fun _ _ _ _ => Blueprint.isBuilt_build)
        fun _ => Registry.isBuilt_of_register
  | refuse name id =>
      let outcome : Except RegistrationError MeterHandle :=
        .ok (.refused (Meter.idle id))
      have hhandle : ∀ handle, outcome = .ok handle → handle.IsBuilt := by
        intro handle hok
        cases Except.ok.inj hok
        exact Meter.IsBuilt.idle id
      have hdone : Traced
          (s.bindOutcome name ⟨(outcome, s.registry), []⟩) :=
        h.bindOutcome name h.registry hhandle
      exact hdone
  | remove id => exact .of_exported_eq_nil rfl ⟨hremove _, h.handles⟩
  | removeFiltered id => exact .of_exported_eq_nil rfl ⟨hremove _, h.handles⟩
  | clear =>
      exact .of_exported_eq_nil rfl ⟨h.registry.clear s.moment, h.handles⟩
  | close => exact .of_exported_eq_nil rfl ⟨h.registry.close, h.handles⟩
  | rolloverAll =>
      exact .of_exported_eq_nil rfl
        ⟨h.registry.rolloverAll s.moment, h.handles⟩
  | closeAll =>
      exact .of_exported_eq_nil rfl ⟨h.registry.closeAll s.moment, h.handles⟩
  | _ => exact .of_exported_eq_nil rfl h

/-! ### Commands on the exporter -/

theorem makeBatch :
    s.makeBatch.1.IsReported ∧ s.makeBatch.2.Traceable := by
  obtain ⟨hbatch, hregistry⟩ := h.registry.batch s.exporter s.moment
  exact ⟨hbatch.sorted, hregistry, h.handles⟩

theorem performExporter (c : ExportCommand) :
    Traced (s.performExporter c) := by
  obtain ⟨hbatch, hmade⟩ := h.makeBatch
  cases c with
  | convert names temporality unit step =>
      have hhandles : ∀ handle ∈ names.filterMap s.handle?,
          handle.IsBuilt := by
        intro handle hhandle
        obtain ⟨name, _, hname⟩ := List.mem_filterMap.mp hhandle
        exact h.handle? hname
      obtain ⟨hpoints, hregistry⟩ :=
        h.registry.convertHandles _ s.moment hhandles
      exact ⟨isReported_groupPoints hpoints, hregistry, h.handles⟩
  | batch => exact ⟨hbatch, hmade⟩
  | batchNamed name =>
      exact ⟨fun g hg => hbatch g (List.mem_filter.mp hg).1, hmade⟩
  | log => exact .of_exported_eq_nil rfl hmade
  | publish failure =>
      obtain ⟨hsent, hregistry⟩ :=
        h.registry.publish s.exporter s.moment (sinkOf failure)
      refine ⟨?_, hregistry, h.handles⟩
      intro g hg
      obtain ⟨b, hb, hg⟩ := List.mem_flatMap.mp hg
      obtain ⟨unsorted, hunsorted, rfl⟩ := List.mem_map.mp hb
      exact (hsent unsorted (Option.mem_toList.mp hunsorted)).sorted g hg
  | runPublisher wakes =>
      simp only [Session.performExporter]
      split
      · exact .of_exported_eq_nil rfl h
      · obtain ⟨hbatches, hregistry⟩ :=
          h.registry.runPublisher s.exporter s.moment wakes
        refine ⟨?_, hregistry, h.handles⟩
        intro g hg
        obtain ⟨b, hb, hg⟩ := List.mem_flatMap.mp hg
        have hsorted : b ∈ (s.exporter.runPublisher s.registry s.moment
            wakes).1.map Batch.sorted := by
          rcases List.mem_append.mp hb with hfirst | hlast
          · exact List.mem_of_mem_take hfirst
          · exact List.mem_of_getLast? (Option.mem_toList.mp hlast)
        obtain ⟨unsorted, hunsorted, rfl⟩ := List.mem_map.mp hsorted
        exact (hbatches unsorted hunsorted).sorted g hg

/-! ### All together -/

theorem perform (hs : s.registry.WellFormed) (c : Command) :
    Traced (s.perform c) := by
  cases c with
  | registry command => exact h.performRegistry hs command
  | meter name command => exact h.performMeter name command
  | recordRun name elapsed => exact h.recordRun name elapsed
  | sample command => exact h.performSample command
  | exporter command => exact h.performExporter command
  | _ => exact .of_exported_eq_nil rfl ⟨h.registry, h.handles⟩

/-- Every point that a run shows is one that a built meter owed. -/
theorem isReported_run (hs : s.registry.WellFormed)
    (commands : List Command) :
    ∀ logged ∈ (s.run commands).1, ∀ g ∈ logged.value.exported,
      g.IsReported := by
  induction commands generalizing s with
  | nil => exact List.forall_mem_nil _
  | cons c rest ih =>
      have hdone := h.perform hs c
      have hnext := (effect_perform hs c).registry.wellFormed hs
      exact List.forall_mem_cons.mpr
        ⟨hdone.exported, ih hdone.session hnext⟩

end Traceable

end Session

end WindowedMetrics
