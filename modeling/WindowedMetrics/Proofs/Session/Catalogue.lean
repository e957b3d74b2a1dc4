/-
What is registered in the course of a run.  Filters that leave kinds alone and
registrations that name the kind that they make keep every stored meter what
its identity says.
-/
import WindowedMetrics.Proofs.Registry.Registration
import WindowedMetrics.Proofs.Session.Effect

namespace WindowedMetrics

/-- Whether a command leaves kinds alone: the filters that it adds do not
rewrite them, and what it registers by a factory of its own is of the kind
that its identity names. -/
def Command.keepsKinds : Command → Bool
  | .registry (.appendFilter filter) => !filter.rewritesKind
  | .registry (.register _ id parts _) => decide (id.kind = parts.kind)
  | _ => true

namespace Session

/-- A session whose registry is catalogued and whose filters keep kinds. -/
structure Catalogues (s : Session) : Prop where
  catalogued : s.registry.Catalogued
  keepKinds : KeepKinds s.registry.filters

/-- What a command registers fits the identity that the filters give it. -/
theorem fits_of_registers {c : Command} (hc : c.keepsKinds = true) {id : Id}
    {b : Blueprint Source} {factory : MeterFactory}
    (hregisters : c.Registers id b factory) {filters : List Filter}
    (hkinds : KeepKinds filters) {own : DistributionSettings}
    {config : RegistrySettings} {now : Int} {meter : Meter}
    (hmade : factory (mapByAll filters id) own config now = .ok meter) :
    meter.id = mapByAll filters id ∧ meter.kind = meter.id.kind ∧
      meter.instrument.isIdle? ≠ some true := by
  obtain ⟨settings, instrument, hinstrument, rfl⟩ := hregisters.built hmade
  obtain ⟨hkind, hmeasures⟩ := Blueprint.instrument_fits hinstrument
  have hid : id.kind = b.kind := by
    cases hregisters with
    | typed => rfl
    | plain name id parts config b hparts =>
        have hnamed : id.kind = parts.kind := by
          simpa [Command.keepsKinds] using hc
        exact hnamed.trans hparts.symm
  exact ⟨rfl, hkind.trans (((hkinds id).trans hid).symm), hmeasures⟩

namespace Catalogues

variable {s : Session}

theorem create (config : RegistrySettings) (exporter : ExportSettings)
    (context : Option TraceContext) (wall : Int) (draws : Nat → Nat → Nat) :
    (create config exporter context wall draws).Catalogues :=
  ⟨Registry.catalogued_create config, fun _ => rfl⟩

theorem perform (h : s.Catalogues) (c : Command) (hc : c.keepsKinds = true) :
    (s.perform c).value.2.Catalogues := by
  have heffect := (effect_perform h.catalogued.wellFormed c).registry
  generalize (s.perform c).value.2 = next at heffect ⊢
  obtain ⟨clock, context, chance, cells, registry, exporter, handles, samples,
    scope, tasks⟩ := next
  simp only at heffect
  cases heffect with
  | used hused =>
      refine ⟨h.catalogued.used hused, ?_⟩
      simp only [hused.filters_eq]
      exact h.keepKinds
  | filtered filter hcommand =>
      have hkeeps : filter.rewritesKind = false := by
        rw [hcommand] at hc
        simpa [Command.keepsKinds] using hc
      exact ⟨⟨⟨h.catalogued.wellFormed.lt_size,
        h.catalogued.wellFormed.references_nodup⟩, h.catalogued.keys_nodup,
        h.catalogued.meters⟩, h.keepKinds.append hkeeps⟩
  | registered hregisters _ hregistered =>
      refine ⟨h.catalogued.registered hregistered fun own meter hmade =>
        fits_of_registers hc hregisters h.keepKinds hmade, ?_⟩
      have hmap : mapByAll registry.filters =
          mapByAll s.registry.filters := by
        cases hregistered with
        | same filters hmap => exact hmap
        | entered filters meter own hmap => exact hmap
      intro id
      simp only [hmap]
      exact h.keepKinds id

theorem run (h : s.Catalogues) {commands : List Command}
    (hkinds : ∀ c ∈ commands, c.keepsKinds = true) :
    (s.run commands).2.Catalogues := by
  induction commands generalizing s with
  | nil => exact h
  | cons c rest ih =>
      exact ih (h.perform c (hkinds c List.mem_cons_self))
        fun other hother => hkinds other (List.mem_cons_of_mem c hother)

end Catalogues

/-- In every state of a run, each registered meter measures and stands under
its own identity with its own kind, no two share name and tags, and all views
show the same meters; and every registration by kind that comes next ends as
the order of closing, lookup, admission and making has it.  It leaves all
other meters as they are, and what it hands out as made is what is registered
under the identity after all filters. -/
theorem registrations_of_run (config : RegistrySettings)
    (exporter : ExportSettings) (context : Option TraceContext) (wall : Int)
    (draws : Nat → Nat → Nat) (commands : List Command)
    (hkinds : ∀ c ∈ commands, c.keepsKinds = true) :
    let r := ((create config exporter context wall draws).run
      commands).2.registry
    r.Catalogued ∧ r.ViewsAgree ∧
      ∀ (b : Blueprint Source) (id : Id) (own : DistributionSettings)
        (now : Int),
        let outcome := (r.add b id own now).value.1
        let next := (r.add b id own now).value.2
        r.Registration b id own now outcome next ∧
        (∀ key, key ≠ (r.finalId b id).key → next.get? key = r.get? key) ∧
        ∀ reference, outcome = .ok (.made reference) →
          ∃ meter, next.made[reference]? = some meter ∧
            next.get? (r.finalId b id).key = some meter ∧
            meter.kind = b.kind := by
  intro r
  have hrun := (Catalogues.create config exporter context wall draws).run hkinds
  refine ⟨hrun.catalogued, hrun.catalogued.viewsAgree, ?_⟩
  intro b id own now outcome next
  have hends := Registry.registration_add hrun.catalogued.wellFormed
    hrun.keepKinds b id own now
  exact ⟨hends,
    fun key hkey => hends.get?_of_ne hrun.catalogued.wellFormed hkey,
    fun reference hmade => hends.get?_of_made hmade⟩

/-- Two registrations that a filter maps to the same tags: the second asks for
another kind and gets an error that names both. -/
theorem registrations_of_requests :
    let commands : List Command :=
      [.registry (.appendFilter (.renameTag "req" "verb" "method")),
        .registry (.add "a" (.named "requests" [⟨"verb", "get"⟩]) .counter
          .empty)]
    let id := Id.named "requests" [⟨"verb", "get"⟩]
    let r := ((create .standard .standard none 0 fun _ _ => 0).run
      commands).2.registry
    r.ViewsAgree ∧ ∃ existing,
      r.get? (.mk "requests" (Tags.ofList [⟨"method", "get"⟩])) =
        some existing ∧
      ∀ own now, (r.add .timer id own now).value.1 =
        .error (.kindConflict existing.id .counter .timer) := by
  intro commands id r
  have hkinds : ∀ c ∈ commands, c.keepsKinds = true := by decide
  have hopen : r.closed = false := by decide +kernel
  have hfinal : (r.finalId .timer id).key =
      .mk "requests" (Tags.ofList [⟨"method", "get"⟩]) := by
    decide +kernel
  have hkind : (r.get? (.mk "requests" (Tags.ofList [⟨"method", "get"⟩]))).map
      Meter.kind = some .counter := by
    decide +kernel
  -- What follows holds of any run with these facts.
  clear_value commands
  obtain ⟨_, hviews, hends⟩ :=
    registrations_of_run .standard .standard none 0 (fun _ _ => 0) commands
      hkinds
  obtain ⟨existing, hget, hcounter⟩ := Option.map_eq_some_iff.mp hkind
  refine ⟨hviews, existing, hget, ?_⟩
  intro own now
  have hother : existing.kind ≠ .timer := by simp [hcounter]
  rw [← hfinal] at hget
  rw [(hends .timer id own now).1.outcome_of_kind_ne hopen hget hother,
    hcounter]
  rfl

end Session

end WindowedMetrics
