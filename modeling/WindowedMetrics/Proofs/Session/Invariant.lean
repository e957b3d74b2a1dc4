/-
What runs keep.  A command puts a made meter to uses or makes a new one, and
one that stays registered is closed only by what closes meters one and all.
So a property that new meters have and uses keep holds at the end of every
run.
-/
import WindowedMetrics.Proofs.Registry.Spared
import WindowedMetrics.Proofs.Session.Effect

namespace WindowedMetrics

/-- Whether a command closes no meter that stays registered.  Removals may
close others. -/
def Command.spares : Command → Bool
  | .registry .closeAll => false
  | .meter _ .close => false
  | .exporter (.runPublisher _) => false
  | _ => true

namespace Session

/-- Amounts are measured on made meters alone. -/
theorem lt_size_of_mem_measured {s : Session} {c : Command} {e : Recorded}
    (he : e ∈ s.measured c) : e.meter < s.registry.made.size := by
  unfold measured measuredOn at he
  split at he
  · split at he
    · split at he
      · rename_i meter hmeter
        obtain ⟨amount, _, rfl⟩ := List.mem_map.mp he
        exact (Array.getElem?_eq_some_iff.mp hmeter).1
      · cases he
    · cases he
  · cases he

/-- What a command measures goes to the step that it ends in. -/
theorem logOf_append_measured (s : Session) (c : Command)
    (config : RegistrySettings) (record : List Recorded) (meter : Nat) :
    Recorded.logOf config (record ++ s.measured c) meter =
      Recorded.logOf config record meter ++
        StepLog.ofStep (config.stepAt (s.perform c).value.2.clock.wall)
          (Recorded.amountsOf (s.measured c) meter) := by
  simp only [Recorded.logOf, Recorded.amountsOf, StepLog.ofStep,
    List.filter_append, List.map_append, List.map_map]
  congr 1
  apply List.map_congr_left
  intro e he
  have hwall := (of_mem_measured (List.mem_filter.mp he).1).1
  simp only [Function.comp_apply, hwall]

/-! ### Parts of runs -/

theorem run_append (s : Session) (before rest : List Command) :
    (s.run (before ++ rest)).2 = ((s.run before).2.run rest).2 := by
  induction before generalizing s with
  | nil => rfl
  | cons c more ih => exact ih (s.perform c).value.2

theorem recorded_append (s : Session) (before rest : List Command) :
    s.recorded (before ++ rest) =
      s.recorded before ++ (s.run before).2.recorded rest := by
  induction before generalizing s with
  | nil => rfl
  | cons c more ih =>
      rw [List.cons_append, recorded, recorded, ih, List.append_assoc]
      rfl

namespace WallSteady

variable {s : Session} {commands before rest : List Command}

theorem nonneg (h : s.WallSteady commands) : 0 ≤ s.clock.wall := by
  cases commands with
  | nil => exact h
  | cons c more => exact h.1

theorem of_append (h : s.WallSteady (before ++ rest)) :
    s.WallSteady before ∧ (s.run before).2.WallSteady rest := by
  induction before generalizing s with
  | nil => exact ⟨h.nonneg, h⟩
  | cons c more ih =>
      obtain ⟨hmore, hrest⟩ := ih h.2.2
      exact ⟨⟨h.1, h.2.1, hmore⟩, hrest⟩

theorem le_run (h : s.WallSteady commands) :
    s.clock.wall ≤ (s.run commands).2.clock.wall := by
  induction commands generalizing s with
  | nil => exact Int.le_refl _
  | cons c more ih => exact Int.le_trans h.2.1 (ih h.2.2)

theorem le_recorded (h : s.WallSteady commands) :
    ∀ e ∈ s.recorded commands, s.clock.wall ≤ e.wall := by
  induction commands generalizing s with
  | nil => simp [recorded]
  | cons c more ih =>
      intro e he
      rcases List.mem_append.mp he with hfirst | hlater
      · rw [(of_mem_measured hfirst).1]
        exact h.2.1
      · exact Int.le_trans h.2.1 (ih h.2.2 e hlater)

end WallSteady

/-! ### Registries of a run -/

/-- A session with the settings `config` and a record of made meters. -/
structure Sound (s : Session) (config : RegistrySettings)
    (record : List Recorded) : Prop where
  config_eq : s.registry.config = config
  wellFormed : s.registry.WellFormed
  lt_size : ∀ e ∈ record, e.meter < s.registry.made.size

theorem sound_create (config : RegistrySettings) (exporter : ExportSettings)
    (context : Option TraceContext) (wall : Int) (draws : Nat → Nat → Nat) :
    (create config exporter context wall draws).Sound config [] :=
  ⟨rfl, Registry.wellFormed_create config, by simp⟩

namespace Sound

variable {s : Session} {config : RegistrySettings} {record : List Recorded}

theorem perform (h : s.Sound config record) (c : Command) :
    (s.perform c).value.2.Sound config (record ++ s.measured c) := by
  have heffect := (effect_perform h.wellFormed c).registry
  refine ⟨heffect.config_eq.trans h.config_eq,
    heffect.wellFormed h.wellFormed, ?_⟩
  intro e he
  apply Nat.lt_of_lt_of_le _ heffect.size_le
  rcases List.mem_append.mp he with hold | hnew
  · exact h.lt_size e hold
  · exact lt_size_of_mem_measured hnew

theorem run (h : s.Sound config record) (commands : List Command) :
    (s.run commands).2.Sound config (record ++ s.recorded commands) := by
  induction commands generalizing s record with
  | nil =>
      rw [recorded, List.append_nil]
      exact h
  | cons c rest ih =>
      rw [recorded, ← List.append_assoc]
      exact ih (h.perform c)

theorem exporter_run (h : s.Sound config record) (commands : List Command) :
    (s.run commands).2.exporter = s.exporter := by
  induction commands generalizing s record with
  | nil => rfl
  | cons c rest ih =>
      exact (ih (h.perform c)).trans
        (effect_perform h.wellFormed c).exporter_eq

/-- What is registered in the end and was made before was registered all
along. -/
theorem mem_references_of_run (h : s.Sound config record)
    {commands : List Command} {reference : Nat}
    (hreference : reference ∈ (s.run commands).2.registry.references)
    (hmade : reference < s.registry.made.size) :
    reference ∈ s.registry.references := by
  induction commands generalizing s record with
  | nil => exact hreference
  | cons c rest ih =>
      have heffect := (effect_perform h.wellFormed c).registry
      exact heffect.mem_references (ih (h.perform c) hreference
        (Nat.lt_of_lt_of_le hmade heffect.size_le)) hmade

/-- Meters keep their identity and kind. -/
theorem exists_made_of_run (h : s.Sound config record)
    {commands : List Command} {reference : Nat} {after : Meter}
    (hafter : (s.run commands).2.registry.made[reference]? = some after)
    (hmade : reference < s.registry.made.size) :
    ∃ meter, s.registry.made[reference]? = some meter ∧
      meter.id = after.id ∧ meter.kind = after.kind := by
  induction commands generalizing s record with
  | nil => exact ⟨after, hafter, rfl, rfl⟩
  | cons c rest ih =>
      have heffect := (effect_perform h.wellFormed c).registry
      obtain ⟨middle, hmiddle, hid, hkind⟩ := ih (h.perform c) hafter
        (Nat.lt_of_lt_of_le hmade heffect.size_le)
      cases heffect.meters reference middle hmiddle with
      | used meter hmeter hused =>
          exact ⟨meter, hmeter, hused.id_eq.symm.trans hid,
            hused.kind_eq.symm.trans hkind⟩
      | new id b own instrument hreference =>
          exact absurd hreference (Nat.ne_of_lt hmade)

/-- A new meter has no record yet. -/
theorem amountsOf_size (h : s.Sound config record) :
    Recorded.amountsOf record s.registry.made.size = [] :=
  Recorded.amountsOf_eq_nil fun e he => Nat.ne_of_lt (h.lt_size e he)

theorem logOf_size (h : s.Sound config record) :
    Recorded.logOf config record s.registry.made.size = [] := by
  have hnone : (record.filter fun e =>
      decide (e.meter = s.registry.made.size)) = [] := by
    apply List.filter_eq_nil_iff.mpr
    intro e he
    simpa using Nat.ne_of_lt (h.lt_size e he)
  rw [Recorded.logOf, hnone, List.map_nil]

end Sound

/-! ### All meters -/

/-- Every made meter has a property, as far as it concerns the meter and the
amounts that a record has of it. -/
structure EveryMeter (s : Session) (config : RegistrySettings)
    (P : Meter → List Float → Prop) (record : List Recorded) : Prop where
  sound : s.Sound config record
  meters : ∀ reference (meter : Meter),
    s.registry.made[reference]? = some meter →
    P meter (Recorded.amountsOf record reference)

namespace EveryMeter

variable {s : Session} {config : RegistrySettings}
  {P : Meter → List Float → Prop} {record : List Recorded}

theorem create (config : RegistrySettings) (exporter : ExportSettings)
    (context : Option TraceContext) (wall : Int) (draws : Nat → Nat → Nat)
    (P : Meter → List Float → Prop) :
    (create config exporter context wall draws).EveryMeter config P [] :=
  ⟨sound_create config exporter context wall draws,
    by simp [Session.create, Registry.create]⟩

section Running

variable
  (hbuilt : ∀ (id : Id) (b : Blueprint Source) (own : DistributionSettings)
    (now : Int) (instrument : Instrument),
    b.instrument own config now = .ok instrument → P ⟨id, now, instrument⟩ [])
  (hused : ∀ (meter next : Meter) (now : Int) (amounts more : List Float)
    (closing : Prop), P meter amounts → meter.Used now more closing next →
    P next (amounts ++ more))

include hbuilt hused

/-- A property that new meters have and uses keep is kept by a command. -/
theorem perform (h : s.EveryMeter config P record) (c : Command) :
    (s.perform c).value.2.EveryMeter config P (record ++ s.measured c) := by
  have heffect := (effect_perform h.sound.wellFormed c).registry
  refine ⟨h.sound.perform c, ?_⟩
  intro reference after hafter
  rw [Recorded.amountsOf_append]
  cases heffect.meters reference after hafter with
  | used meter hmeter hchange =>
      exact hused _ _ _ _ _ _ (h.meters reference meter hmeter) hchange
  | new id b own instrument hreference hinstrument hnew hnothing =>
      rw [hreference] at hnothing ⊢
      rw [hnothing, h.sound.amountsOf_size, hnew]
      rw [h.sound.config_eq] at hinstrument
      exact hbuilt _ _ _ _ _ hinstrument

/-- A property that new meters have and uses keep is kept by a run. -/
theorem run (h : s.EveryMeter config P record) (commands : List Command) :
    (s.run commands).2.EveryMeter config P (record ++ s.recorded commands) := by
  induction commands generalizing s record with
  | nil =>
      rw [recorded, List.append_nil]
      exact h
  | cons c rest ih =>
      rw [recorded, ← List.append_assoc]
      exact ih (h.perform hbuilt hused c)

end Running

end EveryMeter

/-! ### Registered meters -/

/-- A command that spares them puts the meters that stay registered to uses
that do not close them. -/
theorem became_of_spares {s : Session} (hs : s.registry.WellFormed)
    {c : Command} (hspares : c.spares = true) {reference : Nat}
    (hreference : reference ∈ (s.perform c).value.2.registry.references)
    {after : Meter}
    (hafter : (s.perform c).value.2.registry.made[reference]? =
      some after) :
    s.registry.Became (s.perform c).value.2.clock.wall
      (Recorded.amountsOf (s.measured c) reference) False reference
      after := by
  have hremoved : s.measured c = [] →
      s.registry.Spares (s.perform c).value.2.registry →
      s.registry.Became (s.perform c).value.2.clock.wall
        (Recorded.amountsOf (s.measured c) reference) False reference
        after := by
    intro hmeasures hsame
    rw [hsame.untouched reference hreference] at hafter
    rw [hmeasures]
    exact .used after hafter (.refl after _ False)
  cases hopen : c.keepsOpen with
  | true =>
      have hbecame := (effect_perform hs c).registry.meters reference after
        hafter
      simp only [hopen, Bool.true_eq_false] at hbecame
      exact hbecame
  | false =>
      -- What closes meters and yet spares the others is a removal.
      cases c with
      | registry command =>
          cases command with
          | remove id =>
              exact hremoved rfl (.remove hs id.key s.surroundings)
          | removeFiltered id => exact hremoved rfl (.remove hs _ s.surroundings)
          | clear => exact hremoved rfl (.clear s.registry s.moment)
          | closeAll => cases hspares
          | _ => cases hopen
      | meter name command =>
          cases command with
          | close => cases hspares
          | _ => cases hopen
      | exporter command =>
          cases command with
          | runPublisher wakes => cases hspares
          | _ => cases hopen
      | _ => cases hopen

/-- Every registered meter has a property, as far as it concerns the present
wall time, the meter, and the log that a record has of it by steps. -/
structure EveryRegistered (s : Session) (config : RegistrySettings)
    (P : Int → Meter → StepLog Float → Prop) (record : List Recorded) :
    Prop where
  sound : s.Sound config record
  meters : ∀ reference ∈ s.registry.references, ∀ meter : Meter,
    s.registry.made[reference]? = some meter →
    P s.clock.wall meter (Recorded.logOf config record reference)

namespace EveryRegistered

variable {s : Session} {config : RegistrySettings} {first : Int}
  {P : Int → Meter → StepLog Float → Prop} {record : List Recorded}

theorem create (config : RegistrySettings) (exporter : ExportSettings)
    (context : Option TraceContext) (wall : Int) (draws : Nat → Nat → Nat)
    (P : Int → Meter → StepLog Float → Prop) :
    (create config exporter context wall draws).EveryRegistered config P [] :=
  ⟨sound_create config exporter context wall draws,
    by simp [Session.create, Registry.create, Registry.references]⟩

section Running

variable
  (hbuilt : ∀ (id : Id) (b : Blueprint Source) (own : DistributionSettings)
    (now : Int) (instrument : Instrument), first ≤ now →
    b.instrument own config now = .ok instrument →
    P now ⟨id, now, instrument⟩ [])
  (hused : ∀ (meter next : Meter) (before now : Int) (log : StepLog Float)
    (more : List Float), before ≤ now → P before meter log →
    meter.Used now more False next →
    P now next (log ++ StepLog.ofStep (config.stepAt now) more))

include hbuilt hused

/-- A property that new meters have, and that uses keep which do not close, is
kept by a command that spares what is registered. -/
theorem perform (h : s.EveryRegistered config P record)
    (hfirst : first ≤ s.clock.wall) {c : Command}
    (hspares : c.spares = true)
    (hlater : s.clock.wall ≤ (s.perform c).value.2.clock.wall) :
    (s.perform c).value.2.EveryRegistered config P
      (record ++ s.measured c) := by
  have heffect := (effect_perform h.sound.wellFormed c).registry
  refine ⟨h.sound.perform c, ?_⟩
  intro reference hreference after hafter
  have hbecame := became_of_spares h.sound.wellFormed hspares hreference hafter
  rw [logOf_append_measured]
  cases hbecame with
  | used meter hmeter hchange =>
      obtain ⟨hlt, _⟩ := Array.getElem?_eq_some_iff.mp hmeter
      have hbefore := h.meters reference
        (heffect.mem_references hreference hlt) meter hmeter
      exact hused _ _ _ _ _ _ hlater hbefore hchange
  | new id b own instrument hnew hinstrument hmade hnothing =>
      rw [hnew] at hnothing ⊢
      rw [hnothing, h.sound.logOf_size, hmade]
      rw [h.sound.config_eq] at hinstrument
      exact hbuilt _ _ _ _ _ (Int.le_trans hfirst hlater) hinstrument

/-- And so by a run of such commands, if the clock never moves back. -/
theorem run (h : s.EveryRegistered config P record)
    (hfirst : first ≤ s.clock.wall) {commands : List Command}
    (hspares : ∀ c ∈ commands, c.spares = true)
    (hsteady : s.WallSteady commands) :
    (s.run commands).2.EveryRegistered config P
      (record ++ s.recorded commands) := by
  induction commands generalizing s record with
  | nil =>
      rw [recorded, List.append_nil]
      exact h
  | cons c rest ih =>
      obtain ⟨_, hlater, hrest⟩ := hsteady
      rw [recorded, ← List.append_assoc]
      exact ih
        (h.perform hbuilt hused hfirst (hspares c List.mem_cons_self) hlater)
        (Int.le_trans hfirst hlater)
        (fun other hother => hspares other (List.mem_cons_of_mem c hother))
        hrest

end Running

end EveryRegistered

end Session

end WindowedMetrics
