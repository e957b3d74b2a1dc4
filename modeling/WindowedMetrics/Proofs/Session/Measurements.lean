/-
What the exports of an application say of what it measures.  Under delta
temporality a batch reports, for every counter, timer and summary, exactly the
record's amounts of that meter that lie in the interval of the point.
-/
import WindowedMetrics.Proofs.Export.Grouping
import WindowedMetrics.Proofs.Session.Invariant

namespace WindowedMetrics

namespace Session

/-! ### Sessions that keep track -/

/-- The meters of a session track what was recorded of them. -/
structure Tracks (s : Session) (config : RegistrySettings)
    (exporter : ExportSettings) (record : List Recorded) : Prop where
  exporter_eq : s.exporter = exporter
  registry : s.registry.Tracks config s.clock.wall
    (Recorded.logOf config record)

theorem tracks_create (config : RegistrySettings) (exporter : ExportSettings)
    (context : Option TraceContext) (wall : Int) (draws : Nat → Nat → Nat) :
    (create config exporter context wall draws).Tracks config exporter [] :=
  ⟨rfl, Registry.tracks_create config wall⟩

namespace Tracks

variable {s : Session} {config : RegistrySettings}
  {exporter : ExportSettings} {record : List Recorded}

/-- One command adds what it measures to the record. -/
theorem perform (h : s.Tracks config exporter record)
    (hdelta : config.temporality = .delta) {c : Command}
    (hopen : c.keepsOpen = true) (hnow : 0 ≤ s.clock.wall)
    (hsteady : s.clock.wall ≤ (s.perform c).value.2.clock.wall) :
    (s.perform c).value.2.Tracks config exporter (record ++ s.measured c) := by
  have hregistry := h.registry
  have heffect := effect_perform hregistry.wellFormed c
  have hchange := heffect.registry
  refine ⟨heffect.exporter_eq.trans h.exporter_eq,
    hchange.config_eq.trans hregistry.config_eq,
    hchange.wellFormed hregistry.wellFormed, ?_, ?_⟩
  · intro reference after hafter
    have hbecame := hchange.meters reference after hafter
    rw [logOf_append_measured]
    simp only [hopen, Bool.true_eq_false] at hbecame
    cases hbecame with
    | used meter hmeter hused =>
        exact (hregistry.meters reference meter hmeter).used
          (config.stepAt_mono hnow hsteady) hused
    | new id b own instrument hreference hinstrument hnew hnothing =>
        rw [hregistry.fresh reference (Nat.le_of_eq hreference.symm),
          hnothing, hnew]
        rw [hregistry.config_eq] at hinstrument
        exact Blueprint.tracks_instrument hdelta hinstrument
  · intro reference hlarge
    have hmade := Nat.le_trans hchange.size_le hlarge
    have hnothing : Recorded.amountsOf (s.measured c) reference = [] := by
      apply Recorded.amountsOf_eq_nil
      intro e he
      exact Nat.ne_of_lt (Nat.lt_of_lt_of_le (lt_size_of_mem_measured he) hmade)
    rw [logOf_append_measured, hregistry.fresh reference hmade, hnothing]
    rfl

/-- A run adds what it measures to the record. -/
theorem run (h : s.Tracks config exporter record)
    (hdelta : config.temporality = .delta) {commands : List Command}
    (hopen : ∀ c ∈ commands, c.keepsOpen = true)
    (hsteady : s.WallSteady commands) :
    (s.run commands).2.Tracks config exporter
      (record ++ s.recorded commands) := by
  induction commands generalizing s record with
  | nil =>
      rw [recorded, List.append_nil]
      exact h
  | cons c rest ih =>
      rw [recorded, ← List.append_assoc]
      apply ih
      · exact h.perform hdelta (hopen c List.mem_cons_self) hsteady.1
          hsteady.2.1
      · exact fun later hlater => hopen later (List.mem_cons_of_mem c hlater)
      · exact hsteady.2.2

end Tracks

/-- What a session that keeps track reports of a registered meter. -/
theorem Tracks.pointsOf_report {s : Session} {config : RegistrySettings}
    {exporter : ExportSettings} {record : List Recorded}
    (h : s.Tracks config exporter record)
    (hdelta : exporter.temporality = .delta)
    (hstep : exporter.step = config.step)
    (hnanos : config.step.millis * 1000000 < UInt64.size)
    (hnow : 0 ≤ s.clock.wall) (hfits : s.clock.wall * 1000000 < UInt64.size)
    (hwalls : ∀ e ∈ record, 0 ≤ e.wall)
    (haccepted : ∀ e ∈ record, isAccepted e.amount = true)
    {reference : Nat} {meter : Meter}
    (hmeter : s.registry.made[reference]? = some meter)
    (hkind : meter.kind = .counter ∨ meter.kind = .timer ∨
      meter.kind = .summary) :
    let conversion := s.exporter.conversion s.clock.wall
    let points := s.registry.pointsOf conversion s.moment reference
    points ≠ [] ∧ ∀ p ∈ points,
      p.name = meter.id.name ∧
      p.point.attributes = meter.id.tags.toPairs ∧
      p.point.interval = conversion.lastStep ∧
      meter.Reports conversion
        (Recorded.amountsIn record reference p.point.interval) p.point := by
  intro conversion points
  have hconversion : conversion = Conversion.starting s.clock.wall
      config.step exporter.temporality exporter.baseTimeUnit := by
    simp only [conversion, h.exporter_eq, ExportSettings.conversion, hstep]
  have hpoints : points = (conversion.points meter s.moment).1 := by
    simp [points, Registry.pointsOf, hmeter]
  have hlast : (Recorded.logOf config record reference).valuesIn
      (config.stepAt s.clock.wall - 1) =
        Recorded.amountsIn record reference conversion.lastStep := by
    rw [hconversion]
    exact Recorded.valuesIn_logOf hnanos hnow hfits _ _ hwalls reference
  have hvalues : ∀ value ∈ (Recorded.logOf config record reference).valuesIn
      (config.stepAt s.clock.wall - 1), isAccepted value = true := by
    intro value hvalue
    rw [hlast] at hvalue
    obtain ⟨recorded, hmem, rfl⟩ := List.mem_map.mp hvalue
    exact haccepted recorded (List.mem_filter.mp hmem).1
  obtain ⟨hsome, hreport⟩ := Conversion.points_report (m := s.moment)
    (h.registry.meters reference meter hmeter) hvalues conversion
    (by rw [hconversion]; exact hdelta) hkind
  rw [hpoints]
  refine ⟨hsome, ?_⟩
  intro p hp
  obtain ⟨hname, hattributes, hinterval, hreports⟩ := hreport p hp
  refine ⟨hname, hattributes, hinterval, ?_⟩
  rw [hinterval, ← hlast]
  exact hreports

/-- Under delta temporality, with one step for registry and exporter and a
wall clock that never moves back and whose nanoseconds fit 64 bits, a batch
holds the points of all registered meters, and every point of a counter,
timer or summary reports exactly what was recorded of its meter in the
interval of the point, however many steps passed unseen. -/
theorem batch_reports_recorded (config : RegistrySettings)
    (exporter : ExportSettings) (context : Option TraceContext) (wall : Int)
    (draws : Nat → Nat → Nat) (commands : List Command)
    (hregistry : config.temporality = .delta)
    (hexporter : exporter.temporality = .delta)
    (hstep : exporter.step = config.step)
    (hnanos : config.step.millis * 1000000 < UInt64.size)
    (hopen : ∀ c ∈ commands, c.keepsOpen = true)
    (hsteady :
      (create config exporter context wall draws).WallSteady commands)
    (hfits : ((create config exporter context wall draws).run
      commands).2.clock.wall * 1000000 < UInt64.size) :
    let start := create config exporter context wall draws
    let s := (start.run commands).2
    let conversion := s.exporter.conversion s.clock.wall
    let pointsOf := s.registry.pointsOf conversion s.moment
    HoldPoints (s.exporter.batch s.registry s.moment).1.metrics
        (s.registry.references.flatMap pointsOf) ∧
      ∀ reference ∈ s.registry.references,
        ∃ meter, s.registry.made[reference]? = some meter ∧
          (meter.kind = .counter ∨ meter.kind = .timer ∨
              meter.kind = .summary →
            pointsOf reference ≠ [] ∧ ∀ p ∈ pointsOf reference,
              p.name = meter.id.name ∧
              p.point.attributes = meter.id.tags.toPairs ∧
              p.point.interval = conversion.lastStep ∧
              meter.Reports conversion
                (Recorded.amountsIn (start.recorded commands) reference
                  p.point.interval) p.point) := by
  intro start s conversion pointsOf
  have htracks : s.Tracks config exporter (start.recorded commands) :=
    (tracks_create config exporter context wall draws).run hregistry hopen
      hsteady
  have hwellFormed := htracks.registry.wellFormed
  constructor
  · have hpoints := convertHandles_made conversion s.registry s.moment
      s.registry.references hwellFormed.references_nodup
    rw [← hpoints]
    exact holdPoints_groupPoints _
  · intro reference hreference
    obtain ⟨e, he, rfl⟩ := List.mem_map.mp hreference
    have hlt := hwellFormed.lt_size e he
    have hmeter : s.registry.made[e.2]? = some s.registry.made[e.2] :=
      Array.getElem?_eq_getElem hlt
    exact ⟨_, hmeter, htracks.pointsOf_report hexporter hstep hnanos
      hsteady.nonneg_run hfits hsteady.nonneg_recorded
      accepted_of_mem_recorded hmeter⟩

/-- A counter that is used in two steps, with a batch and an empty step
between them. -/
theorem batch_reports_requests :
    let config := { RegistrySettings.standard with temporality := .delta }
    let exporter := { ExportSettings.standard with temporality := .delta }
    let commands : List Command :=
      [.registry (.add "a" (.named "requests" []) .counter .empty),
        .meter "a" (.increment 1.0), .advance (.ofSeconds 60),
        .exporter .batch, .advance (.ofSeconds 60),
        .meter "a" (.increment 2.0), .meter "a" (.increment (-3.0)),
        .meter "a" (.increment 0.5), .advance (.ofSeconds 60)]
    let s := ((create config exporter none 0 fun _ _ => 0).run commands).2
    let conversion := s.exporter.conversion s.clock.wall
    ∃ (p : NamedPoint) (q : NumberPoint),
      p ∈ s.registry.pointsOf conversion s.moment 0 ∧
      p.name = "requests" ∧ p.point = .sum q ∧
      q.interval = ⟨120000000000, 180000000000⟩ ∧ q.value = 2.5 := by
  intro config exporter commands s conversion
  obtain ⟨meter, hmeter, hreport⟩ := (batch_reports_recorded config
    exporter none 0 (fun _ _ => 0) commands rfl rfl rfl (by decide)
    (by decide) (by decide +kernel) (by decide +kernel)).2 0
      (by decide +kernel)
  have hmade : (s.registry.made[0]?).map (fun meter =>
      (meter.kind, meter.id.name)) = some (.counter, "requests") := by
    decide +kernel
  have hlast : conversion.lastStep = ⟨120000000000, 180000000000⟩ := by
    decide +kernel
  have hamounts : Recorded.amountsIn
      ((create config exporter none 0 fun _ _ => 0).recorded commands) 0
      ⟨120000000000, 180000000000⟩ = [2.0, 0.5] := by
    decide +kernel
  -- What follows holds of any run with these facts.
  clear_value config exporter commands
  rw [hmeter, Option.map_some, Option.some.injEq, Prod.mk.injEq] at hmade
  obtain ⟨hsome, hall⟩ := hreport (Or.inl hmade.1)
  obtain ⟨p, hp⟩ := List.exists_mem_of_ne_nil _ hsome
  obtain ⟨hname, _, hinterval, hvalue⟩ := hall p hp
  rw [hinterval, hlast, hamounts] at hvalue
  obtain ⟨q, hsum, htotal⟩ := Meter.exists_sum_of_reports hmade.1 hvalue
  rw [hsum] at hinterval
  have htwo : [2.0, 0.5].foldl (· + ·) 0.0 = 2.5 := by decide +kernel
  exact ⟨p, q, hp, hname.trans hmade.2, hsum, hinterval.trans hlast,
    htotal.trans htwo⟩

end Session

end WindowedMetrics
