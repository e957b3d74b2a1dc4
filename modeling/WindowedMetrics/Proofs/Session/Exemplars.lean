/-
Exemplars in the batches of a run.  What draining a meter would return is in
exactly one point of the batch, unless the meter publishes percentiles alone;
and after the batch there is nothing left to drain either way.
-/
import WindowedMetrics.Proofs.Export.Exemplars
import WindowedMetrics.Proofs.Session.Shutdown

namespace WindowedMetrics

namespace Session

/-- In every state of every run, a batch has exactly the points of the
registered meters, and takes the exemplars that draining a meter would
return.  They are in exactly one point of the meter, in their order, with
their values in its unit, their contexts and their times since the epoch;
only a meter that publishes percentiles alone has no point for them.  Either
way they cannot be drained again. -/
theorem exemplars_of_batch (config : RegistrySettings)
    (exporter : ExportSettings) (context : Option TraceContext) (wall : Int)
    (draws : Nat → Nat → Nat) (commands : List Command) :
    let s := ((create config exporter context wall draws).run commands).2
    let now := s.moment.now
    let conversion := s.exporter.conversion now
    let pointsOf := s.registry.pointsOf conversion s.moment
    let batch := s.exporter.batch s.registry s.moment
    (batch.1.metrics.flatMap fun metric =>
        metric.points.map fun p => (metric.key, p)).Perm
      ((s.registry.references.flatMap pointsOf).map fun p =>
        (p.key, p.point)) ∧
    ∀ reference ∈ s.registry.references, ∃ meter after,
      s.registry.made[reference]? = some meter ∧
      batch.2.made[reference]? = some after ∧
      match meter.takeExemplars? now with
      | none => CarriedNever (pointsOf reference)
      | some (taken, _) =>
          (meter.instrument.published = .onlyPercentiles →
            CarriedNever (pointsOf reference)) ∧
          (meter.instrument.published ≠ .onlyPercentiles →
            CarriedOnce (pointsOf reference) (taken.map fun e =>
              ⟨conversion.convert meter.kind.isTimed e.value,
                e.timeNanos.toNat, e.context⟩)) ∧
          (after.takeExemplars? now).map Prod.fst = some [] := by
  intro s now conversion pointsOf batch
  have hsound := (sound_create config exporter context wall draws).run commands
  have hnodup := hsound.wellFormed.references_nodup
  constructor
  · have hmetrics : batch.1.metrics =
        groupPoints (s.registry.references.flatMap pointsOf) :=
      metrics_batch s.exporter hnodup s.moment
    rw [hmetrics]
    exact groupPoints_perm _
  · intro reference hreference
    obtain ⟨e, he, rfl⟩ := List.mem_map.mp hreference
    have hlt := hsound.wellFormed.lt_size e he
    have hmeter : s.registry.made[e.2]? = some s.registry.made[e.2] :=
      Array.getElem?_eq_getElem hlt
    have hafter : batch.2.made[e.2]? =
        some (conversion.points s.registry.made[e.2] s.moment).2 := by
      refine (made_convertHandles conversion s.registry s.moment hnodup
        e.2).trans ?_
      rw [if_pos hreference, hmeter, Option.map_some]
    refine ⟨_, _, hmeter, hafter, ?_⟩
    have hpoints : pointsOf e.2 =
        (conversion.points s.registry.made[e.2] s.moment).1 := by
      simp only [pointsOf, Registry.pointsOf, hmeter, Option.map_some,
        Option.getD_some]
    rw [hpoints]
    cases htaken : s.registry.made[e.2].takeExemplars? now with
    | none => exact Meter.carriedNever_of_takeExemplars? conversion htaken
    | some answer =>
        obtain ⟨taken, next⟩ := answer
        have hhandsOff := Meter.handsOff_of_takeExemplars? conversion htaken
        exact ⟨hhandsOff.lost, hhandsOff.carried, hhandsOff.drained⟩

/-- A timer with a bucket hands its only exemplar off. -/
theorem exemplars_of_batch_bucketed :
    let context : TraceContext := ⟨some [75, 249], some [0, 240], []⟩
    let config := { RegistrySettings.standard with
      temporality := .delta, exemplars := true }
    let exporter := { ExportSettings.standard with temporality := .delta }
    let commands : List Command :=
      [.registry (.add "t" (.named "latency" []) .timer
          { DistributionSettings.empty with objectives := some [50.0] }),
        .meter "t" (.recordDurations [] [10]), .advance (.ofSeconds 60)]
    let s := ((create config exporter (some context) 1 fun _ _ => 0).run
      commands).2
    let conversion := s.exporter.conversion s.moment.now
    ∃ e : Exemplar, e.context = context ∧ e.timeNanos = 1000000 ∧
      CarriedOnce (s.registry.pointsOf conversion s.moment 0)
        [⟨conversion.convert true e.value, 1000000, context⟩] := by
  intro context config exporter commands s conversion
  obtain ⟨-, hmeters⟩ := exemplars_of_batch config exporter (some context) 1
    (fun _ _ => 0) commands
  have hregistered : 0 ∈ s.registry.references := by decide +kernel
  have hpublished : (s.registry.made[0]?).map (fun meter =>
      (meter.kind, meter.instrument.published)) =
        some (.timer, ⟨false, true⟩) := by decide +kernel
  have htaken : (s.registry.made[0]?).bind (fun meter =>
      (meter.takeExemplars? s.moment.now).map fun answer =>
        answer.1.map fun e => (e.timeNanos, e.context)) =
          some [(1000000, context)] := by decide +kernel
  obtain ⟨meter, after, hmeter, -, hcarried⟩ := hmeters 0 hregistered
  -- What follows holds of any run with these facts.
  clear_value config exporter commands
  rw [hmeter, Option.map_some, Option.some.injEq, Prod.mk.injEq] at hpublished
  rw [hmeter, Option.bind_some] at htaken
  cases hanswer : meter.takeExemplars? s.moment.now with
  | none =>
      rw [hanswer] at htaken
      cases htaken
  | some answer =>
      obtain ⟨taken, next⟩ := answer
      simp only [hanswer, Option.map_some, Option.some.injEq] at htaken
      obtain ⟨e, rfl, he⟩ := List.map_eq_singleton_iff.mp htaken
      obtain ⟨htime, hcontext⟩ := Prod.mk.inj he
      simp only [s, hanswer] at hcarried
      have honce := hcarried.2.1 (by rw [hpublished.2]; decide)
      rw [List.map_singleton, htime, hcontext, hpublished.1] at honce
      exact ⟨e, hcontext, htime, honce⟩

/-- A timer of percentiles alone has an exemplar before a batch; neither is it
in the batch, nor can it be drained after it. -/
theorem exists_lost_exemplar :
    let config := { RegistrySettings.standard with
      temporality := .delta, exemplars := true }
    let exporter := { ExportSettings.standard with temporality := .delta }
    let commands : List Command :=
      [.registry (.add "t" (.named "latency" []) .timer
          { DistributionSettings.empty with percentiles := some [0.5] }),
        .meter "t" (.recordDurations [] [10]), .advance (.ofSeconds 60)]
    let s := ((create config exporter (some .empty) 0 fun _ _ => 0).run
      commands).2
    let batch := s.exporter.batch s.registry s.moment
    let drained (r : Registry) := (r.made[0]?).bind fun meter =>
      (meter.takeExemplars? s.moment.now).map fun answer => answer.1.length
    drained s.registry = some 1 ∧ drained batch.2 = some 0 ∧
      (batch.1.metrics.flatMap fun metric =>
        metric.points.flatMap Point.exemplars).length = 0 := by
  decide +kernel

end Session

end WindowedMetrics
