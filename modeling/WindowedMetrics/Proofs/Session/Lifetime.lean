/-
What cumulative readings depend on.  Whatever an application, its clock and
its exports do, the count, total and bucket counts of a counter, timer or
summary are those of the accepted amounts in their order.
-/
import WindowedMetrics.Proofs.Meter.Lifetime
import WindowedMetrics.Proofs.Session.Invariant

namespace WindowedMetrics

theorem Recorded.accepted_of_mem_amountsOf {record : List Recorded}
    (haccepted : ∀ e ∈ record, isAccepted e.amount = true) (meter : Nat) :
    ∀ amount ∈ amountsOf record meter, isAccepted amount = true := by
  intro amount hamount
  obtain ⟨e, he, rfl⟩ := List.mem_map.mp hamount
  exact haccepted e (List.mem_filter.mp he).1

namespace Session

/-- In every run under cumulative temporality, all made meters count what was
recorded of them. -/
theorem everyMeter_accumulates (config : RegistrySettings)
    (exporter : ExportSettings) (context : Option TraceContext) (wall : Int)
    (draws : Nat → Nat → Nat) (commands : List Command)
    (hcumulative : config.temporality = .cumulative) :
    let start := create config exporter context wall draws
    (start.run commands).2.EveryMeter config
      (fun meter amounts => meter.instrument.Accumulates amounts)
      (start.recorded commands) := by
  intro start
  have hstart := EveryMeter.create config exporter context wall draws
    fun meter amounts => meter.instrument.Accumulates amounts
  refine hstart.run ?_ ?_ commands
  · intro id b own now instrument hinstrument
    exact Blueprint.accumulates_instrument hcumulative hinstrument
  · rintro meter next now amounts more closing hmeter
      ⟨_, _, uses, _, rfl, hundergoes⟩
    exact hmeter.undergoes hundergoes

/-- Under cumulative temporality, the reading of a made meter is a function of
its kind, its bounds and the sequence of its accepted amounts: their number,
their sum in order from zero, and their tally.  Bucket counts add up to the
count they are shown with.  So any two runs, under whatever clocks, filters,
exports and failures, read the same of meters that accepted the same. -/
theorem cumulative_reading_follows_amounts (config : RegistrySettings)
    (exporter : ExportSettings) (context : Option TraceContext) (wall : Int)
    (draws : Nat → Nat → Nat) (commands : List Command)
    (hcumulative : config.temporality = .cumulative) :
    let start := create config exporter context wall draws
    let made := (start.run commands).2.registry.made
    let amountsOf := Recorded.amountsOf (start.recorded commands)
    ∀ reference (meter : Meter), made[reference]? = some meter →
      (∀ unit m, (meter.read .cumulative unit m).1.lifetime? =
        Lifetime.of? meter.kind unit meter.bounds (amountsOf reference)) ∧
      (∀ unit m count total shownCount shownTotal buckets,
        (meter.read .cumulative unit m).1.lifetime? =
          some (.distribution count total shownCount shownTotal buckets) →
        buckets ≠ [] → Bucket.sum buckets = shownCount) ∧
      ∀ (config₂ : RegistrySettings) (exporter₂ : ExportSettings)
        (context₂ : Option TraceContext) (wall₂ : Int)
        (draws₂ : Nat → Nat → Nat) (commands₂ : List Command),
        config₂.temporality = .cumulative →
        let start₂ := create config₂ exporter₂ context₂ wall₂ draws₂
        let made₂ := (start₂.run commands₂).2.registry.made
        let amountsOf₂ := Recorded.amountsOf (start₂.recorded commands₂)
        ∀ reference₂ (meter₂ : Meter), made₂[reference₂]? = some meter₂ →
          meter₂.kind = meter.kind → meter₂.bounds = meter.bounds →
          amountsOf₂ reference₂ = amountsOf reference →
          ∀ unit m m₂, (meter₂.read .cumulative unit m₂).1.lifetime? =
            (meter.read .cumulative unit m).1.lifetime? := by
  intro start made amountsOf
  have htold : ∀ (config : RegistrySettings) (exporter : ExportSettings)
      (context : Option TraceContext) (wall : Int)
      (draws : Nat → Nat → Nat) (commands : List Command),
      config.temporality = .cumulative →
      let start := create config exporter context wall draws
      ∀ reference (meter : Meter),
      (start.run commands).2.registry.made[reference]? = some meter →
      meter.instrument.Accumulates
        (Recorded.amountsOf (start.recorded commands) reference) ∧
      ∀ unit m, (meter.read .cumulative unit m).1.lifetime? =
        Lifetime.of? meter.kind unit meter.bounds
          (Recorded.amountsOf (start.recorded commands) reference) := by
    intro config exporter context wall draws commands hcumulative start
      reference meter hmeter
    have hcounts := (everyMeter_accumulates config exporter context wall draws
      commands hcumulative).meters reference meter hmeter
    exact ⟨hcounts, meter.lifetime?_read hcounts
      (Recorded.accepted_of_mem_amountsOf accepted_of_mem_recorded reference)⟩
  intro reference meter hmeter
  obtain ⟨hcounts, hread⟩ := htold config exporter context wall draws commands
    hcumulative reference meter hmeter
  refine ⟨hread, ?_, ?_⟩
  · intro unit m count total shownCount shownTotal buckets hshown hbuckets
    rw [hread] at hshown
    exact Lifetime.sum_buckets (Meter.back?_bounds hcounts) hshown hbuckets
  · intro config₂ exporter₂ context₂ wall₂ draws₂ commands₂ hcumulative₂ start₂
      made₂ amountsOf₂ reference₂ meter₂ hmeter₂ hkind hbounds hamounts unit m m₂
    obtain ⟨_, hread₂⟩ := htold config₂ exporter₂ context₂ wall₂ draws₂
      commands₂ hcumulative₂ reference₂ meter₂ hmeter₂
    rw [hread, hread₂, hkind, hbounds]
    exact congrArg (Lifetime.of? meter.kind unit meter.bounds) hamounts

/-- A timer that is closed halfway, under a clock that moves back and with an
export that fails. -/
theorem cumulative_reading_of_latencies :
    let settings := { DistributionSettings.empty with
      objectives := some [50.0] }
    let commands : List Command :=
      [.registry (.add "a" (.named "latency" []) .timer settings),
        .meter "a" (.recordDurations [] [10]), .setWall (-90000),
        .meter "a" (.recordDurations [] [70]), .registry .closeAll,
        .exporter (.publish (some .io)), .advance (.ofSeconds 600),
        .meter "a" (.recordDurations [] [20])]
    let s := ((create .standard .standard none 0 fun _ _ => 0).run commands).2
    ∃ meter, s.registry.made[0]? = some meter ∧
      ∀ m, (meter.read .cumulative .nanoseconds m).1.lifetime? =
        Lifetime.of? .timer .nanoseconds #[50.0, 1.0 / 0.0]
          [10.0, 70.0, 20.0] := by
  intro settings commands s
  have hmade : (s.registry.made[0]?).map (fun meter =>
      (meter.kind, meter.bounds)) = some (.timer, #[50.0, 1.0 / 0.0]) := by
    decide +kernel
  have hamounts : Recorded.amountsOf
      ((create .standard .standard none 0 fun _ _ => 0).recorded commands) 0 =
        [10.0, 70.0, 20.0] := by
    decide +kernel
  -- What follows holds of any run with these facts.
  clear_value commands
  obtain ⟨meter, hmeter, hsame⟩ := Option.map_eq_some_iff.mp hmade
  have hread := (cumulative_reading_follows_amounts .standard .standard none 0
    (fun _ _ => 0) commands rfl 0 meter hmeter).1 .nanoseconds
  rw [hamounts] at hread
  obtain ⟨hkind, hbounds⟩ := Prod.mk.inj hsame
  rw [hkind, hbounds] at hread
  exact ⟨meter, hmeter, hread⟩

end Session

end WindowedMetrics
