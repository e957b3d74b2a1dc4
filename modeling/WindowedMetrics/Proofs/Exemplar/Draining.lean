/-
Taking exemplars.  A drain returns what can be read and leaves nothing to be
drained at that time; counters and distributions take their exemplars by
draining, and reading their values makes no difference to that.
-/
import WindowedMetrics.Meter.Distribution
import WindowedMetrics.Proofs.Exemplar.Reservoir

namespace WindowedMetrics

namespace Reservoir

theorem stepAt_rollover_le (r : Reservoir) (now : Int) :
    (r.rollover now).tracker.stepAt now ≤ (r.rollover now).tracker.current := by
  by_cases hle : r.tracker.stepAt now ≤ r.tracker.current
  · rw [rollover_of_le r hle]
    exact hle
  · rw [rollover_of_lt r (by omega)]
    exact Int.le_refl _

/-- At the time of a drain there is nothing left to drain. -/
theorem drain_drain (r : Reservoir) (now : Int) :
    ((r.drain now).2.drain now).1 = [] := by
  have hstays := rollover_of_le (r.drain now).2 (r.stepAt_rollover_le now)
  unfold drain
  simp only [drain] at hstays
  rw [hstays]
  simp [Cells.contents]

end Reservoir

/-- What draining a reservoir that may be missing returns. -/
def drainable (state : Option Reservoir) (now : Int) : List Exemplar :=
  (state.map fun r => (r.drain now).1).getD []

theorem drainable_drain (state : Option Reservoir) (now : Int) :
    drainable (state.map fun r => (r.drain now).2) now = [] := by
  cases state with
  | none => rfl
  | some r => exact r.drain_drain now

theorem Counter.takeExemplars_eq (c : Counter) (now : Int) :
    c.takeExemplars now = (drainable c.exemplars now,
      { c with exemplars := c.exemplars.map fun r => (r.drain now).2 }) := by
  obtain ⟨total, step, exemplars⟩ := c
  cases exemplars <;> rfl

theorem Counter.exemplars_value (c : Counter) (temporality : Temporality)
    (now : Int) : (c.value temporality now).2.exemplars = c.exemplars := by
  cases temporality <;> rfl

theorem Distribution.takeExemplars_eq (d : Distribution) (now : Int) :
    d.takeExemplars now = (drainable d.exemplars now,
      { d with exemplars := d.exemplars.map fun r => (r.drain now).2 }) := by
  obtain ⟨count, total, step, max, histogram, exemplars⟩ := d
  cases exemplars <;> rfl

theorem Distribution.exemplars_statistics (d : Distribution)
    (temporality : Temporality) (now : Int) :
    (d.statistics temporality now).2.exemplars = d.exemplars := by
  cases temporality <;> rfl

/-- A snapshot reads the statistics and then the histogram. -/
theorem Distribution.snapshot_of_statistics {d after : Distribution}
    {temporality : Temporality} {now : Int} {count : UInt64}
    {total max : Float} (hstatistics :
      d.statistics temporality now = ((count, total, max), after)) :
    d.snapshot temporality now =
      match after.histogram with
      | none => (Snapshot.scalar count total max, after)
      | some h =>
          ((h.snapshot now count total max).1,
            { after with
              histogram := some (h.snapshot now count total max).2 }) := by
  cases hhistogram : after.histogram <;>
    simp only [snapshot, hstatistics, hhistogram]

theorem Distribution.exemplars_snapshot (d : Distribution)
    (temporality : Temporality) (now : Int) :
    (d.snapshot temporality now).2.exemplars = d.exemplars := by
  have hsame := d.exemplars_statistics temporality now
  generalize hstatistics : d.statistics temporality now = read at hsame
  obtain ⟨⟨count, total, max⟩, after⟩ := read
  rw [snapshot_of_statistics hstatistics, ← hsame]
  cases after.histogram <;> rfl

end WindowedMetrics
