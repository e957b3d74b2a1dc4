/-
What becomes of the exemplars that a conversion takes.  A counter puts them
into its only point and a distribution into its histogram; a distribution
that publishes percentiles alone has no histogram, and there they are lost.
-/
import WindowedMetrics.Proofs.Exemplar.Draining
import WindowedMetrics.Proofs.Export.Delta
import WindowedMetrics.Proofs.Export.Owed

namespace WindowedMetrics

/-! ### The points of a meter -/

/-- The exemplars of a point; a summary has room for none. -/
def Point.exemplars : Point → List PointExemplar
  | sum p => p.exemplars
  | gauge p => p.exemplars
  | histogram p => p.exemplars
  | summary _ => []

/-- No point has exemplars. -/
def CarriedNever (points : List NamedPoint) : Prop :=
  ∀ p ∈ points, p.point.exemplars = []

/-- Exactly one of the points has exemplars, and these are they. -/
def CarriedOnce (points : List NamedPoint)
    (exemplars : List PointExemplar) : Prop :=
  ∃ before p after, points = before ++ p :: after ∧
    p.point.exemplars = exemplars ∧ CarriedNever (before ++ after)

/-- Percentiles and no buckets. -/
def Published.onlyPercentiles : Published := ⟨true, false⟩

namespace Conversion

variable (c : Conversion)

/-- A distribution of percentiles alone has nothing to carry exemplars. -/
theorem carriedNever_distributionPoints (meter : Meter) (timeBased : Bool)
    {s : Snapshot} (hpublished : s.published = .onlyPercentiles)
    (taken : List Exemplar) :
    CarriedNever (c.distributionPoints meter timeBased s taken) := by
  obtain ⟨hpercentiles, hbuckets⟩ := Published.mk.inj hpublished
  simp [distributionPoints, hpercentiles, hbuckets, CarriedNever,
    summaryPoint, named, Point.exemplars]

/-- The histogram of any other distribution carries them. -/
theorem carriedOnce_distributionPoints (meter : Meter) (timeBased : Bool)
    {s : Snapshot} (hpublished : s.published ≠ .onlyPercentiles)
    (taken : List Exemplar) :
    CarriedOnce (c.distributionPoints meter timeBased s taken)
      (c.exemplars timeBased taken) := by
  have hhistogram : (s.hasBuckets || !s.hasPercentiles) = true := by
    unfold Published.onlyPercentiles Snapshot.published at hpublished
    revert hpublished
    cases s.hasPercentiles <;> cases s.hasBuckets <;> decide
  refine ⟨if s.hasPercentiles then [c.summaryPoint meter timeBased s] else [],
    c.histogramPoint meter timeBased s (c.exemplars timeBased taken), [],
    ?_, rfl, ?_⟩
  · simp only [distributionPoints, hhistogram, ↓reduceIte]
  · rw [List.append_nil]
    split <;> simp [CarriedNever, summaryPoint, named, Point.exemplars]

theorem carriedNever_distributionPoints_nil (meter : Meter)
    (timeBased : Bool) (s : Snapshot) :
    CarriedNever (c.distributionPoints meter timeBased s []) := by
  unfold distributionPoints
  cases s.hasPercentiles <;> cases s.hasBuckets <;>
    simp [CarriedNever, summaryPoint, histogramPoint, named, Point.exemplars,
      exemplars]

end Conversion

/-- What is taken after a snapshot is what could be taken before it.  It goes
with the points of the snapshot, and cannot be taken again. -/
theorem Conversion.handsOff_distribution (c : Conversion) (meter : Meter)
    (timeBased : Bool) (state : Option Distribution) (now : Int) :
    let read := snapshotOf state c.temporality now
    let taken := readState read.2 [] (·.takeExemplars now)
    let points := c.distributionPoints meter timeBased read.1 taken.1
    let published := (state.map Distribution.published).getD .nothing
    (published = .onlyPercentiles → CarriedNever points) ∧
      (published ≠ .onlyPercentiles → CarriedOnce points
        (c.exemplars timeBased
          (readState state [] (·.takeExemplars now)).1)) ∧
      (readState taken.2 [] (·.takeExemplars now)).1 = [] := by
  intro read taken points published
  have hread : read.1.published = published :=
    published_snapshotOf state c.temporality now
  have hsame : taken.1 = (readState state [] (·.takeExemplars now)).1 ∧
      (readState taken.2 [] (·.takeExemplars now)).1 = [] := by
    cases state with
    | none => exact ⟨rfl, rfl⟩
    | some d =>
        simp only [taken, read, snapshotOf, readState,
          Distribution.takeExemplars_eq, Distribution.exemplars_snapshot,
          drainable_drain, and_self]
  rw [← hread, ← hsame.1]
  exact ⟨fun h => c.carriedNever_distributionPoints meter timeBased h _,
    fun h => c.carriedOnce_distributionPoints meter timeBased h _, hsame.2⟩

namespace Meter

/-- How a conversion leaves the exemplars of a meter: they are in exactly one
of its points, or in none if the meter publishes percentiles alone, and they
cannot be taken again. -/
structure HandsOff (meter : Meter) (c : Conversion) (m : Moment)
    (taken : List Exemplar) : Prop where
  lost : meter.instrument.published = .onlyPercentiles →
    CarriedNever (c.points meter m).1
  carried : meter.instrument.published ≠ .onlyPercentiles →
    CarriedOnce (c.points meter m).1
      (c.exemplars meter.kind.isTimed taken)
  drained : ((c.points meter m).2.takeExemplars? m.now).map Prod.fst = some []

theorem handsOff_of_takeExemplars? (c : Conversion) {meter next : Meter}
    {m : Moment} {taken : List Exemplar}
    (htaken : meter.takeExemplars? m.now = some (taken, next)) :
    meter.HandsOff c m taken := by
  obtain ⟨id, created, instrument⟩ := meter
  cases instrument with
  | counter state =>
      obtain ⟨rfl, -⟩ := Prod.mk.inj (Option.some.inj htaken)
      refine ⟨fun hnothing => (by cases hnothing), fun _ =>
        ⟨[], _, [], rfl, rfl, by simp [CarriedNever]⟩, ?_⟩
      cases state with
      | none => rfl
      | some counter =>
          simp [Conversion.points, takeExemplars?, readState, counterValue,
            withInstrument, Counter.takeExemplars_eq, Counter.exemplars_value,
            drainable_drain]
  | timer state =>
      obtain ⟨rfl, -⟩ := Prod.mk.inj (Option.some.inj htaken)
      obtain ⟨hlost, hcarried, hdrained⟩ := c.handsOff_distribution
        ⟨id, created, .timer state⟩ true state m.now
      exact ⟨hlost, hcarried, congrArg some hdrained⟩
  | summary scale state =>
      obtain ⟨rfl, -⟩ := Prod.mk.inj (Option.some.inj htaken)
      obtain ⟨hlost, hcarried, hdrained⟩ := c.handsOff_distribution
        ⟨id, created, .summary scale state⟩ false state m.now
      exact ⟨hlost, hcarried, congrArg some hdrained⟩
  | _ => cases htaken

/-- A meter that takes no exemplars has points without any. -/
theorem carriedNever_of_takeExemplars? (c : Conversion) {meter : Meter}
    {m : Moment} (hnone : meter.takeExemplars? m.now = none) :
    CarriedNever (c.points meter m).1 := by
  obtain ⟨id, created, instrument⟩ := meter
  cases instrument with
  | counter state => cases hnone
  | timer state => cases hnone
  | summary scale state => cases hnone
  | gauge source =>
      simp only [Conversion.points]
      split <;> simp [CarriedNever, Conversion.gaugePoint, Conversion.named,
        Point.exemplars]
  | longTaskTimer state =>
      exact c.carriedNever_distributionPoints_nil _ _ _
  | functionCounter state =>
      simp only [Conversion.points]
      split <;> simp [CarriedNever, Conversion.sumPoint, Conversion.named,
        Point.exemplars]
  | functionTimer state =>
      simp only [Conversion.points]
      split <;> simp [CarriedNever, Conversion.functionTimerPoint,
        Conversion.named, Point.exemplars]
  | custom measurements =>
      intro p hp
      obtain ⟨e, _, rfl⟩ := List.mem_map.mp hp
      rfl

end Meter

/-! ### Several meters -/

/-- Every meter that is converted is left as reading it leaves it, and the
others as they were. -/
theorem made_convertHandles (c : Conversion) (r : Registry) (m : Moment)
    {references : List Nat} (hnodup : references.Nodup) (reference : Nat) :
    (convertHandles c r m (references.map .made)).2.made[reference]? =
      if reference ∈ references then
        (r.made[reference]?).map fun meter => (c.points meter m).2
      else r.made[reference]? := by
  induction references generalizing r with
  | nil => rfl
  | cons head rest ih =>
      obtain ⟨hnew, hrest⟩ := List.nodup_cons.mp hnodup
      rw [List.map_cons]
      unfold convertHandles
      simp only [Registry.meterOf?]
      cases hmeter : r.made[head]? with
      | none =>
          simp only [ih r hrest, List.mem_cons]
          by_cases heq : reference = head
          · subst heq
            simp [hnew, hmeter]
          · simp [heq]
      | some meter =>
          obtain ⟨hlt, hget⟩ := Array.getElem?_eq_some_iff.mp hmeter
          simp only [ih _ hrest, List.mem_cons, Registry.put,
            Array.getElem?_setIfInBounds]
          by_cases heq : reference = head
          · subst heq
            simp [hnew, hget, hlt]
          · simp [heq, Ne.symm heq]

end WindowedMetrics
