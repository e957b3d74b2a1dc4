/-
Delta points and the step that they report.  The interval of a conversion is
the last step that ended, the step that every window shows when it is read,
so a point counts the amounts of its own interval and no others.
-/
import WindowedMetrics.Export.Publication
import WindowedMetrics.Proofs.Meter.Tracking

namespace WindowedMetrics

/-! ### Intervals -/

/-- Whether a wall time in milliseconds lies in an interval; the interval's
end does not belong to it. -/
def Interval.contains (i : Interval) (wall : Int) : Bool :=
  decide ((i.start : Int) ≤ wall * 1000000 ∧ wall * 1000000 < i.stop)

/-- The interval that a point covers. -/
def Point.interval : Point → Interval
  | sum p => p.interval
  | gauge p => p.interval
  | histogram p => p.interval
  | summary p => p.interval

/-- Both lengths of a step are the same if nanoseconds of a step fit into 64
bits. -/
theorem lengthMillis_eq_max {step : Duration}
    (hnanos : step.millis * 1000000 < UInt64.size) :
    StepTracker.lengthMillis step =
      (max (step.millis % UInt64.size) 1 : Nat) := by
  have hmod : step.millis % UInt64.size = step.millis :=
    Nat.mod_eq_of_lt (by omega)
  have hword : wrapInt64 step.millis = step.millis := by
    simp only [UInt64.size] at hnanos
    apply wrapInt64_of_mem
    · simp only [minInt64]
      omega
    · simp only [maxInt64]
      omega
  simp only [StepTracker.lengthMillis, hword, hmod]
  omega

/-- The times of the step before the one of `now`. -/
theorem lastStep_iff {length : Nat} (hlength : 0 < length) (now wall : Nat) :
    (now / length * length * 1000000 - length * 1000000 ≤ wall * 1000000 ∧
        wall * 1000000 < now / length * length * 1000000) ↔
      wall / length + 1 = now / length := by
  generalize now / length = step
  cases step with
  | zero => simp
  | succ before =>
      have hstart : (before + 1) * length * 1000000 - length * 1000000 =
          before * length * 1000000 := by
        rw [Nat.add_mul, Nat.add_mul, Nat.one_mul, Nat.add_sub_cancel]
      have hlow : before * length ≤ wall ↔ before ≤ wall / length :=
        (Nat.le_div_iff_mul_le hlength).symm
      have hhigh : wall < (before + 1) * length ↔
          wall / length < before + 1 := (Nat.div_lt_iff_lt_mul hlength).symm
      rw [hstart]
      constructor
      · rintro ⟨hfrom, hto⟩
        have := hlow.mp (by omega)
        have := hhigh.mp (by omega)
        omega
      · intro hstep
        have := hlow.mpr (by omega)
        have := hhigh.mpr (by omega)
        omega

/-- The step before the one of `now`, as an interval. -/
theorem contains_stepBefore {length : Nat} (hlength : 0 < length)
    (now wall : Nat) :
    Interval.contains
        ⟨now / length * length * 1000000 - length * 1000000,
          now / length * length * 1000000⟩ wall =
      decide ((wall : Int).tdiv length = (now : Int).tdiv length - 1) := by
  have hiff := lastStep_iff hlength now wall
  simp only [Interval.contains, decide_eq_decide, ← Int.ofNat_tdiv]
  constructor
  · intro hinside
    have := hiff.mp (by omega)
    omega
  · intro hstep
    have := hiff.mpr (by omega)
    omega

/-- No timestamp of a conversion is cut if the nanoseconds of the present time
and of a step fit into 64 bits. -/
theorem lastStep_starting {step : Duration}
    (hnanos : step.millis * 1000000 < UInt64.size) {now : Nat}
    (hfits : now * 1000000 < UInt64.size) (temporality : Temporality)
    (unit : TimeUnit) :
    let length := max (step.millis % UInt64.size) 1
    (Conversion.starting now step temporality unit).lastStep =
      ⟨now / length * length * 1000000 - length * 1000000,
        now / length * length * 1000000⟩ := by
  intro length
  have hlength : length * 1000000 < UInt64.size := by
    simp only [length]
    rcases Nat.le_total (step.millis % UInt64.size) 1 with hshort | hlong
    · rw [Nat.max_eq_right hshort]
      decide
    · rw [Nat.max_eq_left hlong]
      exact Nat.lt_of_le_of_lt
        (Nat.mul_le_mul_right _ (Nat.mod_le _ _)) hnanos
  have hstop : now / length * length * 1000000 < UInt64.size :=
    Nat.lt_of_le_of_lt
      (Nat.mul_le_mul_right _ (Nat.div_mul_le_self now length)) hfits
  simp only [Conversion.starting, Int.toNat_natCast]
  rw [Conversion.nanosOf_of_lt hstop, Conversion.nanosOf_of_lt hlength]

/-- The last step of a conversion holds the wall times of the step before the
present one. -/
theorem contains_lastStep {step : Duration}
    (hnanos : step.millis * 1000000 < UInt64.size) {now wall : Int}
    (hnow : 0 ≤ now) (hfits : now * 1000000 < UInt64.size) (hwall : 0 ≤ wall)
    (temporality : Temporality) (unit : TimeUnit) :
    (Conversion.starting now step temporality unit).lastStep.contains wall =
      decide (wall.tdiv (StepTracker.lengthMillis step) =
        now.tdiv (StepTracker.lengthMillis step) - 1) := by
  obtain ⟨n, rfl⟩ := Int.eq_ofNat_of_zero_le hnow
  obtain ⟨w, rfl⟩ := Int.eq_ofNat_of_zero_le hwall
  have hnanosNow : n * 1000000 < UInt64.size :=
    Int.ofNat_lt.mp (by rw [Int.natCast_mul]; exact hfits)
  rw [lengthMillis_eq_max hnanos, lastStep_starting hnanos hnanosNow]
  exact contains_stepBefore (by omega) n w

/-! ### What points report -/

/-- A point of a distribution says of some values what it can: their number
and their sum in order, and beside them, in a histogram, the largest of zero
and them, and how many belong to every bucket.  Bounds, sums and maxima are in
the unit of the point. -/
def Point.ReportsValues (p : Point) (convert : Float → Float)
    (bounds : Array Float) (values : List Float) : Prop :=
  match p with
  | histogram p =>
      p.count = UInt64.ofNat values.length ∧
      p.sum = convert (values.foldl (· + ·) 0.0) ∧
      p.max = some (convert (values.foldl peak 0.0)) ∧
      p.bounds = (bounds.toList.filter Float.isFinite).map convert ∧
      p.buckets = (BucketCounts.tally bounds values).toList
  | summary p =>
      p.count = UInt64.ofNat values.length ∧
      p.sum = convert (values.foldl (· + ·) 0.0)
  | _ => False

/-- A point of a counter, timer or summary reports some values. -/
def Meter.Reports (meter : Meter) (c : Conversion) (values : List Float)
    (p : Point) : Prop :=
  match meter.instrument, p with
  | .counter _, .sum p => p.value = values.foldl (· + ·) 0.0
  | .timer (some d), p => p.ReportsValues (c.convert true) d.bounds values
  | .summary _ (some d), p =>
      p.ReportsValues (c.convert false) d.bounds values
  | _, _ => False

/-- A counter reports with a sum. -/
theorem Meter.exists_sum_of_reports {meter : Meter} {c : Conversion}
    {values : List Float} {p : Point} (hkind : meter.kind = .counter)
    (h : meter.Reports c values p) :
    ∃ q, p = .sum q ∧ q.value = values.foldl (· + ·) 0.0 := by
  obtain ⟨id, created, instrument⟩ := meter
  cases instrument with
  | counter state =>
      cases p with
      | sum q => exact ⟨q, rfl, h⟩
      | _ => exact h.elim
  | _ => cases hkind

namespace Snapshot

theorem count_ofValues (plan : Option SlotPlan) (values : List Float) :
    (ofValues plan values).count = UInt64.ofNat values.length := by
  cases plan <;> rfl

theorem total_ofValues (plan : Option SlotPlan) (values : List Float) :
    (ofValues plan values).total = values.foldl (· + ·) 0.0 := by
  cases plan <;> rfl

theorem max_ofValues (plan : Option SlotPlan) (values : List Float) :
    (ofValues plan values).max = values.foldl peak 0.0 := by
  cases plan <;> rfl

/-- The bounds that an optional layout counts by. -/
def boundsOf (plan : Option SlotPlan) : Array Float :=
  (plan.map SlotPlan.bounds).getD #[]

theorem map_count_buckets_ofValues (plan : Option SlotPlan)
    (values : List Float) :
    (ofValues plan values).buckets.map Bucket.count =
      (BucketCounts.tally (boundsOf plan)
        (SlotPlan.numbers values)).toList := by
  cases plan with
  | none => rfl
  | some plan =>
      apply List.ext_getElem
      · simp [ofValues, SlotPlan.snapshotOf, boundsOf]
      · intro i _ _
        simp [ofValues, SlotPlan.snapshotOf, boundsOf]

theorem map_bound_buckets_ofValues (plan : Option SlotPlan)
    (values : List Float) :
    (ofValues plan values).buckets.map Bucket.bound =
      (boundsOf plan).toList := by
  cases plan with
  | none => rfl
  | some plan =>
      apply List.ext_getElem
      · simp [ofValues, SlotPlan.snapshotOf, boundsOf]
      · intro i _ _
        simp [ofValues, SlotPlan.snapshotOf, boundsOf]

end Snapshot

theorem Distribution.Tracks.bounds_eq {d : Distribution}
    {length present : Int} {log : StepLog Float}
    (hd : d.Tracks length present log) :
    d.bounds = Snapshot.boundsOf d.plan? := by
  simp only [Distribution.bounds, Distribution.boundsOf, Distribution.plan?]
  cases hhistogram : d.histogram with
  | none => rfl
  | some histogram =>
      obtain ⟨stepped, rfl, _⟩ := hd.histogram histogram hhistogram
      rfl

namespace Conversion

/-- The points of a snapshot of values, whichever of the two there are. -/
theorem distributionPoints_report (c : Conversion) (meter : Meter)
    (timeBased : Bool) (plan : Option SlotPlan) {values : List Float}
    (haccepted : ∀ value ∈ values, isAccepted value = true)
    (exemplars : List Exemplar) (hdelta : c.temporality = .delta) :
    let points := c.distributionPoints meter timeBased
      (Snapshot.ofValues plan values) exemplars
    points ≠ [] ∧ ∀ p ∈ points,
      p.name = meter.id.name ∧
      p.point.attributes = meter.id.tags.toPairs ∧
      p.point.interval = c.lastStep ∧
      p.point.ReportsValues (c.convert timeBased) (Snapshot.boundsOf plan)
        values := by
  intro points
  have hinterval : c.interval meter = c.lastStep := by
    simp only [interval, hdelta]
  constructor
  · simp only [points, distributionPoints]
    cases (Snapshot.ofValues plan values).hasPercentiles <;> simp
  · intro p hp
    simp only [points, distributionPoints, List.mem_append,
      List.mem_ite_nil_right, List.mem_singleton] at hp
    rcases hp with ⟨_, rfl⟩ | ⟨_, rfl⟩
    · refine ⟨rfl, rfl, hinterval, ?_, ?_⟩
      · exact Snapshot.count_ofValues plan values
      · exact congrArg (c.convert timeBased)
          (Snapshot.total_ofValues plan values)
    · refine ⟨rfl, rfl, hinterval, ?_, ?_, ?_, ?_, ?_⟩
      · exact Snapshot.count_ofValues plan values
      · exact congrArg (c.convert timeBased)
          (Snapshot.total_ofValues plan values)
      · simp only [hdelta, Snapshot.max_ofValues]
      · rw [← Snapshot.map_bound_buckets_ofValues plan values,
          List.filter_map, List.map_map]
        rfl
      · have hbuckets := Snapshot.map_count_buckets_ofValues plan values
        rw [numbers_of_accepted haccepted] at hbuckets
        exact hbuckets

/-- A counter, timer or summary that tracks its amounts reports those of the
last step, in every point that it owes. -/
theorem points_report {meter : Meter} {m : Moment} {length : Int}
    {log : StepLog Float} (h : meter.Tracks length (m.now.tdiv length) log)
    (haccepted : ∀ value ∈ log.valuesIn (m.now.tdiv length - 1),
      isAccepted value = true)
    (c : Conversion) (hdelta : c.temporality = .delta)
    (hkind : meter.kind = .counter ∨ meter.kind = .timer ∨
      meter.kind = .summary) :
    (c.points meter m).1 ≠ [] ∧ ∀ p ∈ (c.points meter m).1,
      p.name = meter.id.name ∧
      p.point.attributes = meter.id.tags.toPairs ∧
      p.point.interval = c.lastStep ∧
      meter.Reports c (log.valuesIn (m.now.tdiv length - 1)) p.point := by
  obtain ⟨id, created, instrument⟩ := meter
  cases instrument with
  | counter state =>
      obtain ⟨counter, rfl, hcounter⟩ := h
      have hpoints : (c.points ⟨id, created, .counter (some counter)⟩ m).1 =
          [c.sumPoint ⟨id, created, .counter (some counter)⟩
            ((counter.takeExemplars m.now).2.value c.temporality m.now).1
            (c.exemplars false (counter.takeExemplars m.now).1)] := rfl
      rw [hdelta, hcounter.takeExemplars.value_delta] at hpoints
      rw [hpoints]
      refine ⟨by simp, ?_⟩
      intro p hp
      obtain rfl := List.mem_singleton.mp hp
      refine ⟨rfl, rfl, ?_, rfl⟩
      simp only [sumPoint, named, Point.interval, interval, hdelta]
  | timer state =>
      obtain ⟨d, rfl, hd⟩ := h
      have hreport := c.distributionPoints_report
        ⟨id, created, .timer (some d)⟩ true d.plan?
        haccepted
      rw [← hd.snapshot_delta, ← hd.bounds_eq] at hreport
      simp only [points, snapshotOf, readState, hdelta]
      exact hreport _ hdelta
  | summary scale state =>
      obtain ⟨d, rfl, hd⟩ := h
      have hreport := c.distributionPoints_report
        ⟨id, created, .summary scale (some d)⟩ false d.plan?
        haccepted
      rw [← hd.snapshot_delta, ← hd.bounds_eq] at hreport
      simp only [points, snapshotOf, readState, hdelta]
      exact hreport _ hdelta
  | _ => simp [Meter.kind, Instrument.kind] at hkind

end Conversion

/-! ### Batches -/

/-- The points that a made meter owes at a moment. -/
def Registry.pointsOf (r : Registry) (c : Conversion) (m : Moment)
    (reference : Nat) : List NamedPoint :=
  ((r.made[reference]?).map fun meter => (c.points meter m).1).getD []

theorem Registry.pointsOf_put_of_ne (r : Registry) (c : Conversion)
    (m : Moment) {reference other : Nat} (hne : reference ≠ other)
    (meter : Meter) :
    (r.put (.made reference) meter).pointsOf c m other =
      r.pointsOf c m other := by
  simp only [pointsOf, put]
  rw [Array.getElem?_setIfInBounds_ne hne]

/-- Meters that are converted one after the other do not disturb each
other. -/
theorem convertHandles_made (c : Conversion) (r : Registry) (m : Moment)
    (references : List Nat) (hnodup : references.Nodup) :
    (convertHandles c r m (references.map MeterHandle.made)).1 =
      references.flatMap (r.pointsOf c m) := by
  induction references generalizing r with
  | nil => rfl
  | cons reference rest ih =>
      obtain ⟨hnew, hrest⟩ := List.nodup_cons.mp hnodup
      rw [List.map_cons, List.flatMap_cons]
      unfold convertHandles
      simp only [Registry.meterOf?]
      cases hmeter : r.made[reference]? with
      | none =>
          have hnothing : r.pointsOf c m reference = [] := by
            simp [Registry.pointsOf, hmeter]
          rw [hnothing, List.nil_append]
          exact ih r hrest
      | some meter =>
          have hown : r.pointsOf c m reference = (c.points meter m).1 := by
            simp [Registry.pointsOf, hmeter]
          simp only [hown]
          rw [ih _ hrest]
          congr 1
          apply List.flatMap_congr
          intro other hother
          apply Registry.pointsOf_put_of_ne
          rintro rfl
          exact hnew hother

end WindowedMetrics
