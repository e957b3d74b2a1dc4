/-
Signs of the sums that function counters export under delta values.  A
reading below the one before it counts in full, as that of a total that was
reset.  So an increase is below zero exactly if the reading itself is, and the
sum goes down although sums are meant to grow.
-/
import WindowedMetrics.Proofs.Meter.Account
import WindowedMetrics.Proofs.Number.Sign

namespace WindowedMetrics

/-! ### Increases -/

section Increases

variable {previous reading : Float}

theorem increase_of_le (hle : previous ≤ reading) :
    increase previous reading = reading - previous :=
  if_pos hle

theorem increase_of_not_le (hless : ¬ previous ≤ reading) :
    increase previous reading = reading :=
  if_neg hless

/-- The increase of a reading is below zero only after a reset to a number
that is. -/
theorem zero_add_increase_lt_zero_iff (hprevious : previous.isFinite = true)
    (hreading : reading.isFinite = true) :
    0.0 + increase previous reading < 0.0 ↔
      reading < previous ∧ reading < 0.0 := by
  by_cases hle : previous ≤ reading
  · rw [increase_of_le hle]
    have hgrown := zero_le_zero_add_sub hprevious hreading hle
    exact iff_of_false (not_float_lt_of_le hgrown) fun h =>
      not_float_lt_of_le hle h.1
  · rw [increase_of_not_le hle, zero_add_lt_zero_iff hreading]
    exact (and_iff_right (float_lt_of_not_le hprevious hreading hle)).symm

/-- Every increase of finite readings is a number on one side of zero. -/
theorem zero_le_zero_add_increase (hprevious : previous.isFinite = true)
    (hreading : reading.isFinite = true)
    (hnot : ¬ (reading < previous ∧ reading < 0.0)) :
    0.0 ≤ 0.0 + increase previous reading := by
  by_cases hle : previous ≤ reading
  · rw [increase_of_le hle]
    exact zero_le_zero_add_sub hprevious hreading hle
  · rw [increase_of_not_le hle]
    apply zero_le_zero_add
    by_contra hbelow
    exact hnot ⟨float_lt_of_not_le hprevious hreading hle,
      float_lt_of_not_le rfl hreading hbelow⟩

end Increases

/-! ### Shown amounts -/

namespace Account

/-- The step that is shown was closed by a reading below zero and below the
one before it. -/
def FellTo (a : Account Float) (reading : Float) : Prop :=
  ∃ previous, a.shown = some (previous, reading) ∧ reading < previous ∧
    reading < 0.0

variable {a : Account Float}
  (h : a.AllNoted fun reading => reading.isFinite = true)

include h

theorem amount_lt_zero_iff :
    a.amount (Accumulator.doubleSum.reckoning increase) < 0.0 ↔
      ∃ reading, a.FellTo reading := by
  obtain ⟨step, noted, shown⟩ := a
  cases shown with
  | none =>
      have hzero : (0.0 : Float) ≤ 0.0 := by decide
      refine iff_of_false (not_float_lt_of_le hzero) ?_
      rintro ⟨_, _, hshown, -⟩
      cases hshown
  | some ends =>
      obtain ⟨hprevious, hreading⟩ := h.shown ends rfl
      refine (zero_add_increase_lt_zero_iff hprevious hreading).trans ?_
      constructor
      · intro hfell
        exact ⟨ends.2, ends.1, rfl, hfell⟩
      · rintro ⟨_, _, hshown, hfell⟩
        cases hshown
        exact hfell

theorem zero_le_amount (hnot : ¬ ∃ reading, a.FellTo reading) :
    0.0 ≤ a.amount (Accumulator.doubleSum.reckoning increase) := by
  obtain ⟨step, noted, shown⟩ := a
  cases shown with
  | none => exact (by decide : (0.0 : Float) ≤ 0.0)
  | some ends =>
      obtain ⟨hprevious, hreading⟩ := h.shown ends rfl
      exact zero_le_zero_add_increase hprevious hreading fun hfell =>
        hnot ⟨ends.2, ends.1, rfl, hfell⟩

/-- What is shown is then the reading itself. -/
theorem FellTo.amount_beq {reading : Float} (hfell : a.FellTo reading) :
    (a.amount (Accumulator.doubleSum.reckoning increase) == reading) =
      true := by
  obtain ⟨previous, hshown, hless, -⟩ := hfell
  obtain ⟨step, noted, shown⟩ := a
  cases hshown
  obtain ⟨-, hreading⟩ := h.shown _ rfl
  have hamount : amount (Accumulator.doubleSum.reckoning increase)
      ⟨step, noted, some (previous, reading)⟩ =
        0.0 + increase previous reading := rfl
  rw [hamount, increase_of_not_le fun hle => not_float_lt_of_le hle hless]
  exact zero_add_beq hreading

end Account

/-! ### Exported sums -/

/-- A function counter whose source is there exports one sum. -/
theorem Conversion.points_functionCounter (c : Conversion) (id : Id)
    (created : Int) (f : FunctionCounter) (m : Moment) :
    let meter : Meter := ⟨id, created, .functionCounter (some f)⟩
    (c.points meter m).1 =
      if f.isAlive m then [c.sumPoint meter (f.value c.temporality m).1 []]
      else [] := by
  intro meter
  change (if f.isAlive m then _ else _ : List NamedPoint × Meter).1 = _
  by_cases halive : f.isAlive m = true
  · rw [if_pos halive, if_pos halive]
    rfl
  · rw [if_neg halive, if_neg halive]

/-- The sums of a function counter under delta values, after any run:
readings in any order, with rollovers, exports and closings at any times.  The
exported sum is below zero exactly if the step that it is of was closed by a
reading below zero and below the one before it, and is then that reading.
Otherwise it is at least zero, and so it always is for a source that does not
go below zero. -/
theorem function_counter_delta_sign (c : RegistrySettings) (source : Source)
    {start : Int} (hstart : start ≤ maxInt64) {uses : List TimedUse}
    (hnow : ∀ u ∈ uses, u.moment.now ≤ maxInt64) {m : Moment}
    (hm : m.now ≤ maxInt64) (conversion : Conversion)
    (hdelta : conversion.temporality = .delta) (id : Id) (created : Int) :
    let length := StepTracker.lengthMillis c.step
    let readings := FunctionCounter.given source
    let f := (FunctionCounter.create source c start).useAll uses
    let meter : Meter := ⟨id, created, .functionCounter (some f)⟩
    let account := (Account.of 0.0 length start readings uses).touch
      (m.now.tdiv length) (readings m)
    ∃ value,
      (conversion.points meter m).1 =
        (if f.isAlive m then [conversion.sumPoint meter value []] else []) ∧
      (value < 0.0 ↔ ∃ reading, account.FellTo reading) ∧
      (∀ reading, account.FellTo reading → (value == reading) = true) ∧
      ((¬ ∃ reading, account.FellTo reading) → 0.0 ≤ value) ∧
      ((∀ u ∈ uses, ∀ reading ∈ readings u.moment, 0.0 ≤ reading) →
        (∀ reading ∈ readings m, 0.0 ≤ reading) → 0.0 ≤ value) := by
  intro length readings f meter account
  have hgiven (m : Moment) : ∀ reading ∈ readings m,
      reading.isFinite = true := fun _ hreading =>
    (Option.filter_eq_some_iff.mp hreading).2
  have hnoted : account.AllNoted fun reading => reading.isFinite = true :=
    (Account.allNoted_of (P := (Float.isFinite · = true)) rfl
      fun u _ => hgiven u.moment).touch (hgiven m) _
  have hvalue : (f.value conversion.temporality m).1 =
      account.amount (Accumulator.doubleSum.reckoning increase) := by
    rw [hdelta]
    exact FunctionCounter.value_eq_amount hstart hnow hm source
  refine ⟨_, ?_, Account.amount_lt_zero_iff hnoted,
    fun _ hfell => hfell.amount_beq hnoted, Account.zero_le_amount hnoted, ?_⟩
  · rw [conversion.points_functionCounter id created f m, hvalue]
  · intro huses hlast
    have hupright : account.AllNoted fun reading => 0.0 ≤ reading :=
      (Account.allNoted_of (P := ((0.0 : Float) ≤ ·)) (by decide)
        huses).touch hlast _
    apply Account.zero_le_amount hnoted
    rintro ⟨reading, previous, hshown, -, hbelow⟩
    exact not_float_lt_of_le (hupright.shown _ hshown).2 hbelow

/-- A source that reads 5 at one rollover and -3 at the next: the sum of the
step between them is -3. -/
theorem function_counter_delta_sign_below_zero :
    let moment := fun (now : Int) (value : Float) =>
      (⟨⟨now, 0⟩, none, fun _ => 0, ⟨fun _ => value, fun _ => true⟩⟩ : Moment)
    let uses : List TimedUse := [⟨moment 60000 5.0, .rollover⟩]
    let m := moment 120000 (-3.0)
    let f := (FunctionCounter.create (.strong 0) .standard 0).useAll uses
    let conversion := Conversion.starting 120000
      RegistrySettings.standard.step .delta .milliseconds
    let meter : Meter := ⟨Id.named "level" [], 0, .functionCounter (some f)⟩
    ∃ value, (conversion.points meter m).1 =
        [conversion.sumPoint meter value []] ∧
      value < 0.0 ∧ (value == -3.0) = true := by
  intro moment uses m f conversion meter
  have hnow : ∀ u ∈ uses, u.moment.now ≤ maxInt64 := by
    intro u hu
    obtain rfl := List.mem_singleton.mp hu
    exact (by decide : (60000 : Int) ≤ maxInt64)
  have hstart : (0 : Int) ≤ maxInt64 := by decide
  have hm : m.now ≤ maxInt64 := (by decide : (120000 : Int) ≤ maxInt64)
  have hfell : ((Account.of 0.0
      (StepTracker.lengthMillis RegistrySettings.standard.step) 0
      (FunctionCounter.given (.strong 0)) uses).touch
      ((120000 : Int).tdiv
        (StepTracker.lengthMillis RegistrySettings.standard.step))
      (FunctionCounter.given (.strong 0) m)).FellTo (-3.0) :=
    ⟨5.0, by decide +kernel, by decide, by decide⟩
  obtain ⟨value, hpoints, hbelow, hequal, -, -⟩ :=
    function_counter_delta_sign .standard (.strong 0) hstart hnow hm
      conversion rfl (Id.named "level" []) 0
  have halive : f.isAlive m = true := by decide +kernel
  refine ⟨value, ?_, hbelow.mpr ⟨_, hfell⟩, hequal _ hfell⟩
  exact hpoints.trans (if_pos halive)

/-- The sum of a constant source that is below zero is, too. -/
theorem exists_negative_delta :
    ∃ (f : FunctionCounter) (m : Moment) (conversion : Conversion)
      (meter : Meter) (p : NamedPoint) (point : NumberPoint),
      f = FunctionCounter.create (.constant (-5.0)) .standard 0 ∧
        conversion.temporality = .delta ∧
        meter.instrument = .functionCounter (some f) ∧
        (conversion.points meter m).1 = [p] ∧ p.point = .sum point ∧
        point.value < 0.0 := by
  let m : Moment :=
    ⟨⟨60000, 0⟩, none, fun _ => 0, ⟨fun _ => 0.0, fun _ => true⟩⟩
  let f := FunctionCounter.create (.constant (-5.0)) .standard 0
  let conversion := Conversion.starting 60000 RegistrySettings.standard.step
    .delta .milliseconds
  have hbelow : (f.value .delta m).1 < 0.0 := by decide +kernel
  exact ⟨f, m, conversion, ⟨Id.named "level" [], 0, .functionCounter (some f)⟩,
    _, _, rfl, rfl, rfl,
    conversion.points_functionCounter (Id.named "level" []) 0 f m, rfl, hbelow⟩

end WindowedMetrics
