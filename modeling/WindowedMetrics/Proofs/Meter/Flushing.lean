/-
What function meters show once they are closed.  The close flushes the
increase since the last rollover, unless it finds its clock in a later step:
then it takes the reading at the rollover that is due, and shows the empty
step after it.
-/
import WindowedMetrics.Proofs.Meter.Account

namespace WindowedMetrics

namespace Account

variable {A : Type}

/-- What a close in a step flushes: the increase since the reading that was
noted last, and nothing if it comes too late. -/
def flushed (r : Reckoning A) (a : Account A) (step : Int)
    (reading : Option A) : A :=
  if a.step < step then r.nothing
  else reading.elim r.nothing (r.increase a.noted)

/-- A closed account shows what it flushed.  Where the touch has noted the
reading already, the reading has no increase left. -/
theorem amount_close (r : Reckoning A)
    (hnone : ∀ total, r.increase total total = r.nothing) {a : Account A}
    {step : Int} (hopen : max a.step step < StepTracker.closedStep)
    (reading : Option A) :
    (a.close step reading).amount r = a.flushed r step reading := by
  unfold flushed close
  by_cases hlate : a.step < step
  · rw [touch_of_lt hlate, if_pos hlate, shut_of_open (by dsimp only; omega)]
    cases reading with
    | none => rfl
    | some total => exact hnone total
  · rw [touch_of_le (Int.not_lt.mp hlate), if_neg hlate,
      shut_of_open (by omega)]
    cases reading <;> rfl

theorem of_append_close {nothing : A} {length start : Int}
    {reading : Moment → Option A} {uses : List TimedUse} {m : Moment} :
    of nothing length start reading (uses ++ [⟨m, .close⟩]) =
      (of nothing length start reading uses).close (m.now.tdiv length)
        (reading m) :=
  of_append_singleton

/-- A closed account is not touched again. -/
theorem touch_close {a : Account A} {step later : Int}
    (hlater : later ≤ StepTracker.closedStep) (reading more : Option A) :
    (a.close step reading).touch later more = a.close step reading :=
  touch_of_le hlater more

/-- An open run is in a step that it was in before or that a use was in. -/
theorem step_of_lt {nothing : A} {length start bound : Int}
    {reading : Moment → Option A} {uses : List TimedUse}
    (hstart : start.tdiv length < bound) (hopen : ∀ u ∈ uses, u.use ≠ .close)
    (huses : ∀ u ∈ uses, u.stepIn length < bound) :
    (of nothing length start reading uses).step < bound := by
  induction uses using List.reverseRecOn with
  | nil => exact hstart
  | append_singleton before u ih =>
      have hbefore := ih (fun v hv => hopen v (List.mem_append_left [u] hv))
        fun v hv => huses v (List.mem_append_left [u] hv)
      rw [of_append_singleton]
      rcases htouches : u.touches with _ | _
      · rw [next_of_not_touches _ htouches (hopen u (by simp))]
        exact hbefore
      · rw [next_of_touches _ htouches]
        unfold touch
        split
        · exact huses u (by simp)
        · exact hbefore

end Account

/-- Exact readings have exact amounts. -/
theorem Reckoning.Exact.amount_map {A V : Type} {r : Reckoning A}
    {acc : Accumulator V} {increase : V → V → V} {value : A → V}
    {Small : A → Prop} (hexact : r.Exact acc increase value Small)
    {a : Account A} (h : a.AllNoted Small) :
    (a.map value).amount (acc.reckoning increase) = value (a.amount r) := by
  obtain ⟨step, noted, shown⟩ := a
  cases shown with
  | none => exact hexact.nothing_eq.symm
  | some ends =>
      obtain ⟨hprevious, htotal⟩ := h.shown ends rfl
      exact hexact.merge_increase hprevious htotal

theorem Reckoning.counts_self (n : Nat) :
    Reckoning.counts.increase n n = Reckoning.counts.nothing := by
  simp [counts]

theorem Reckoning.pairs_self (pair : Nat × Nat) :
    Reckoning.pairs.increase pair pair = Reckoning.pairs.nothing := by
  simp [pairs, counts]

section Flushing

variable {A V : Type} {acc : Accumulator V} {increase : V → V → V}
  {r : Reckoning A} {value : A → V} {Small : A → Prop}
  {length start : Int} {reading : Moment → Option A}
  {given : Moment → Option V} {uses : List TimedUse} {m after : Moment}
  (hexact : r.Exact acc increase value Small)
  (hnone : ∀ total, r.increase total total = r.nothing)
  (hlength : 0 < length) (hstart : start < maxInt64)
  (hopen : ∀ u ∈ uses, u.use ≠ .close)
  (hnow : ∀ u ∈ uses ++ [⟨m, .close⟩], u.moment.now < maxInt64)
  (hafter : after.now ≤ maxInt64)
  (hgiven : ∀ u ∈ uses ++ [⟨m, .close⟩],
    given u.moment = (reading u.moment).map value)
  (hsmall : ∀ u ∈ uses ++ [⟨m, .close⟩], ∀ total,
    reading u.moment = some total → Small total)

include hexact hnone hlength hstart hopen hnow hafter hgiven hsmall

/-- After an open run and a close, the account shows what the close
flushed. -/
theorem amount_of_close :
    ((Account.of (value r.nothing) length start given
        (uses ++ [⟨m, .close⟩])).touch (after.now.tdiv length)
          (given after)).amount (acc.reckoning increase) =
      value ((Account.of r.nothing length start reading uses).flushed r
        (m.now.tdiv length) (reading m)) := by
  have hbelow : (Account.of r.nothing length start reading uses).step <
      StepTracker.closedStep :=
    Account.step_of_lt (tdiv_lt_closedStep hlength hstart) hopen fun u hu =>
      tdiv_lt_closedStep hlength (hnow u (List.mem_append_left _ hu))
  have hclosing : m.now.tdiv length < StepTracker.closedStep :=
    tdiv_lt_closedStep hlength (hnow ⟨m, .close⟩ (by simp))
  have hnoted : (Account.of r.nothing length start reading
      (uses ++ [⟨m, .close⟩])).AllNoted Small :=
    Account.allNoted_of hexact.nothing_small hsmall
  rw [Account.of_append_close,
    Account.touch_close (tdiv_le_closedStep hlength hafter),
    ← Account.of_append_close, ← Account.map_of value hgiven,
    hexact.amount_map hnoted, Account.of_append_close,
    Account.amount_close r hnone (max_lt hbelow hclosing)]

end Flushing

/-- What a function meter shows once it is closed.  After a run without
closings, with readings that are small whole numbers or not finite, a close
in the step that the meter is in shows the increase of the reading since the
last rollover that noted one, in full after a reset.  A close in a later step
shows nothing, the next one included: the rollover that is due takes the
increase, and what it shows is overwritten at once.  For a timer this holds
of both totals together.  (The last millisecond of 64-bit times is left out,
as its number may stand for a closed window.) -/
theorem function_meters_flush (c : RegistrySettings) (start : Int)
    (hstart : start < maxInt64) (uses : List TimedUse)
    (hopen : ∀ u ∈ uses, u.use ≠ .close) (m after : Moment)
    (hnow : ∀ u ∈ uses ++ [⟨m, .close⟩], u.moment.now < maxInt64)
    (hafter : after.now ≤ maxInt64) :
    let length := StepTracker.lengthMillis c.step
    let closing := uses ++ [⟨m, .close⟩]
    (∀ source : Source,
      (∀ u ∈ closing, source.ReadsWhole 1 u.moment.readings) →
      let reading := fun m : Moment => source.whole? m.readings
      let account := Account.of 0 length start reading uses
      (((FunctionCounter.create source c start).useAll closing).value .delta
          after).1 =
        countToFloat (account.flushed .counts (m.now.tdiv length)
          (reading m))) ∧
    (∀ (count time : Source) (unit : TimeUnit),
      (∀ u ∈ closing, count.ReadsWhole 1 u.moment.readings) →
      (∀ u ∈ closing, time.ReadsWhole unit.nanosCount u.moment.readings) →
      let reading := fun m : Moment =>
        FunctionTimer.whole? count time unit m.readings
      let account := Account.of (0, 0) length start reading uses
      (((FunctionTimer.create count time unit c start).useAll closing).values
          .delta after).1 =
        Prod.map countToFloat countToFloat
          (account.flushed .pairs (m.now.tdiv length) (reading m))) := by
  intro length closing
  have hlength : 0 < length := StepTracker.timed_starting c.step start
  have htimes : ∀ u ∈ closing, u.moment.now ≤ maxInt64 := fun u hu =>
    Int.le_of_lt (hnow u hu)
  refine ⟨?_, ?_⟩
  · intro source hwhole reading account
    have hread := fun u hu => (hwhole u hu).finite?_eq Nat.one_pos
    have hsmall : ∀ u ∈ closing, ∀ total, reading u.moment = some total →
        SmallCount total := by
      intro u hu total htotal
      have hscaled := (hread u hu).2 total htotal
      rwa [Nat.mul_one] at hscaled
    have hzero : (0.0 : Float) = countToFloat Reckoning.counts.nothing :=
      countToFloat_zero.symm
    rw [FunctionCounter.value_eq_amount (Int.le_of_lt hstart) htimes hafter,
      hzero]
    exact amount_of_close exact_counts Reckoning.counts_self hlength hstart
      hopen hnow hafter (fun u hu => (hread u hu).1) hsmall
  · intro count time unit hcount htime reading account
    let f := FunctionTimer.create count time unit c start
    have hread := fun u hu => f.readings?_eq (hcount u hu) (htime u hu)
    have hzero : ((0.0, 0.0) : Float × Float) =
        Prod.map countToFloat countToFloat Reckoning.pairs.nothing :=
      exact_pairs.nothing_eq.symm
    rw [FunctionTimer.values_eq_amount (Int.le_of_lt hstart) htimes hafter,
      hzero]
    exact amount_of_close exact_pairs Reckoning.pairs_self hlength hstart
      hopen hnow hafter (fun u hu => (hread u hu).1)
      (fun u hu => (hread u hu).2)

/-- With one-minute steps, a rollover that notes 5 and a close half a minute
later at 9: the counter flushes 4, a timer in microseconds also as many
thousand nanoseconds.  A minute later the close flushes nothing. -/
theorem function_meters_flush_of_minutes :
    let moment := fun (now : Int) (n : Nat) =>
      (⟨⟨now, 0⟩, none, fun _ => 0, ⟨fun _ => countToFloat n, fun _ => true⟩⟩ :
        Moment)
    let uses : List TimedUse := [⟨moment 60000 5, .rollover⟩]
    let early := uses ++ [⟨moment 90000 9, .close⟩]
    let late := uses ++ [⟨moment 150000 9, .close⟩]
    let counter := FunctionCounter.create (.strong 0) .standard 0
    let timer :=
      FunctionTimer.create (.strong 0) (.strong 1) .microseconds .standard 0
    ((counter.useAll early).value .delta (moment 150000 9)).1 =
        countToFloat 4 ∧
      ((timer.useAll early).values .delta (moment 150000 9)).1 =
        (countToFloat 4, countToFloat 4000) ∧
      ((counter.useAll late).value .delta (moment 150000 9)).1 =
        countToFloat 0 := by
  intro moment uses early late counter timer
  have hreads : ∀ cell : Nat, ∀ scale ≤ 1000, ∀ now, ∀ u ∈ uses ++
      [⟨moment now 9, .close⟩],
      (Source.strong cell).ReadsWhole scale u.moment.readings := by
    intro cell scale hscale now u hu
    have hsmall : ∀ n ≤ 9, SmallCount (n * scale) := fun n hn =>
      (Nat.mul_le_mul hn hscale).trans (by decide)
    simp only [uses, List.cons_append, List.nil_append, List.mem_cons,
      List.not_mem_nil, or_false] at hu
    rcases hu with rfl | rfl
    · exact Source.readsWhole_strong rfl (hsmall 5 (by decide))
    · exact Source.readsWhole_strong rfl (hsmall 9 (by decide))
  have hnow : ∀ now < maxInt64, ∀ u ∈ uses ++ [⟨moment now 9, .close⟩],
      u.moment.now < maxInt64 := by
    intro now hnow u hu
    simp only [uses, List.cons_append, List.nil_append, List.mem_cons,
      List.not_mem_nil, or_false] at hu
    rcases hu with rfl | rfl
    · exact (by decide : (60000 : Int) < maxInt64)
    · exact hnow
  obtain ⟨hcounter, htimer⟩ := function_meters_flush .standard 0 (by decide)
    uses (by simp [uses]) (moment 90000 9) (moment 150000 9)
    (hnow 90000 (by decide)) (by decide)
  obtain ⟨hlate, -⟩ := function_meters_flush .standard 0 (by decide)
    uses (by simp [uses]) (moment 150000 9) (moment 150000 9)
    (hnow 150000 (by decide)) (by decide)
  have hearly := hcounter (.strong 0) (hreads 0 1 (by decide) 90000)
  have hboth := htimer (.strong 0) (.strong 1) .microseconds
    (hreads 0 1 (by decide) 90000) (hreads 1 1000 (by decide) 90000)
  have hnothing := hlate (.strong 0) (hreads 0 1 (by decide) 150000)
  have hlast : (Account.of 0
      (StepTracker.lengthMillis RegistrySettings.standard.step) 0
      (fun m => (Source.strong 0).whole? m.readings) uses).flushed .counts
      ((90000 : Int).tdiv
        (StepTracker.lengthMillis RegistrySettings.standard.step))
      ((Source.strong 0).whole? (moment 90000 9).readings) = 4 := by
    decide +kernel
  have hlasts : (Account.of (0, 0)
      (StepTracker.lengthMillis RegistrySettings.standard.step) 0
      (fun m => FunctionTimer.whole? (.strong 0) (.strong 1) .microseconds
        m.readings) uses).flushed .pairs
      ((90000 : Int).tdiv
        (StepTracker.lengthMillis RegistrySettings.standard.step))
      (FunctionTimer.whole? (.strong 0) (.strong 1) .microseconds
        (moment 90000 9).readings) = (4, 4000) := by
    decide +kernel
  have hmissed : (Account.of 0
      (StepTracker.lengthMillis RegistrySettings.standard.step) 0
      (fun m => (Source.strong 0).whole? m.readings) uses).flushed .counts
      ((150000 : Int).tdiv
        (StepTracker.lengthMillis RegistrySettings.standard.step))
      ((Source.strong 0).whole? (moment 150000 9).readings) = 0 := by
    decide +kernel
  refine ⟨hearly.trans ?_, hboth.trans ?_, hnothing.trans ?_⟩
  · exact congrArg countToFloat hlast
  · exact congrArg (Prod.map countToFloat countToFloat) hlasts
  · exact congrArg countToFloat hmissed

/-- A close in the step after the one that a counter is in loses what the
source counted since the last rollover. -/
theorem exists_close_without_flush :
    ∃ (source : Source) (c : RegistrySettings) (start : Int) (m : Moment)
      (n : Nat),
      m.now.tdiv (StepTracker.lengthMillis c.step) =
          start.tdiv (StepTracker.lengthMillis c.step) + 1 ∧
        source.finite? m.readings = some (countToFloat n) ∧ 0 < n ∧
        ((((FunctionCounter.create source c start).close m).value .delta
          m).1 == 0.0) = true :=
  ⟨.strong 0, .standard, 0,
    ⟨⟨60000, 0⟩, none, fun _ => 0, ⟨fun _ => countToFloat 5, fun _ => true⟩⟩,
    5, by decide, by with_unfolding_all rfl, by decide, by decide +kernel⟩

end WindowedMetrics
