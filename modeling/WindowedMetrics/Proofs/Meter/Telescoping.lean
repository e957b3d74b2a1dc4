/-
Deltas of totals that are kept elsewhere.  As long as no step goes untouched,
the deltas that a function meter shows are the increases between its rollovers,
so they telescope, over resets and over rollovers at which nothing could be
read.
-/
import WindowedMetrics.Proofs.Meter.Sampling
import WindowedMetrics.Proofs.Number.Exact

namespace WindowedMetrics

/-! ### Exact totals -/

/-- Counts that floats hold exactly. -/
def SmallCount (n : Nat) : Prop := n ≤ 2 ^ 53

theorem exact_counts : Reckoning.counts.Exact Accumulator.doubleSum increase
    countToFloat SmallCount where
  nothing_small := Nat.zero_le _
  nothing_eq := countToFloat_zero
  merge_increase := by
    intro previous total hprevious htotal
    simp only [Accumulator.doubleSum, increase, Reckoning.counts,
      countToFloat_le hprevious htotal]
    rw [← countToFloat_zero]
    split
    · next hle =>
        have hsmall : total - previous ≤ 2 ^ 53 :=
          (Nat.sub_le _ _).trans htotal
        rw [countToFloat_sub hle htotal, countToFloat_add (by omega),
          Nat.zero_add]
    · rw [countToFloat_add (by rw [Nat.zero_add]; exact htotal), Nat.zero_add]
  increase_small := by
    intro previous total _ htotal
    unfold SmallCount at htotal ⊢
    simp only [Reckoning.counts]
    split <;> omega

/-- The increases of two totals. -/
def increaseBoth (previous total : Float × Float) : Float × Float :=
  (increase previous.1 total.1, increase previous.2 total.2)

theorem exact_pairs : Reckoning.pairs.Exact twoSums increaseBoth
    (Prod.map countToFloat countToFloat)
    (fun pair => SmallCount pair.1 ∧ SmallCount pair.2) where
  nothing_small := ⟨exact_counts.nothing_small, exact_counts.nothing_small⟩
  nothing_eq := Prod.ext exact_counts.nothing_eq exact_counts.nothing_eq
  merge_increase hprevious htotal :=
    Prod.ext (exact_counts.merge_increase hprevious.1 htotal.1)
      (exact_counts.merge_increase hprevious.2 htotal.2)
  increase_small hprevious htotal :=
    ⟨exact_counts.increase_small hprevious.1 htotal.1,
      exact_counts.increase_small hprevious.2 htotal.2⟩

/-- What a source reads is finite only for whole numbers, of which `scale`
times as much is still a small count. -/
def Source.ReadsWhole (s : Source) (scale : Nat) (r : Readings) : Prop :=
  ∀ x, s.finite? r = some x → ∃ n, SmallCount (n * scale) ∧ x = countToFloat n

/-- A cell that holds a small count is read as one. -/
theorem Source.readsWhole_strong {cell scale n : Nat} {r : Readings}
    (hvalue : r.value cell = countToFloat n) (hsmall : SmallCount (n * scale)) :
    (Source.strong cell).ReadsWhole scale r := by
  intro x hx
  have hsample : some (r.value cell) = some x :=
    (Option.filter_eq_some_iff.mp hx).1
  exact ⟨n, hsmall, by rw [← Option.some.inj hsample, hvalue]⟩

/-- The whole number that a source reads. -/
def Source.whole? (s : Source) (r : Readings) : Option Nat :=
  (s.finite? r).map ceilSaturating

theorem Source.ReadsWhole.finite?_eq {s : Source} {scale : Nat}
    {r : Readings} (h : s.ReadsWhole scale r) (hscale : 0 < scale) :
    s.finite? r = (s.whole? r).map countToFloat ∧
      ∀ n, s.whole? r = some n → SmallCount (n * scale) := by
  unfold whole?
  rcases hread : s.finite? r with _ | x
  · exact ⟨rfl, by simp⟩
  · obtain ⟨n, hsmall, rfl⟩ := h x hread
    have hn : n ≤ 2 ^ 53 := (Nat.le_mul_of_pos_right n hscale).trans hsmall
    rw [Option.map_some, ceilSaturating_countToFloat hn]
    refine ⟨rfl, fun m hm => ?_⟩
    obtain rfl := Option.some.inj hm
    exact hsmall

/-- Exact counts are summed exactly while the sum is a small count. -/
theorem foldl_map_countToFloat (counts : List Nat) {start : Nat}
    (hsmall : SmallCount (counts.foldl (· + ·) start)) :
    (counts.map countToFloat).foldl (· + ·) (countToFloat start) =
      countToFloat (counts.foldl (· + ·) start) := by
  induction counts generalizing start with
  | nil => rfl
  | cons count rest ih =>
      have hle : start + count ≤ rest.foldl (· + ·) (start + count) := by
        have hgrows : ∀ (xs : List Nat) (n : Nat), n ≤ xs.foldl (· + ·) n := by
          intro xs
          induction xs with
          | nil => exact Nat.le_refl
          | cons x xs ih => exact fun n => (Nat.le_add_right n x).trans (ih _)
        exact hgrows rest _
      rw [List.map_cons, List.foldl_cons, List.foldl_cons,
        countToFloat_add (hle.trans hsmall), ih hsmall]

theorem map_ceilSaturating_countToFloat {counts : List Nat}
    (hsmall : ∀ n ∈ counts, SmallCount n) :
    (counts.map countToFloat).map ceilSaturating = counts := by
  have hsame : counts.map (ceilSaturating ∘ countToFloat) = counts.map id :=
    List.map_congr_left fun n hn => ceilSaturating_countToFloat (hsmall n hn)
  rw [List.map_map, hsame, List.map_id]

/-! ### Function counters -/

namespace FunctionCounter

/-- The window of a counter with the reading accounted for last. -/
def sampling (f : FunctionCounter) : Sampling Accumulator.doubleSum :=
  ⟨f.baseline, f.step⟩

/-- The finite readings of a source. -/
def given (source : Source) (m : Moment) : Option Float :=
  source.finite? m.readings

theorem pollReading_eq (f : FunctionCounter) (now : Int)
    (reading : Option Float) :
    f.pollReading now reading =
      ((f.sampling.poll increase now reading).1,
        { f with
          baseline := (f.sampling.poll increase now reading).2.baseline
          step := (f.sampling.poll increase now reading).2.window }) := by
  unfold pollReading sampling Sampling.poll
  cases f.step.tracker.due? now <;> cases reading <;> rfl

theorem use_of_touches {f : FunctionCounter} {u : TimedUse}
    (htouches : u.touches = true) :
    f.use u =
      (f.pollReading u.moment.now (given f.source u.moment)).2 := by
  obtain ⟨m, use⟩ := u
  rcases use with _ | _ | ⟨_ | _⟩ | _ | _ | _
  all_goals first | rfl | cases htouches

theorem use_of_not_touches {f : FunctionCounter} {u : TimedUse}
    (htouches : u.touches = false) (hopen : u.use ≠ .close) :
    f.use u = f := by
  obtain ⟨m, use⟩ := u
  rcases use with _ | _ | ⟨_ | _⟩ | _ | _ | _
  all_goals first | rfl | exact absurd rfl hopen | cases htouches

/-- A run samples the window of a counter and leaves its source. -/
theorem sampling_useAll (f : FunctionCounter) {uses : List TimedUse}
    (hopen : ∀ u ∈ uses, u.use ≠ .close) :
    (f.useAll uses).source = f.source ∧
      (f.useAll uses).sampling =
        f.sampling.after increase (given f.source) uses := by
  induction uses using List.reverseRecOn with
  | nil => exact ⟨rfl, rfl⟩
  | append_singleton before u ih =>
      obtain ⟨hsource, hsampling⟩ :=
        ih fun v hv => hopen v (List.mem_append_left [u] hv)
      have huse : f.useAll (before ++ [u]) = (f.useAll before).use u := by
        simp [useAll]
      rw [huse]
      rcases htouches : u.touches with _ | _
      · rw [use_of_not_touches htouches (hopen u (by simp)),
          Sampling.after_append_of_not_touches _ htouches]
        exact ⟨hsource, hsampling⟩
      · rw [use_of_touches htouches, pollReading_eq, hsource,
          Sampling.after_append_of_touches _ htouches, ← hsampling]
        exact ⟨rfl, rfl⟩

/-- A delta read after a part of a run. -/
theorem value_useAll (f : FunctionCounter) {uses : List TimedUse}
    (hopen : ∀ u ∈ uses, u.use ≠ .close) (m : Moment) :
    ((f.useAll uses).value .delta m).1 =
      ((f.sampling.after increase (given f.source) uses).poll increase m.now
        (given f.source m)).1 := by
  obtain ⟨hsource, hsampling⟩ := f.sampling_useAll hopen
  rw [← hsampling, ← hsource]
  simp only [value, pollReading_eq]
  rfl

end FunctionCounter

/-! ### Function timers -/

namespace TimeUnit

/-- Nanoseconds in one unit, as a count. -/
def nanosCount : TimeUnit → Nat
  | nanoseconds => 1
  | microseconds => 1000
  | milliseconds => 1000000
  | seconds => 1000000000

theorem nanosCount_pos (unit : TimeUnit) : 0 < unit.nanosCount := by
  cases unit <;> decide

theorem nanosCount_le (unit : TimeUnit) : unit.nanosCount ≤ 2 ^ 53 := by
  cases unit <;> decide

theorem sizeInNanos_eq (unit : TimeUnit) :
    unit.sizeInNanos = countToFloat unit.nanosCount := by
  cases unit <;> decide +kernel

/-- Small counts of a unit are whole nanoseconds. -/
theorem inNanos_countToFloat (unit : TimeUnit) {n : Nat}
    (hsmall : SmallCount (n * unit.nanosCount)) :
    unit.inNanos (countToFloat n) = countToFloat (n * unit.nanosCount) := by
  have hn : n ≤ 2 ^ 53 :=
    (Nat.le_mul_of_pos_right n unit.nanosCount_pos).trans hsmall
  rw [inNanos, sizeInNanos_eq, countToFloat_mul hn unit.nanosCount_le hsmall]

end TimeUnit

namespace FunctionTimer

/-- The window of a timer with the readings accounted for last. -/
def sampling (f : FunctionTimer) : Sampling twoSums :=
  ⟨(f.countBaseline, f.totalBaseline), f.step⟩

/-- The whole numbers that both sources read, the total in nanoseconds. -/
def whole? (count total : Source) (unit : TimeUnit) (r : Readings) :
    Option (Nat × Nat) :=
  (count.whole? r).bind fun n =>
    (total.whole? r).map fun time => (n, time * unit.nanosCount)

theorem readings?_eq (f : FunctionTimer) {r : Readings}
    (hcount : f.count.ReadsWhole 1 r)
    (htotal : f.total.ReadsWhole f.unit.nanosCount r) :
    f.readings? r = (whole? f.count f.total f.unit r).map
        (Prod.map countToFloat countToFloat) ∧
      ∀ pair, whole? f.count f.total f.unit r = some pair →
        SmallCount pair.1 ∧ SmallCount pair.2 := by
  obtain ⟨hcount, hcountSmall⟩ := hcount.finite?_eq Nat.one_pos
  obtain ⟨htotal, htotalSmall⟩ := htotal.finite?_eq f.unit.nanosCount_pos
  unfold readings? whole?
  rw [hcount, htotal]
  rcases hn : f.count.whole? r with _ | n
  · exact ⟨rfl, by simp⟩
  · rcases htime : f.total.whole? r with _ | time
    · exact ⟨rfl, by simp⟩
    · have hsmall := htotalSmall time htime
      refine ⟨?_, ?_⟩
      · simp only [Option.map_some, Option.bind_some, Prod.map_apply,
          f.unit.inNanos_countToFloat hsmall]
      · rintro pair hpair
        obtain rfl := Option.some.inj hpair
        exact ⟨by simpa using hcountSmall n hn, hsmall⟩

theorem pollReading_eq (f : FunctionTimer) (now : Int)
    (reading : Option (Float × Float)) :
    f.pollReading now reading =
      ((f.sampling.poll increaseBoth now reading).1,
        { f with
          countBaseline :=
            (f.sampling.poll increaseBoth now reading).2.baseline.1
          totalBaseline :=
            (f.sampling.poll increaseBoth now reading).2.baseline.2
          step := (f.sampling.poll increaseBoth now reading).2.window }) := by
  unfold pollReading sampling Sampling.poll
  cases f.step.tracker.due? now <;> cases reading <;> rfl

theorem use_of_touches {f : FunctionTimer} {u : TimedUse}
    (htouches : u.touches = true) :
    f.use u =
      (f.pollReading u.moment.now (f.readings? u.moment.readings)).2 := by
  obtain ⟨m, use⟩ := u
  rcases use with _ | _ | ⟨_ | _⟩ | _ | _ | _
  all_goals first | rfl | cases htouches

theorem use_of_not_touches {f : FunctionTimer} {u : TimedUse}
    (htouches : u.touches = false) (hopen : u.use ≠ .close) :
    f.use u = f := by
  obtain ⟨m, use⟩ := u
  rcases use with _ | _ | ⟨_ | _⟩ | _ | _ | _
  all_goals first | rfl | exact absurd rfl hopen | cases htouches

/-- What stays of a timer: where its readings come from. -/
def SameSources (f other : FunctionTimer) : Prop :=
  other.count = f.count ∧ other.total = f.total ∧ other.unit = f.unit

theorem SameSources.readings?_eq {f other : FunctionTimer}
    (h : f.SameSources other) (r : Readings) :
    other.readings? r = f.readings? r := by
  obtain ⟨hcount, htotal, hunit⟩ := h
  unfold readings?
  rw [hcount, htotal, hunit]

/-- A run samples the window of a timer and leaves its sources. -/
theorem sampling_useAll (f : FunctionTimer) {uses : List TimedUse}
    (hopen : ∀ u ∈ uses, u.use ≠ .close) :
    f.SameSources (f.useAll uses) ∧
      (f.useAll uses).sampling =
        f.sampling.after increaseBoth (fun m => f.readings? m.readings)
          uses := by
  induction uses using List.reverseRecOn with
  | nil => exact ⟨⟨rfl, rfl, rfl⟩, rfl⟩
  | append_singleton before u ih =>
      obtain ⟨hsources, hsampling⟩ :=
        ih fun v hv => hopen v (List.mem_append_left [u] hv)
      have huse : f.useAll (before ++ [u]) = (f.useAll before).use u := by
        simp [useAll]
      rw [huse]
      rcases htouches : u.touches with _ | _
      · rw [use_of_not_touches htouches (hopen u (by simp)),
          Sampling.after_append_of_not_touches _ htouches]
        exact ⟨hsources, hsampling⟩
      · rw [use_of_touches htouches, pollReading_eq, hsources.readings?_eq,
          Sampling.after_append_of_touches _ htouches, ← hsampling]
        exact ⟨hsources, rfl⟩

/-- A delta read after a part of a run. -/
theorem values_useAll (f : FunctionTimer) {uses : List TimedUse}
    (hopen : ∀ u ∈ uses, u.use ≠ .close) (m : Moment) :
    ((f.useAll uses).values .delta m).1 =
      ((f.sampling.after increaseBoth (fun m => f.readings? m.readings)
        uses).poll increaseBoth m.now (f.readings? m.readings)).1 := by
  obtain ⟨hsources, hsampling⟩ := f.sampling_useAll hopen
  rw [← hsampling, ← hsources.readings?_eq]
  simp only [values, pollReading_eq]

end FunctionTimer

/-! ### Deltas of a run -/

/-- Numbers add up to an exact sum: as the counts that they are, and in floats
as long as the sum is a small count. -/
def SumsTo (deltas : List Float) (increases : List Nat) : Prop :=
  (deltas.map ceilSaturating).foldl (· + ·) 0 = increases.foldl (· + ·) 0 ∧
    (SmallCount (increases.foldl (· + ·) 0) →
      deltas.foldl (· + ·) 0.0 = countToFloat (increases.foldl (· + ·) 0))

theorem sumsTo_map_countToFloat {increases : List Nat}
    (hsmall : ∀ n ∈ increases, SmallCount n) :
    SumsTo (increases.map countToFloat) increases := by
  refine ⟨?_, fun htotal => ?_⟩
  · rw [map_ceilSaturating_countToFloat hsmall]
  · rw [← countToFloat_zero]
    exact foldl_map_countToFloat _ htotal

/-- The deltas of function meters telescope.  In a run whose clock never goes
back, that touches every step and does not close the meter, with readings that
are small whole numbers or not finite, the delta of a closed step is the
increase of the reading at the rollover that closed it: since the last rollover
with a reading, since zero at first, and in full after a reset.  So the deltas
sum to these increases.  For a timer this holds of the count and the total time
together, which are accounted for at the rollovers at which both readings are
finite, and at no others. -/
theorem function_meters_telescope (c : RegistrySettings) (start : Int)
    (uses : List TimedUse) (hopen : ∀ u ∈ uses, u.use ≠ .close)
    (hthroughout :
      TouchedThroughout (StepTracker.lengthMillis c.step) start uses) :
    let length := StepTracker.lengthMillis c.step
    (∀ source : Source,
      (∀ u ∈ uses, source.ReadsWhole 1 u.moment.readings) →
      let reading := fun m : Moment => source.whole? m.readings
      let increases := (Ledger.of .counts length start reading uses).increases
      ∃ deltas : List Float,
        ShowsDeltas .counts countToFloat length start reading uses
          (fun before m => (((FunctionCounter.create source c start).useAll
            before).value .delta m).1) deltas ∧
        SumsTo deltas increases) ∧
    (∀ (count time : Source) (unit : TimeUnit),
      (∀ u ∈ uses, count.ReadsWhole 1 u.moment.readings) →
      (∀ u ∈ uses, time.ReadsWhole unit.nanosCount u.moment.readings) →
      let reading := fun m : Moment =>
        FunctionTimer.whole? count time unit m.readings
      let increases := (Ledger.of .pairs length start reading uses).increases
      ∃ deltas : List (Float × Float),
        ShowsDeltas .pairs (Prod.map countToFloat countToFloat) length start
          reading uses
          (fun before m => (((FunctionTimer.create count time unit c
            start).useAll before).values .delta m).1) deltas ∧
        SumsTo (deltas.map Prod.fst) (increases.map Prod.fst) ∧
        SumsTo (deltas.map Prod.snd) (increases.map Prod.snd)) := by
  intro length
  refine ⟨?_, ?_⟩
  · intro source hwhole reading increases
    have hread := fun u hu => (hwhole u hu).finite?_eq Nat.one_pos
    have hsmall : ∀ u ∈ uses, ∀ total, reading u.moment = some total →
        SmallCount total := by
      intro u hu total htotal
      have hscaled := (hread u hu).2 total htotal
      rwa [Nat.mul_one] at hscaled
    let f := FunctionCounter.create source c start
    obtain ⟨hshows, hnoted⟩ := Sampling.showsDeltas reading
      (FunctionCounter.given source) exact_counts hthroughout
      (fun u hu => (hread u hu).1) hsmall
      (fun before m => ((f.useAll before).value .delta m).1)
      fun before u later huses => f.value_useAll
        (fun v hv => hopen v (huses ▸ List.mem_append_left _ hv)) u.moment
    exact ⟨_, hshows, sumsTo_map_countToFloat hnoted⟩
  · intro count time unit hcount htime reading increases
    let f := FunctionTimer.create count time unit c start
    have hread := fun u hu => f.readings?_eq (hcount u hu) (htime u hu)
    obtain ⟨hshows, hnoted⟩ := Sampling.showsDeltas reading
      (fun m => f.readings? m.readings) exact_pairs hthroughout
      (fun u hu => (hread u hu).1) (fun u hu => (hread u hu).2)
      (fun before m => ((f.useAll before).values .delta m).1)
      fun before u later huses => f.values_useAll
        (fun v hv => hopen v (huses ▸ List.mem_append_left _ hv)) u.moment
    refine ⟨_, hshows, ?_, ?_⟩
    · have hcounts : SumsTo ((increases.map Prod.fst).map countToFloat)
          (increases.map Prod.fst) := sumsTo_map_countToFloat
        (List.forall_mem_map.mpr fun pair hpair => (hnoted pair hpair).1)
      rw [List.map_map] at hcounts ⊢
      exact hcounts
    · have htimes : SumsTo ((increases.map Prod.snd).map countToFloat)
          (increases.map Prod.snd) := sumsTo_map_countToFloat
        (List.forall_mem_map.mpr fun pair hpair => (hnoted pair hpair).2)
      rw [List.map_map] at htimes ⊢
      exact htimes

/-- With one-minute steps, readings of 5, 8 and then 2 after a reset, and a
reading in between that no rollover takes: the deltas are 5, 3 and 2, and for a
timer in microseconds the times are thousands of nanoseconds. -/
theorem function_meters_telescope_over_reset :
    let moment := fun (now : Int) (n : Nat) =>
      (⟨⟨now, 0⟩, none, fun _ => 0, ⟨fun _ => countToFloat n, fun _ => true⟩⟩ :
        Moment)
    let uses : List TimedUse :=
      [⟨moment 60000 5, .rollover⟩, ⟨moment 90000 6, .read .delta⟩,
        ⟨moment 120000 8, .read .delta⟩, ⟨moment 180000 2, .rollover⟩]
    let counter := FunctionCounter.create (.strong 0) .standard 0
    let timer :=
      FunctionTimer.create (.strong 0) (.strong 1) .microseconds .standard 0
    (∃ deltas, SumsTo deltas [5, 3, 2]) ∧
      ((counter.useAll (uses.take 2)).value .delta (moment 120000 8)).1 =
        countToFloat 3 ∧
      ((timer.useAll (uses.take 3)).values .delta (moment 180000 2)).1 =
        (countToFloat 2, countToFloat 2000) := by
  intro moment uses counter timer
  have hreads : ∀ cell : Nat, ∀ scale ≤ 1000, ∀ u ∈ uses,
      (Source.strong cell).ReadsWhole scale u.moment.readings := by
    intro cell scale hscale u hu
    have hsmall : ∀ n ≤ 8, SmallCount (n * scale) := fun n hn =>
      (Nat.mul_le_mul hn hscale).trans (by decide)
    simp only [uses, List.mem_cons, List.not_mem_nil, or_false] at hu
    rcases hu with rfl | rfl | rfl | rfl
    · exact Source.readsWhole_strong rfl (hsmall 5 (by decide))
    · exact Source.readsWhole_strong rfl (hsmall 6 (by decide))
    · exact Source.readsWhole_strong rfl (hsmall 8 (by decide))
    · exact Source.readsWhole_strong rfl (hsmall 2 (by decide))
  have hthroughout : TouchedThroughout
      (StepTracker.lengthMillis RegistrySettings.standard.step) 0 uses := by
    have hlatest : ∀ u ∈ uses, u.stepIn
        (StepTracker.lengthMillis RegistrySettings.standard.step) ≤ 3 := by
      intro u hu
      simp only [uses, List.mem_cons, List.not_mem_nil, or_false] at hu
      rcases hu with rfl | rfl | rfl | rfl <;> decide
    refine ⟨by decide, fun step hfirst hlater => ?_⟩
    obtain ⟨u, hu, -, hle⟩ := hlater
    have hlast := hlatest u hu
    have hzero : (0 : Int).tdiv
        (StepTracker.lengthMillis RegistrySettings.standard.step) = 0 :=
      Int.zero_tdiv _
    obtain rfl | rfl | rfl : step = 1 ∨ step = 2 ∨ step = 3 := by omega
    · exact ⟨_, List.mem_cons_self, rfl, by decide⟩
    · exact ⟨⟨moment 120000 8, .read .delta⟩, by simp [uses], rfl, by decide⟩
    · exact ⟨⟨moment 180000 2, .rollover⟩, by simp [uses], rfl, by decide⟩
  obtain ⟨hcounter, htimer⟩ :=
    function_meters_telescope .standard 0 uses (by simp [uses]) hthroughout
  obtain ⟨deltas, hshows, hsums⟩ := hcounter (.strong 0) (hreads 0 1 (by decide))
  obtain ⟨pairs, hpairs, -, -⟩ := htimer (.strong 0) (.strong 1) .microseconds
    (hreads 0 1 (by decide)) (hreads 1 1000 (by decide))
  have hincreases : (Ledger.of .counts
      (StepTracker.lengthMillis RegistrySettings.standard.step) 0
      (fun m => (Source.strong 0).whole? m.readings) uses).increases =
      [5, 3, 2] := by decide +kernel
  have hboth : (Ledger.of .pairs
      (StepTracker.lengthMillis RegistrySettings.standard.step) 0
      (fun m => FunctionTimer.whole? (.strong 0) (.strong 1) .microseconds
        m.readings) uses).increases = [(5, 5000), (3, 3000), (2, 2000)] := by
    decide +kernel
  have hcountStep : (uses[2].stepIn
      (StepTracker.lengthMillis RegistrySettings.standard.step) -
        (0 : Int).tdiv
          (StepTracker.lengthMillis RegistrySettings.standard.step)).toNat =
      2 := by decide +kernel
  have htimeStep : (uses[3].stepIn
      (StepTracker.lengthMillis RegistrySettings.standard.step) -
        (0 : Int).tdiv
          (StepTracker.lengthMillis RegistrySettings.standard.step)).toNat =
      3 := by decide +kernel
  have hcount := hshows.shown_eq (uses.take 2) (uses.drop 3) uses[2] rfl rfl
  have htime := hpairs.shown_eq (uses.take 3) [] uses[3] rfl rfl
  rw [hshows.eq_increases, hincreases, hcountStep] at hcount
  rw [hpairs.eq_increases, hboth, htimeStep] at htime
  rw [hincreases] at hsums
  have hthird : uses[2].moment = moment 120000 8 := rfl
  have hfourth : uses[3].moment = moment 180000 2 := rfl
  simp only [hthird, hfourth, List.map_cons, List.getElem?_cons_succ,
    List.getElem?_cons_zero, Option.some.injEq] at hcount htime
  exact ⟨⟨deltas, hsums⟩, hcount.symm, htime.symm⟩

end WindowedMetrics
