/-
How long a ring shows a value.  Intervals of wall time count from the creation
of the ring, so a value is shown until as many of them began after its own as
there are slots.  Their length is a share of the expiry in whole milliseconds,
and what is cut off is missing from the time that values stay.
-/
import WindowedMetrics.Proofs.Histogram.Ring
import Mathlib.Tactic.FieldSimp
import Mathlib.Tactic.Linarith

namespace WindowedMetrics

/-- A length of time in milliseconds, fractions included. -/
def Duration.exactMillis (d : Duration) : ℚ := d.nanos / 1000000

/-! ### Clocks that do not move back -/

/-- The value that a command records. -/
def RingCommand.value? : RingCommand → Option Float
  | .record value => some value
  | .snapshot _ _ _ => none

/-- The recorded values with their wall times. -/
def recordings (commands : List (Int × RingCommand)) : List (Int × Float) :=
  commands.filterMap fun c => c.2.value?.map fun value => (c.1, value)

theorem recordings_append_singleton (commands : List (Int × RingCommand))
    (c : Int × RingCommand) :
    recordings (commands ++ [c]) =
      recordings commands ++ (c.2.value?.map fun value => (c.1, value)).toList := by
  rw [recordings, List.filterMap_append]
  cases hvalue : c.2.value? <;> simp [recordings, hvalue]

/-- A clock that starts at `created` and does not move back between
commands. -/
def Steady (created : Int) (commands : List (Int × RingCommand)) : Prop :=
  (created :: commands.map Prod.fst).Pairwise (· ≤ ·)

theorem Steady.of_append {created : Int}
    {commands more : List (Int × RingCommand)}
    (h : Steady created (commands ++ more)) : Steady created commands := by
  unfold Steady at h ⊢
  rw [List.map_append, ← List.cons_append] at h
  exact (List.pairwise_append.mp h).1

namespace RingHistory

/-- The latest wall time of some commands. -/
def latest (created : Int) (commands : List (Int × RingCommand)) : Int :=
  (commands.map Prod.fst).getLastD created

theorem latest_le {created : Int} {commands : List (Int × RingCommand)}
    {c : Int × RingCommand} (h : Steady created (commands ++ [c])) :
    latest created commands ≤ c.1 := by
  unfold Steady at h
  rw [List.map_append, ← List.cons_append] at h
  have hlast : latest created commands ∈ created :: commands.map Prod.fst := by
    unfold latest
    rw [List.getLastD_eq_getLast?]
    cases hend : (commands.map Prod.fst).getLast? with
    | none => exact List.mem_cons_self
    | some time =>
        exact List.mem_cons_of_mem _ (List.mem_of_getLast? hend)
  exact (List.pairwise_append.mp h).2.2 _ hlast c.1 (by simp)

/-- On such a clock, every value is in the interval of its time. -/
theorem of_steady {rotation created : Int} (hrotation : 0 < rotation)
    {commands : List (Int × RingCommand)} (h : Steady created commands) :
    of rotation created commands =
      ⟨(latest created commands - created) / rotation,
        (recordings commands).map fun e =>
          ((e.1 - created) / rotation, e.2)⟩ := by
  induction commands using List.reverseRecOn with
  | nil => simp [of, latest, recordings]
  | append_singleton before c ih =>
      have hle := latest_le h
      have hinterval : max ((latest created before - created) / rotation)
          ((c.1 - created) / rotation) = (c.1 - created) / rotation :=
        Int.max_eq_right (Int.ediv_le_ediv hrotation (by omega))
      have hlatest : latest created (before ++ [c]) = c.1 := by
        simp [latest]
      rw [of_append_singleton, ih h.of_append, hlatest,
        recordings_append_singleton, List.map_append]
      cases c with
      | mk time command =>
          cases command with
          | record value =>
              simp only [next, hinterval]
              rfl
          | snapshot count total max =>
              simp only [next, hinterval]
              simp [RingCommand.value?]

end RingHistory

/-! ### Rotations that wrap below zero -/

namespace RingHistogram

/-- A ring whose rotation interval wrapped below zero clears all of its slots
when an interval ends, and never leaves the active one. -/
structure Overturns (r : RingHistogram) (created : Int) (h : RingHistory) :
    Prop where
  rotation_neg : r.rotation < 0
  slots_pos : 0 < r.slots.size
  created_fits : TimeFits r.rotation created created
  interval_nonneg : 0 ≤ h.interval
  nextRotation_eq : r.nextRotation = created + (1 - h.interval) * r.rotation
  le_interval : ∀ e ∈ h.log, e.1 ≤ h.interval
  slot_eq : ∀ p < r.slots.size, r.slots[p]? = some (r.plan.slotOf
    (if p = r.active then h.log.valuesIn h.interval else []))

/-- Every position is reached in one turn. -/
theorem exists_turn_to (index : Nat) {size p : Nat} (hp : p < size) :
    ∃ k < size, (index + (k + 1)) % size = p := by
  have hmod := Nat.mod_lt (index + 1) (Nat.lt_of_le_of_lt (Nat.zero_le p) hp)
  have hdiv := Nat.div_add_mod (index + 1) size
  generalize (index + 1) % size = place at hmod hdiv
  generalize (index + 1) / size = turns at hdiv
  rcases Nat.lt_or_ge p place with hbehind | hahead
  · refine ⟨size - place + p, by omega, ?_⟩
    have hsum : index + (size - place + p + 1) = p + size * (turns + 1) := by
      rw [Nat.mul_succ]
      omega
    rw [hsum, Nat.add_mul_mod_self_left, Nat.mod_eq_of_lt hp]
  · refine ⟨p - place, by omega, ?_⟩
    have hsum : index + (p - place + 1) = p + size * turns := by omega
    rw [hsum, Nat.add_mul_mod_self_left, Nat.mod_eq_of_lt hp]

namespace Overturns

variable {r : RingHistogram} {created : Int} {h : RingHistory}

theorem first_le (hr : r.Overturns created h) :
    created + r.rotation ≤ r.nextRotation := by
  have := Int.mul_nonneg_of_nonpos_of_nonpos
    (by have := hr.interval_nonneg; omega : -h.interval ≤ 0)
    hr.rotation_neg.le
  rw [hr.nextRotation_eq, Int.sub_eq_add_neg, Int.add_mul, Int.one_mul]
  omega

/-- What has elapsed is counted backwards. -/
theorem elapsed_eq (hr : r.Overturns created h) {now : Int}
    (hfits : TimeFits r.rotation created now)
    (hsteady : h.interval ≤ (now - created) / -r.rotation) :
    r.nextRotation ≤ now ∧
      r.elapsed now = h.interval - (now - created) / -r.rotation := by
  have hpos : 0 < -r.rotation := by
    have := hr.rotation_neg
    omega
  have hfloor := (Int.le_ediv_iff_mul_le hpos).mp hsteady
  have hsplit : now - r.nextRotation =
      now - created + (1 - h.interval) * -r.rotation := by
    rw [hr.nextRotation_eq]
    ring
  have hdue : 0 ≤ now - r.nextRotation := by
    rw [hsplit, Int.sub_mul, Int.one_mul]
    omega
  refine ⟨by omega, ?_⟩
  rw [hfits.elapsed_eq hr.first_le (by omega), ← Int.neg_neg r.rotation,
    Int.tdiv_neg, Int.tdiv_eq_ediv_of_nonneg hdue, Int.neg_neg, hsplit,
    Int.add_mul_ediv_right _ _ (by omega)]
  omega

/-- The next rotation stays within 64 bits. -/
theorem wrapInt64_next (hr : r.Overturns created h) {now : Int}
    (hfits : TimeFits r.rotation created now)
    (hsteady : h.interval ≤ (now - created) / -r.rotation) :
    wrapInt64 (r.nextRotation + r.elapsed now * r.rotation) =
      created + (1 - (now - created) / -r.rotation) * r.rotation := by
  have hsum : r.nextRotation + r.elapsed now * r.rotation =
      created + r.rotation + (now - created) / -r.rotation * -r.rotation := by
    rw [hr.nextRotation_eq, (hr.elapsed_eq hfits hsteady).2]
    ring
  have hneg := hr.rotation_neg
  have hbelow := hr.created_fits.below
  have habove := hfits.above
  have hsince := Int.ediv_mul_le (now - created)
    (by omega : -r.rotation ≠ 0)
  have hlate := Int.mul_nonneg (hr.interval_nonneg.trans hsteady)
    (by omega : 0 ≤ -r.rotation)
  rw [hsum, wrapInt64_of_mem (by omega) (by omega)]
  ring

theorem rotate (hr : r.Overturns created h) {now : Int}
    (hfits : TimeFits r.rotation created now)
    (hsteady : h.interval ≤ (now - created) / -r.rotation) :
    (r.rotate now).Overturns created
      ⟨(now - created) / -r.rotation, h.log⟩ := by
  obtain ⟨hdue, helapsed⟩ := hr.elapsed_eq hfits hsteady
  have hnext := hr.wrapInt64_next hfits hsteady
  have hpassed := hr.interval_nonneg.trans hsteady
  have hle : ∀ e ∈ h.log, e.1 ≤ (now - created) / -r.rotation :=
    fun e he => Int.le_trans (hr.le_interval e he) hsteady
  simp only [RingHistogram.rotate, if_neg (by omega : ¬ now < r.nextRotation)]
  generalize (now - created) / -r.rotation = seen at *
  rcases Int.lt_or_eq_of_le hsteady with hlater | hsame
  · -- a whole turn: every slot is cleared, the active one too
    rw [if_pos (by omega : r.elapsed now < 0)]
    refine ⟨hr.rotation_neg, by simpa using hr.slots_pos, hr.created_fits,
      hpassed, hnext, hle, ?_⟩
    intro p hp
    simp only [size_clearAhead] at hp
    rw [getElem?_clearAhead r.plan r.slots _ _ _ (hr.slot_eq p hp),
      if_pos (exists_turn_to r.index hp)]
    have hnone : h.log.valuesIn seen = [] := by
      apply StepLog.valuesIn_eq_nil
      intro e he
      have := hr.le_interval e he
      omega
    simp only [hnone, ite_self]
  · -- nothing is cleared
    have hzero : r.elapsed now = 0 := by omega
    rw [hzero] at hnext ⊢
    simp only [Int.lt_irrefl, ↓reduceIte, Int.toNat_zero, Nat.zero_min]
    refine ⟨hr.rotation_neg, by simpa using hr.slots_pos, hr.created_fits,
      hpassed, hnext, hle, ?_⟩
    rw [← hsame]
    exact hr.slot_eq

theorem record (hr : r.Overturns created h) {now : Int}
    (hfits : TimeFits r.rotation created now)
    (hsteady : h.interval ≤ (now - created) / -r.rotation) (value : Float) :
    (r.record now value).Overturns created
      (h.next ((now - created) / -r.rotation) (.record value)) := by
  have hrotated := hr.rotate hfits hsteady
  have hinterval : max h.interval ((now - created) / -r.rotation) =
      (now - created) / -r.rotation := Int.max_eq_right hsteady
  simp only [RingHistory.next, hinterval, RingHistogram.record]
  generalize (now - created) / -r.rotation = seen at *
  generalize r.rotate now = ring at hrotated ⊢
  have hactive : ∀ slots : Array Slot, slots.size = ring.slots.size →
      active { ring with slots := slots } = ring.active := by
    intro slots hsize
    simp only [active, hsize]
  refine ⟨hrotated.rotation_neg, by simpa using hrotated.slots_pos,
    hrotated.created_fits, hrotated.interval_nonneg,
    hrotated.nextRotation_eq, ?_, ?_⟩
  · intro e he
    rcases List.mem_append.mp he with hold | hnew
    · exact hrotated.le_interval e hold
    · obtain ⟨_, _, rfl⟩ := List.mem_map.mp hnew
      exact Int.le_refl seen
  · intro p hp
    rw [Array.size_modify] at hp
    rw [hactive _ Array.size_modify, Array.getElem?_modify,
      hrotated.slot_eq p hp]
    by_cases heq : ring.active = p
    · simp [heq, StepLog.valuesIn_append, StepLog.valuesIn_ofStep_self,
        SlotPlan.slotOf_append_singleton]
    · rw [if_neg heq, if_neg (Ne.symm heq), if_neg (Ne.symm heq)]

theorem perform (hr : r.Overturns created h) {now : Int}
    (hfits : TimeFits r.rotation created now)
    (hsteady : h.interval ≤ (now - created) / -r.rotation)
    (c : RingCommand) :
    (r.perform now c).Overturns created
      (h.next ((now - created) / -r.rotation) c) := by
  cases c with
  | record value => exact hr.record hfits hsteady value
  | snapshot count total max =>
      have hinterval : Max.max h.interval ((now - created) / -r.rotation) =
          (now - created) / -r.rotation := Int.max_eq_right hsteady
      simp only [RingHistory.next, hinterval]
      exact hr.rotate hfits hsteady

/-- One list among empty ones. -/
theorem flatten_map_range (values : List Float) (place size : Nat) :
    ((List.range size).map fun p =>
        if p = place then values else []).flatten =
      if place < size then values else [] := by
  induction size with
  | zero => rfl
  | succ size ih =>
      rw [List.range_succ, List.map_append, List.flatten_append, ih]
      rcases Nat.lt_trichotomy place size with hlt | rfl | hgt
      · simp [hlt, Nat.lt_succ_of_lt hlt, Nat.ne_of_gt hlt]
      · simp
      · simp [Nat.not_lt_of_gt hgt, Nat.not_lt_of_ge (Nat.succ_le_of_lt hgt),
          Nat.ne_of_lt hgt]

theorem snapshot_slots (hr : r.Overturns created h) (count : UInt64)
    (total max : Float) :
    r.plan.snapshot r.slots.toList count total max =
      r.plan.snapshotOf (h.recent 1) count total max := by
  have hslots : r.slots.toList =
      ((List.range r.slots.size).map fun p =>
        if p = r.active then h.log.valuesIn h.interval else []).map
          r.plan.slotOf := by
    apply List.ext_getElem
    · simp
    · intro p hp _
      have hslot := hr.slot_eq p (by simpa using hp)
      rw [Array.getElem?_eq_getElem (by simpa using hp)] at hslot
      simpa using hslot
  have hrecent : h.recent 1 = h.log.valuesIn h.interval := by
    rw [RingHistory.recent, StepLog.valuesIn]
    congr 1
    apply List.filter_congr
    intro e he
    have := hr.le_interval e he
    rw [decide_eq_decide]
    omega
  have hactive : r.active < r.slots.size := Nat.mod_lt _ hr.slots_pos
  rw [hslots, SlotPlan.snapshot_map_slotOf, flatten_map_range,
    if_pos hactive, hrecent]

end Overturns

theorem run_overturns {r : RingHistogram} {created : Int}
    (hr : r.Overturns created ⟨0, []⟩) {commands : List (Int × RingCommand)}
    (hsteady : Steady created commands)
    (hfits : TimesFit r.rotation created commands) :
    (r.run commands).Overturns created
        (RingHistory.of (-r.rotation) created commands) ∧
      (r.run commands).plan = r.plan ∧
      (r.run commands).rotation = r.rotation := by
  have hpos : 0 < -r.rotation := by
    have := hr.rotation_neg
    omega
  induction commands using List.reverseRecOn with
  | nil => exact ⟨hr, rfl, rfl⟩
  | append_singleton before c ih =>
      obtain ⟨hbefore, hplan, hrotation⟩ :=
        ih hsteady.of_append hfits.of_append
      have hlast := hfits.last
      rw [← hrotation] at hlast
      have hshape := (r.run before).shape_perform c.1 c.2
      have hnext : (RingHistory.of (-r.rotation) created before).interval ≤
          (c.1 - created) / -(r.run before).rotation := by
        have hle := RingHistory.latest_le hsteady
        rw [hrotation, RingHistory.of_steady hpos hsteady.of_append]
        exact Int.ediv_le_ediv hpos (by omega)
      have hperformed := hbefore.perform hlast hnext c.2
      rw [hrotation] at hperformed
      rw [run_append_singleton, RingHistory.of_append_singleton]
      exact ⟨hperformed, hshape.1.trans hplan, hshape.2.1.trans hrotation⟩

/-! ### Visible values -/

/-- The number of latest intervals whose values a ring shows: one for each
slot, but only the present one if the rotation interval wrapped. -/
def reach (r : RingHistogram) : Nat :=
  if 0 < r.rotation then r.slots.size else 1

/-- A value recorded at `time` is visible at `now` in a ring from `created`
on: fewer intervals began since than the ring shows. -/
def IsVisible (r : RingHistogram) (created time now : Int) : Prop :=
  (now - created) / |r.rotation| - (time - created) / |r.rotation| < r.reach

instance (r : RingHistogram) (created time now : Int) :
    Decidable (r.IsVisible created time now) :=
  inferInstanceAs (Decidable (_ < _))

/-- What a new ring is like, with a rotation interval above zero and with one
that wrapped below. -/
theorem starts_create {plan : SlotPlan} {expiry : Duration} {length : Nat}
    {created : Int} {r : RingHistogram}
    (hcreate : create plan expiry length created = .ok r) :
    r.plan = plan ∧ r.slots.size = length ∧ 0 < length ∧
      r.rotation = wrapInt64 (expiry.millis / length : Nat) ∧
      r.rotation ≠ 0 ∧
      (r.rotation < 0 → TimeFits r.rotation created created →
        r.Overturns created ⟨0, []⟩) := by
  unfold create at hcreate
  simp only at hcreate
  generalize wrapInt64 (expiry.millis / length : Nat) = rotation at hcreate ⊢
  by_cases hlength : length = 0
  · rw [if_pos hlength] at hcreate
    cases hcreate
  · rw [if_neg hlength] at hcreate
    by_cases hrotation : rotation = 0
    · rw [if_pos hrotation] at hcreate
      cases hcreate
    · rw [if_neg hrotation] at hcreate
      cases hcreate
      have hpos := Nat.pos_of_ne_zero hlength
      refine ⟨rfl, Array.size_replicate, hpos, rfl, hrotation,
        fun hneg hfits => ?_⟩
      have hnext := wrapInt64_of_mem (n := created + rotation)
        (by have := hfits.below; simp only at *; omega)
        (by have := hfits.above; simp only at *; omega)
      refine ⟨hneg, by simpa using hpos, hfits, Int.le_refl 0,
        by simpa using hnext, by simp, ?_⟩
      intro p hp
      rw [Array.getElem?_replicate, if_pos (by simpa using hp)]
      simp [StepLog.valuesIn, SlotPlan.slotOf]

/-- On a clock that does not move back, a snapshot shows exactly the visible
values. -/
theorem snapshot_run_eq_snapshotOf_visible {plan : SlotPlan}
    {expiry : Duration} {length : Nat} {created : Int} {r : RingHistogram}
    (hcreate : create plan expiry length created = .ok r)
    {commands : List (Int × RingCommand)} {now : Int} {count : UInt64}
    {total max : Float}
    (hsteady : Steady created
      (commands ++ [(now, .snapshot count total max)]))
    (hfits : TimesFit r.rotation created
      (commands ++ [(now, .snapshot count total max)])) :
    ((r.run commands).snapshot now count total max).1 =
      plan.snapshotOf (((recordings commands).filter fun e =>
        decide (r.IsVisible created e.1 now)).map Prod.snd)
        count total max := by
  obtain ⟨hplan, hsize, hlength, -, hne, hoverturns⟩ := starts_create hcreate
  have hlatest : RingHistory.latest created
      (commands ++ [(now, .snapshot count total max)]) = now := by
    simp [RingHistory.latest]
  have hrecordings : recordings
      (commands ++ [(now, .snapshot count total max)]) =
        recordings commands := by
    rw [recordings_append_singleton]
    exact List.append_nil _
  have hrecent : ((RingHistory.of |r.rotation| created
      (commands ++ [(now, .snapshot count total max)])).recent r.reach) =
      ((recordings commands).filter fun e =>
        decide (r.IsVisible created e.1 now)).map Prod.snd := by
    rw [RingHistory.of_steady (abs_pos.mpr hne) hsteady, hlatest,
      hrecordings, RingHistory.recent, List.filter_map, List.map_map]
    rfl
  have hsnapshot : ((r.run commands).snapshot now count total max).1 =
      ((r.run commands).perform now (.snapshot count total max)).plan.snapshot
        ((r.run commands).perform now
          (.snapshot count total max)).slots.toList count total max := by
    have hshape := (r.run commands).shape_rotate now
    rw [RingHistogram.perform]
    simp only [RingHistogram.snapshot, hshape.1]
  have hrun := r.run_append_singleton commands
    (now, .snapshot count total max)
  rw [← hrecent, hsnapshot, ← hrun, ← hplan]
  rcases Int.lt_or_gt_of_ne hne with hneg | hpos
  · obtain ⟨hend, hkept, -⟩ :=
      run_overturns (hoverturns hneg hfits.start) hsteady hfits
    rw [hend.snapshot_slots, hkept, abs_of_neg hneg, reach,
      if_neg (by omega)]
  · obtain ⟨hstart, -, -⟩ := follows_create hcreate hpos hfits.start
    obtain ⟨hend, hkept, -, hslots⟩ := run_follows hstart hfits
    rw [hend.snapshot_slots, hkept, hslots, abs_of_pos hpos, reach,
      if_pos hpos]

/-! ### Times of values in a ring -/

section Times

variable {r : RingHistogram} (hne : r.rotation ≠ 0) {created time now : Int}
include hne

/-- A value stays for all intervals that the ring shows but its own. -/
theorem isVisible_of_le
    (hrecent : now - time ≤ ((r.reach : Int) - 1) * |r.rotation|) :
    r.IsVisible created time now := by
  have hpos := abs_pos.mpr hne
  have hle : (now - created) / |r.rotation| ≤
      (time - created + ((r.reach : Int) - 1) * |r.rotation|) /
        |r.rotation| := Int.ediv_le_ediv hpos (by omega)
  rw [Int.add_mul_ediv_right _ _ hpos.ne'] at hle
  unfold IsVisible
  omega

theorem not_isVisible_of_le
    (hold : (r.reach : Int) * |r.rotation| ≤ now - time) :
    ¬ r.IsVisible created time now := by
  have hpos := abs_pos.mpr hne
  have hle : (time - created + (r.reach : Int) * |r.rotation|) /
      |r.rotation| ≤ (now - created) / |r.rotation| :=
    Int.ediv_le_ediv hpos (by omega)
  rw [Int.add_mul_ediv_right _ _ hpos.ne'] at hle
  unfold IsVisible
  omega

/-- A value recorded in the last millisecond of an interval stays for no
millisecond more. -/
theorem not_isVisible_of_last (created : Int) :
    ¬ r.IsVisible created (created + |r.rotation| - 1)
      (created + (r.reach : Int) * |r.rotation|) := by
  have hpos := abs_pos.mpr hne
  have hfirst : (created + |r.rotation| - 1 - created) / |r.rotation| = 0 :=
    Int.ediv_eq_zero_of_lt (by omega) (by omega)
  have hlast : (created + (r.reach : Int) * |r.rotation| - created) /
      |r.rotation| = r.reach := by
    rw [add_sub_cancel_left, Int.mul_ediv_cancel _ hpos.ne']
  unfold IsVisible
  omega

end Times

theorem abs_wrapInt64_le (n : Nat) :
    |wrapInt64 n| ≤ n ∧ (wrapInt64 n < 0 → 2 ≤ n) := by
  have hmod := Int.emod_add_mul_ediv (n : Int) 18446744073709551616
  have hquotient : 0 ≤ (n : Int) / 18446744073709551616 :=
    Int.ediv_nonneg (by omega) (by omega)
  simp only [wrapInt64, UInt64.size, Int.bmod]
  split <;> rw [abs_le] <;> omega

/-- The shares of all slots fit into the expiry. -/
theorem share_mul_le (expiry : Duration) (length : Nat) :
    ((expiry.millis / length : Nat) : ℚ) * length ≤ expiry.exactMillis := by
  have hshare : expiry.millis / length * length * 1000000 ≤ expiry.nanos :=
    Nat.le_trans (Nat.mul_le_mul_right _ (Nat.div_mul_le_self _ _))
      (Nat.div_mul_le_self _ _)
  rw [Duration.exactMillis, le_div_iff₀ (by norm_num)]
  exact_mod_cast hshare

section Lifetimes

variable {plan : SlotPlan} {expiry : Duration} {length : Nat} {created : Int}
  {r : RingHistogram}

/-- No value outlives the expiry, and an interval that wraps is below the
share of a slot. -/
theorem reach_mul_le (hcreate : create plan expiry length created = .ok r) :
    (r.reach : ℚ) * |r.rotation| ≤ expiry.exactMillis ∧
      (r.rotation < 0 → (length : ℚ) * 2 ≤ expiry.exactMillis) := by
  obtain ⟨-, hsize, hlength, hrotation, -, -⟩ := starts_create hcreate
  have hshare := share_mul_le expiry length
  obtain ⟨hle, hwrapped⟩ := abs_wrapInt64_le (expiry.millis / length)
  rw [← hrotation] at hle hwrapped
  generalize expiry.millis / length = share at hshare hle hwrapped
  have hrational : ((|r.rotation| : Int) : ℚ) ≤ share := by exact_mod_cast hle
  rw [mul_comm (share : ℚ)] at hshare
  constructor
  · refine le_trans ?_ hshare
    refine mul_le_mul ?_ hrational (Int.cast_nonneg (abs_nonneg _))
      (Nat.cast_nonneg _)
    rw [Nat.cast_le, reach]
    split
    · exact hsize.le
    · exact hlength
  · intro hneg
    refine le_trans ?_ hshare
    have hmore : (2 : ℚ) ≤ share := by exact_mod_cast hwrapped hneg
    exact mul_le_mul_of_nonneg_left hmore (Nat.cast_nonneg _)

/-- If the interval wrapped, values stay for less than the expiry less a
slot's share of it, unless there is a single slot. -/
theorem lt_of_wrapped (hcreate : create plan expiry length created = .ok r)
    (hneg : r.rotation < 0) (hlength : 2 ≤ length) :
    (length : ℚ) < (length - 1) * expiry.exactMillis := by
  have hlong := (reach_mul_le hcreate).2 hneg
  have htwo : (2 : ℚ) ≤ length := by exact_mod_cast hlength
  nlinarith

/-- All values stay for the expiry less a slot's share of it exactly if what
the rotation cuts off the expiry is small enough. -/
theorem all_visible_iff (hcreate : create plan expiry length created = .ok r) :
    (∀ time now : Int, created ≤ time → time ≤ now →
      (now : ℚ) - time < expiry.exactMillis - expiry.exactMillis / length →
        r.IsVisible created time now) ↔
    ((length : ℚ) - 1) * (expiry.exactMillis - length * r.rotation) ≤
      length := by
  obtain ⟨-, hsize, hlength, -, hne, -⟩ := starts_create hcreate
  have hpos := abs_pos.mpr hne
  have hone : (1 : ℚ) ≤ length := by exact_mod_cast hlength
  have hless : ∀ d : ℚ,
      d < expiry.exactMillis - expiry.exactMillis / length ↔
        d * length < expiry.exactMillis * (length - 1) := by
    intro d
    have hcut : (expiry.exactMillis - expiry.exactMillis / length) *
        length = expiry.exactMillis * (length - 1) := by
      field_simp
    rw [← hcut, mul_lt_mul_iff_left₀ (by linarith)]
  constructor
  · intro hall
    -- a value from the last millisecond of an interval
    have hlast : ¬ ((created + (r.reach : Int) * |r.rotation| : Int) : ℚ) -
          (created + |r.rotation| - 1 : Int) <
        expiry.exactMillis - expiry.exactMillis / length := by
      intro hrecent
      have hreach : 1 ≤ (r.reach : Int) := by
        unfold reach
        split <;> omega
      have hmore := mul_le_mul_of_nonneg_right hreach hpos.le
      exact not_isVisible_of_last hne created
        (hall _ _ (by omega) (by omega) hrecent)
    rw [hless, not_lt] at hlast
    push_cast at hlast
    rcases lt_or_gt_of_ne hne with hneg | hrotation
    · rw [reach, if_neg (by omega), ← Int.cast_abs, abs_of_neg hneg,
        Int.cast_neg] at hlast
      rcases Nat.lt_or_eq_of_le (Nat.succ_le_of_lt hlength) with hmore | rfl
      · have hlong := lt_of_wrapped hcreate hneg hmore
        push_cast at hlast
        linarith
      · norm_num
    · rw [reach, if_pos hrotation, hsize, ← Int.cast_abs,
        abs_of_pos hrotation] at hlast
      linarith
  · intro hsmall time now _ hle hrecent
    apply isVisible_of_le hne
    rw [hless] at hrecent
    rcases lt_or_gt_of_ne hne with hneg | hrotation
    · exfalso
      have hnonneg : (0 : ℚ) ≤ (now : ℚ) - time := by
        rw [sub_nonneg]
        exact_mod_cast hle
      have hbelow : (r.rotation : ℚ) < 0 := by exact_mod_cast hneg
      rcases Nat.lt_or_eq_of_le (Nat.succ_le_of_lt hlength) with hmore | rfl
      · have hlong := lt_of_wrapped hcreate hneg hmore
        have hcut : ((length : ℚ) - 1) * (length * r.rotation) ≤ 0 :=
          mul_nonpos_of_nonneg_of_nonpos (by linarith)
            (mul_nonpos_of_nonneg_of_nonpos (by linarith) hbelow.le)
        rw [mul_sub] at hsmall
        linarith
      · norm_num at hrecent
        linarith
    · rw [reach, if_pos hrotation, hsize, abs_of_pos hrotation]
      have hbound : (now : ℚ) - time <
          ((length : ℚ) - 1) * r.rotation + 1 := by
        rw [← mul_lt_mul_iff_left₀ (by linarith : (0 : ℚ) < length)]
        linarith
      have hwhole : now - time < ((length : Int) - 1) * r.rotation + 1 := by
        exact_mod_cast hbound
      omega

end Lifetimes

/-- For every expiry and number of slots, and every clock that does not move
back and stays within 64 bits, a snapshot shows exactly the values that are
still visible.  Those stay for all whole rotation intervals but one and never
for the full expiry.  That they all stay for the expiry less a slot's share of
it is true exactly if the rotation, which is that share in whole milliseconds,
cuts off little enough of the expiry. -/
theorem values_stay_visible {plan : SlotPlan} {expiry : Duration}
    {length : Nat} {created : Int} {r : RingHistogram}
    (hcreate : create plan expiry length created = .ok r) :
    (∀ (commands : List (Int × RingCommand)) (now : Int) (count : UInt64)
        (total max : Float),
      Steady created (commands ++ [(now, .snapshot count total max)]) →
      TimesFit r.rotation created
        (commands ++ [(now, .snapshot count total max)]) →
      ((r.run commands).snapshot now count total max).1 =
        plan.snapshotOf (((recordings commands).filter fun e =>
          decide (r.IsVisible created e.1 now)).map Prod.snd)
          count total max) ∧
    (∀ time now : Int,
      (now - time ≤ ((r.reach : Int) - 1) * |r.rotation| →
        r.IsVisible created time now) ∧
      (expiry.exactMillis ≤ (now : ℚ) - time →
        ¬ r.IsVisible created time now)) ∧
    ((∀ time now : Int, created ≤ time → time ≤ now →
      (now : ℚ) - time < expiry.exactMillis - expiry.exactMillis / length →
        r.IsVisible created time now) ↔
    ((length : ℚ) - 1) * (expiry.exactMillis - length * r.rotation) ≤
      length) := by
  obtain ⟨-, -, -, -, hne, -⟩ := starts_create hcreate
  refine ⟨fun commands now count total max hsteady hfits =>
      snapshot_run_eq_snapshotOf_visible hcreate hsteady hfits,
    fun time now => ⟨isVisible_of_le hne, fun hexpired => ?_⟩,
    all_visible_iff hcreate⟩
  apply not_isVisible_of_le hne
  have hreach := (reach_mul_le hcreate).1.trans hexpired
  exact_mod_cast hreach

/-- Five milliseconds in three slots: a value stays for two milliseconds. -/
theorem values_stay_visible_of_five :
    let plan : SlotPlan := ⟨#[10.0, 1.0 / 0.0], none, [], 1.0, 1.0 / 0.0, 1.0⟩
    ∃ r, create plan (.ofMillis 5) 3 0 = .ok r ∧
      ((r.run [(0, .record 5.0)]).snapshot 2 1 5.0 5.0).1 =
        plan.snapshotOf [5.0] 1 5.0 5.0 := by
  intro plan
  have hrotation : wrapInt64 (Duration.millis (.ofMillis 5) / 3 : Nat) = 1 := by
    decide
  have hcreate : create plan (.ofMillis 5) 3 0 =
      .ok ⟨plan, Array.replicate 3 plan.emptySlot, 1, 0, 1⟩ := by
    simp only [create, hrotation]
    rfl
  have hsteady : Steady 0
      ([(0, .record 5.0)] ++ [(2, .snapshot 1 5.0 5.0)]) := by
    unfold Steady
    decide
  exact ⟨_, hcreate,
    (values_stay_visible hcreate).1 _ 2 1 5.0 5.0 hsteady (by decide)⟩

/-- With five milliseconds in three slots, a value is gone after three of
them, when less than the expiry without a slot's share has passed. -/
theorem exists_value_gone_early :
    let plan : SlotPlan := ⟨#[10.0, 1.0 / 0.0], none, [], 1.0, 1.0 / 0.0, 1.0⟩
    let expiry := Duration.ofMillis 5
    ∃ r, create plan expiry 3 0 = .ok r ∧
      (3 : ℚ) - 0 < expiry.exactMillis - expiry.exactMillis / 3 ∧
      ((r.run [(0, .record 5.0)]).snapshot 3 1 5.0 5.0).1.buckets.map
        Bucket.count = [0, 0] := by
  intro plan expiry
  have hrotation : wrapInt64 (expiry.millis / 3 : Nat) = 1 := by decide
  have hcreate : create plan expiry 3 0 =
      .ok ⟨plan, Array.replicate 3 plan.emptySlot, 1, 0, 1⟩ := by
    simp only [create, hrotation]
    rfl
  have hsteady : Steady 0
      ([(0, .record 5.0)] ++ [(3, .snapshot 1 5.0 5.0)]) := by
    unfold Steady
    decide
  have hshown := snapshot_run_eq_snapshotOf_visible hcreate hsteady
    (by decide)
  have hgone : ((recordings [(0, .record 5.0)]).filter fun e =>
      decide (IsVisible ⟨plan, Array.replicate 3 plan.emptySlot, 1, 0, 1⟩
        0 e.1 3)) = [] := by
    decide
  rw [hgone, List.map_nil] at hshown
  refine ⟨_, hcreate, ?_, ?_⟩
  · norm_num [expiry, Duration.exactMillis, Duration.ofMillis]
  · rw [hshown]
    simp [SlotPlan.snapshotOf, SlotPlan.numbers, BucketCounts.tally_nil, plan]

end RingHistogram

end WindowedMetrics
