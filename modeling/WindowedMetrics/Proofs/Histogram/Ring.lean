/-
A ring of slots against the history of its use.  Counting back from the active
slot, every slot holds the values of one interval of wall time, so a snapshot
shows exactly the values of the latest intervals, as many as there are slots.
-/
import WindowedMetrics.Histogram.Ring
import WindowedMetrics.Proofs.Histogram.Contents
import WindowedMetrics.Proofs.Step.Log
import Mathlib.Data.Int.ModEq
import Mathlib.Data.List.Nodup
import Mathlib.Data.List.Perm.Subperm
import Mathlib.Tactic.Ring

namespace WindowedMetrics

/-- What can be done with a ring. -/
inductive RingCommand
  | record (value : Float)
  | snapshot (count : UInt64) (total max : Float)

/-- The latest interval seen, and every value with the interval in which it
was recorded. -/
structure RingHistory where
  interval : Int
  log : StepLog Float

namespace RingHistory

/-- A history goes on by one command in the interval `seen`. -/
def next (h : RingHistory) (seen : Int) : RingCommand → RingHistory
  | .record value =>
      let interval := max h.interval seen
      ⟨interval, h.log ++ StepLog.ofStep interval [value]⟩
  | .snapshot _ _ _ => ⟨max h.interval seen, h.log⟩

/-- The history of commands at wall times, in intervals of `rotation`
milliseconds from `created` on. -/
def of (rotation created : Int) (commands : List (Int × RingCommand)) :
    RingHistory :=
  commands.foldl (fun h c => h.next ((c.1 - created) / rotation) c.2) ⟨0, []⟩

/-- The values of the latest intervals, `length` of them with the present. -/
def recent (h : RingHistory) (length : Nat) : List Float :=
  (h.log.filter fun e => decide (h.interval - e.1 < length)).map Prod.snd

theorem of_append_singleton (rotation created : Int)
    (commands : List (Int × RingCommand)) (c : Int × RingCommand) :
    of rotation created (commands ++ [c]) =
      (of rotation created commands).next ((c.1 - created) / rotation) c.2 := by
  simp [of]

end RingHistory

namespace RingHistogram

/-! ### Positions in the ring -/

/-- The position of the slot `back` places before the active one. -/
def position (r : RingHistogram) (back : Nat) : Nat :=
  (r.index + (r.slots.size - back)) % r.slots.size

/-- Nearby numbers with the same remainder are equal. -/
theorem eq_of_mod_eq {a b size : Nat} (hle : a ≤ b) (hlt : b < a + size)
    (hmod : a % size = b % size) : a = b := by
  have hdvd : size ∣ b - a := (Nat.modEq_iff_dvd' hle).mp hmod
  by_contra hne
  have := Nat.le_of_dvd (by omega) hdvd
  omega

theorem position_lt (r : RingHistogram) (hsize : 0 < r.slots.size)
    (back : Nat) : r.position back < r.slots.size :=
  Nat.mod_lt _ hsize

theorem position_zero (r : RingHistogram) : r.position 0 = r.active := by
  simp [position, active]

theorem position_injective (r : RingHistogram) {back other : Nat}
    (hback : back < r.slots.size) (hother : other < r.slots.size)
    (heq : r.position back = r.position other) : back = other := by
  rcases Nat.le_total back other with hle | hle
  · have := eq_of_mod_eq (by omega) (by omega) heq.symm
    omega
  · have := eq_of_mod_eq (by omega) (by omega) heq
    omega

/-- Counting back from the active slot passes every slot once. -/
theorem range_map_position_perm (r : RingHistogram)
    (hsize : 0 < r.slots.size) :
    ((List.range r.slots.size).map r.position).Perm
      (List.range r.slots.size) := by
  have hnodup : ((List.range r.slots.size).map r.position).Nodup := by
    apply List.Nodup.map_on
    · intro back hback other hother heq
      exact r.position_injective (List.mem_range.mp hback)
        (List.mem_range.mp hother) heq
    · exact List.nodup_range
  have hsubset : ((List.range r.slots.size).map r.position) ⊆
      List.range r.slots.size := by
    intro p hp
    obtain ⟨back, _, rfl⟩ := List.mem_map.mp hp
    exact List.mem_range.mpr (r.position_lt hsize back)
  exact (hnodup.subperm hsubset).perm_of_length_le (by simp)

/-! ### Clearing slots -/

@[simp] theorem size_clearAhead (slots : Array Slot) (index depth : Nat) :
    (clearAhead slots index depth).size = slots.size := by
  unfold clearAhead
  induction depth with
  | zero => rfl
  | succ depth ih => simp [List.range_succ, List.foldl_append, ih]

theorem clearAhead_succ (slots : Array Slot) (index depth : Nat) :
    clearAhead slots index (depth + 1) =
      (clearAhead slots index depth).modify
        ((index + (depth + 1)) % slots.size) Slot.reset := by
  have hsize := size_clearAhead slots index depth
  unfold clearAhead at hsize ⊢
  rw [List.range_succ, List.foldl_append]
  simp only [List.foldl_cons, List.foldl_nil, hsize]

/-- A cleared slot is empty, whatever it recorded. -/
theorem getElem?_clearAhead (plan : SlotPlan) (slots : Array Slot)
    (index depth p : Nat) {values : List Float}
    (hslot : slots[p]? = some (plan.slotOf values)) :
    (clearAhead slots index depth)[p]? = some (plan.slotOf
      (if ∃ k < depth, (index + (k + 1)) % slots.size = p then []
      else values)) := by
  induction depth with
  | zero => simpa [clearAhead] using hslot
  | succ depth ih =>
      rw [clearAhead_succ, Array.getElem?_modify, ih]
      by_cases hlast : (index + (depth + 1)) % slots.size = p
      · have hhit : ∃ k < depth + 1, (index + (k + 1)) % slots.size = p :=
          ⟨depth, by omega, hlast⟩
        rw [if_pos hlast, if_pos hhit, Option.map_some,
          SlotPlan.reset_slotOf]
      · have hiff : (∃ k < depth + 1, (index + (k + 1)) % slots.size = p) ↔
            ∃ k < depth, (index + (k + 1)) % slots.size = p := by
          constructor
          · rintro ⟨k, hk, hp⟩
            refine ⟨k, ?_, hp⟩
            by_contra hge
            have hkdepth : k = depth := by omega
            exact hlast (hkdepth ▸ hp)
          · rintro ⟨k, hk, hp⟩
            exact ⟨k, by omega, hp⟩
        rw [if_neg hlast]
        simp only [hiff]

/-! ### Times within 64 bits -/

/-- A wall time at which a ring from `created` on adds up no times beyond 64
bits: neither where the interval in progress ends, nor how long ago the first
one did. -/
structure TimeFits (rotation created time : Int) : Prop where
  below : minInt64 ≤ time + min rotation 0
  above : time + max rotation 0 ≤ maxInt64
  since : time - created - min rotation 0 ≤ maxInt64

instance (rotation created time : Int) :
    Decidable (TimeFits rotation created time) :=
  decidable_of_iff (minInt64 ≤ time + min rotation 0 ∧
      time + max rotation 0 ≤ maxInt64 ∧
      time - created - min rotation 0 ≤ maxInt64)
    ⟨fun ⟨below, above, since⟩ => ⟨below, above, since⟩,
      fun ⟨below, above, since⟩ => ⟨below, above, since⟩⟩

/-- The wall times of a ring's creation and of all commands are such. -/
def TimesFit (rotation created : Int) (commands : List (Int × RingCommand)) :
    Prop :=
  ∀ time ∈ created :: commands.map Prod.fst, TimeFits rotation created time

instance (rotation created : Int) (commands : List (Int × RingCommand)) :
    Decidable (TimesFit rotation created commands) :=
  inferInstanceAs (Decidable (∀ time ∈ _, _))

namespace TimesFit

variable {rotation created : Int} {commands : List (Int × RingCommand)}
  {c : Int × RingCommand}

theorem start (h : TimesFit rotation created commands) :
    TimeFits rotation created created :=
  h created List.mem_cons_self

theorem of_append (h : TimesFit rotation created (commands ++ [c])) :
    TimesFit rotation created commands := by
  intro time hmem
  apply h
  rw [List.map_append, ← List.cons_append]
  exact List.mem_append_left _ hmem

theorem last (h : TimesFit rotation created (commands ++ [c])) :
    TimeFits rotation created c.1 :=
  h c.1 (by simp)

end TimesFit

/-- After the first interval, what has elapsed is counted without a wrap. -/
theorem TimeFits.elapsed_eq {r : RingHistogram} {created now : Int}
    (hfits : TimeFits r.rotation created now)
    (hfirst : created + r.rotation ≤ r.nextRotation)
    (hdue : r.nextRotation ≤ now) :
    r.elapsed now = (now - r.nextRotation).tdiv r.rotation + 1 := by
  have hsince := hfits.since
  have hspan : wrapInt64 (now - r.nextRotation) = now - r.nextRotation := by
    apply wrapInt64_of_mem
    · unfold minInt64
      omega
    · omega
  rw [elapsed, hspan]
  generalize hpassed : now - r.nextRotation = passed at *
  have hword : passed.tdiv r.rotation ≤ maxInt64 - 1 ∧
      -passed ≤ passed.tdiv r.rotation := by
    rcases Int.lt_or_le 0 r.rotation with hpos | hneg
    · rw [Int.tdiv_eq_ediv_of_nonneg (by omega)]
      have := Int.ediv_le_self r.rotation (by omega : 0 ≤ passed)
      have := Int.ediv_nonneg (by omega : 0 ≤ passed) hpos.le
      omega
    · rw [← Int.neg_neg r.rotation, Int.tdiv_neg,
        Int.tdiv_eq_ediv_of_nonneg (by omega)]
      have := Int.ediv_le_self (-r.rotation) (by omega : 0 ≤ passed)
      have := Int.ediv_nonneg (by omega : 0 ≤ passed)
        (by omega : 0 ≤ -r.rotation)
      unfold maxInt64 at *
      omega
  apply wrapInt64_of_mem
  · unfold minInt64 maxInt64 at *
    omega
  · omega

/-! ### The ring follows its history -/

/-- The slots hold the intervals of a history, the active one the latest. -/
structure Follows (r : RingHistogram) (created : Int) (h : RingHistory) :
    Prop where
  rotation_pos : 0 < r.rotation
  slots_pos : 0 < r.slots.size
  interval_nonneg : 0 ≤ h.interval
  nextRotation_eq : r.nextRotation = created + (h.interval + 1) * r.rotation
  le_interval : ∀ e ∈ h.log, e.1 ≤ h.interval
  slot_eq : ∀ back < r.slots.size, r.slots[r.position back]? =
    some (r.plan.slotOf (h.log.valuesIn (h.interval - back)))

theorem follows_create {plan : SlotPlan} {expiry : Duration} {length : Nat}
    {created : Int} {r : RingHistogram}
    (hcreate : create plan expiry length created = .ok r)
    (hrotation : 0 < r.rotation)
    (hfits : TimeFits r.rotation created created) :
    r.Follows created ⟨0, []⟩ ∧ r.plan = plan ∧ r.slots.size = length := by
  unfold create at hcreate
  simp only at hcreate
  split at hcreate
  · cases hcreate
  · rename_i hlength
    split at hcreate
    · cases hcreate
    · cases hcreate
      have hnext := wrapInt64_of_mem
        (n := created + wrapInt64 (expiry.millis / length : Nat))
        (by have := hfits.below; simp only at *; omega)
        (by have := hfits.above; simp only at *; omega)
      refine ⟨⟨hrotation, by simpa using Nat.pos_of_ne_zero hlength,
        Int.le_refl 0, by simpa using hnext, by simp, ?_⟩, rfl, by simp⟩
      intro back hback
      have hposition := position_lt
        ⟨plan, Array.replicate length plan.emptySlot,
          wrapInt64 (expiry.millis / length : Nat), 0,
          wrapInt64 (created + wrapInt64 (expiry.millis / length : Nat))⟩
        (by simpa using Nat.pos_of_ne_zero hlength) back
      simp only [Array.size_replicate] at hposition
      rw [Array.getElem?_replicate, if_pos hposition]
      rfl

namespace Follows

variable {r : RingHistogram} {created : Int} {h : RingHistory}

theorem first_le (hr : r.Follows created h) :
    created + r.rotation ≤ r.nextRotation := by
  have := Int.mul_nonneg hr.interval_nonneg hr.rotation_pos.le
  rw [hr.nextRotation_eq, Int.add_mul, Int.one_mul]
  omega

/-- The interval of a time after the active slot's end. -/
theorem interval_eq (hr : r.Follows created h) {now : Int}
    (hfits : TimeFits r.rotation created now) (hdue : r.nextRotation ≤ now) :
    (now - created) / r.rotation = h.interval + r.elapsed now := by
  have hsplit : now - created =
      (now - r.nextRotation) + (h.interval + 1) * r.rotation := by
    rw [hr.nextRotation_eq]
    omega
  rw [hsplit, Int.add_mul_ediv_right _ _ (by have := hr.rotation_pos; omega),
    hfits.elapsed_eq hr.first_le hdue, Int.tdiv_eq_ediv_of_nonneg (by omega)]
  omega

theorem elapsed_pos (hr : r.Follows created h) {now : Int}
    (hfits : TimeFits r.rotation created now) (hdue : r.nextRotation ≤ now) :
    0 < r.elapsed now := by
  have := Int.tdiv_nonneg (a := now - r.nextRotation) (by omega)
    (Int.le_of_lt hr.rotation_pos)
  rw [hfits.elapsed_eq hr.first_le hdue]
  omega

/-- The interval in progress ends within 64 bits. -/
theorem wrapInt64_next (hr : r.Follows created h) {now : Int}
    (hfits : TimeFits r.rotation created now) (hdue : r.nextRotation ≤ now) :
    wrapInt64 (r.nextRotation + r.elapsed now * r.rotation) =
      created + (h.interval + r.elapsed now + 1) * r.rotation := by
  have hbelow := hfits.below
  have habove := hfits.above
  have hsum : r.nextRotation + r.elapsed now * r.rotation =
      created + (h.interval + r.elapsed now + 1) * r.rotation := by
    rw [hr.nextRotation_eq]
    ring
  have hend := Int.lt_ediv_add_one_mul_self (now - created) hr.rotation_pos
  have hstart := Int.ediv_mul_le (now - created) hr.rotation_pos.ne'
  rw [hr.interval_eq hfits hdue] at hend hstart
  rw [hsum]
  rw [Int.add_mul (h.interval + r.elapsed now), Int.one_mul] at hend ⊢
  apply wrapInt64_of_mem <;> omega

theorem interval_le (hr : r.Follows created h) {now : Int}
    (hearly : now < r.nextRotation) :
    (now - created) / r.rotation ≤ h.interval := by
  have hlt : (now - created) / r.rotation < h.interval + 1 := by
    apply (Int.ediv_lt_iff_lt_mul hr.rotation_pos).mpr
    rw [hr.nextRotation_eq] at hearly
    omega
  omega

/-- A rotation keeps the slots of the intervals that stay in reach and hands
out cleared ones for those that began. -/
theorem rotate (hr : r.Follows created h) {now : Int}
    (hfits : TimeFits r.rotation created now) :
    (r.rotate now).Follows created
      ⟨max h.interval ((now - created) / r.rotation), h.log⟩ := by
  by_cases hearly : now < r.nextRotation
  · have hmax : max h.interval ((now - created) / r.rotation) = h.interval :=
      Int.max_eq_left (hr.interval_le hearly)
    simp only [RingHistogram.rotate, hearly, ↓reduceIte, hmax]
    exact hr
  · have hdue : r.nextRotation ≤ now := by omega
    have hpos := hr.elapsed_pos hfits hdue
    have hnext := hr.wrapInt64_next hfits hdue
    have hmax : max h.interval ((now - created) / r.rotation) =
        h.interval + r.elapsed now := by
      rw [hr.interval_eq hfits hdue]
      omega
    obtain ⟨elapsed, helapsed⟩ : ∃ elapsed : Nat,
        r.elapsed now = elapsed := ⟨(r.elapsed now).toNat, by omega⟩
    have hnat : 0 < elapsed := by omega
    have hstart := hr.interval_nonneg
    rw [helapsed] at hnext
    rw [hmax]
    simp only [RingHistogram.rotate, hearly, ↓reduceIte, helapsed,
      Int.toNat_natCast, if_neg (by omega : ¬ (elapsed : Int) < 0)]
    refine ⟨hr.rotation_pos, by simpa using hr.slots_pos, ?_, hnext, ?_, ?_⟩
    · simp only
      omega
    · intro e he
      have := hr.le_interval e he
      simp only
      omega
    · intro back hback
      simp only [size_clearAhead] at hback
      simp only [position, size_clearAhead]
      by_cases hnew : back < min elapsed r.slots.size
      · -- a slot that this rotation cleared
        have hslot := hr.slot_eq
          (r.slots.size - (min elapsed r.slots.size - back)) (by omega)
        have hposition :
            r.position (r.slots.size - (min elapsed r.slots.size - back)) =
              (r.index + min elapsed r.slots.size +
                (r.slots.size - back)) % r.slots.size := by
          rw [position, ← Nat.add_mod_right]
          congr 1
          omega
        rw [hposition] at hslot
        rw [getElem?_clearAhead r.plan r.slots _ _ _ hslot, if_pos]
        · congr 2
          symm
          apply StepLog.valuesIn_eq_nil
          intro e he
          have := hr.le_interval e he
          omega
        · refine ⟨min elapsed r.slots.size - back - 1, by omega, ?_⟩
          rw [← Nat.add_mod_right]
          congr 1
          omega
      · -- a slot that only moved away from the active one
        have hslot := hr.slot_eq (back - elapsed) (by omega)
        have hposition : r.position (back - elapsed) =
            (r.index + min elapsed r.slots.size +
              (r.slots.size - back)) % r.slots.size := by
          rw [position]
          congr 1
          omega
        rw [hposition] at hslot
        rw [getElem?_clearAhead r.plan r.slots _ _ _ hslot, if_neg]
        · congr 3
          omega
        · rintro ⟨k, hk, hhit⟩
          have := eq_of_mod_eq (by omega) (by omega) hhit
          omega

/-- Only the active slot takes a value. -/
theorem record (hr : r.Follows created h) {now : Int}
    (hfits : TimeFits r.rotation created now) (value : Float) :
    (r.record now value).Follows created
      (h.next ((now - created) / r.rotation) (.record value)) := by
  have hrotated := hr.rotate hfits
  generalize hinterval : max h.interval ((now - created) / r.rotation) =
    interval at hrotated
  have hlog : h.next ((now - created) / r.rotation) (.record value) =
      ⟨interval, h.log ++ StepLog.ofStep interval [value]⟩ := by
    simp only [RingHistory.next, hinterval]
  rw [hlog]
  simp only [RingHistogram.record]
  generalize r.rotate now = ring at hrotated
  refine ⟨hrotated.rotation_pos, by simpa using hrotated.slots_pos,
    hrotated.interval_nonneg, hrotated.nextRotation_eq, ?_, ?_⟩
  · intro e he
    rcases List.mem_append.mp he with hold | hnew
    · exact hrotated.le_interval e hold
    · obtain ⟨_, _, rfl⟩ := List.mem_map.mp hnew
      exact Int.le_refl interval
  · intro back hback
    simp only [Array.size_modify] at hback
    simp only [position, Array.size_modify]
    rw [← position, Array.getElem?_modify, hrotated.slot_eq back hback,
      ← position_zero]
    by_cases hactive : ring.position 0 = ring.position back
    · have hzero : 0 = back :=
        ring.position_injective hrotated.slots_pos hback hactive
      subst hzero
      simp [StepLog.valuesIn_append, StepLog.valuesIn_ofStep_self,
        SlotPlan.slotOf_append_singleton]
    · have hback : back ≠ 0 := fun hzero => hactive (by rw [hzero])
      rw [if_neg hactive, StepLog.valuesIn_append,
        StepLog.valuesIn_ofStep_of_ne (by omega), List.append_nil]

/-- The slots, from the active one backwards. -/
theorem slots_perm (hr : r.Follows created h) :
    r.slots.toList.Perm (((List.range r.slots.size).map fun back =>
      h.log.valuesIn (h.interval - (back : Nat))).map r.plan.slotOf) := by
  apply (List.map_perm_map_iff (Option.some_injective Slot)).mp
  have hslots : r.slots.toList.map some =
      (List.range r.slots.size).map fun p => r.slots[p]? := by
    apply List.ext_getElem
    · simp
    · intro p hp _
      simp only [List.length_map, Array.length_toList] at hp
      simp [hp]
  have hback : ((List.range r.slots.size).map r.position).map
        (fun p => r.slots[p]?) =
      (((List.range r.slots.size).map fun back =>
        h.log.valuesIn (h.interval - (back : Nat))).map r.plan.slotOf).map
          some := by
    simp only [List.map_map]
    apply List.map_congr_left
    intro back hmem
    exact hr.slot_eq back (List.mem_range.mp hmem)
  rw [hslots, ← hback]
  exact ((r.range_map_position_perm hr.slots_pos).map _).symm

theorem snapshot_slots (hr : r.Follows created h) (count : UInt64)
    (total max : Float) :
    r.plan.snapshot r.slots.toList count total max =
      r.plan.snapshotOf (h.recent r.slots.size) count total max := by
  have hrecent := StepLog.flatten_valuesIn_perm h.log hr.le_interval
    r.slots.size
  rw [r.plan.snapshot_of_perm hr.slots_perm, RingHistory.recent]
  exact r.plan.snapshotOf_perm hrecent count total max

end Follows

/-! ### Runs -/

/-- The ring after a command at a wall time. -/
def perform (r : RingHistogram) (now : Int) : RingCommand → RingHistogram
  | .record value => r.record now value
  | .snapshot count total max => (r.snapshot now count total max).2

/-- The ring after commands at wall times, in any order of times. -/
def run (r : RingHistogram) (commands : List (Int × RingCommand)) :
    RingHistogram :=
  commands.foldl (fun r c => r.perform c.1 c.2) r

theorem run_append_singleton (r : RingHistogram)
    (commands : List (Int × RingCommand)) (c : Int × RingCommand) :
    r.run (commands ++ [c]) = (r.run commands).perform c.1 c.2 := by
  simp [run]

/-- Nothing but slots and the place of the active one ever changes. -/
theorem shape_rotate (r : RingHistogram) (now : Int) :
    (r.rotate now).plan = r.plan ∧ (r.rotate now).rotation = r.rotation ∧
      (r.rotate now).slots.size = r.slots.size := by
  unfold rotate
  split
  · exact ⟨rfl, rfl, rfl⟩
  · exact ⟨rfl, rfl, size_clearAhead _ _ _⟩

theorem shape_perform (r : RingHistogram) (now : Int) (c : RingCommand) :
    (r.perform now c).plan = r.plan ∧
      (r.perform now c).rotation = r.rotation ∧
      (r.perform now c).slots.size = r.slots.size := by
  have hshape := r.shape_rotate now
  cases c with
  | record value =>
      refine ⟨hshape.1, hshape.2.1, ?_⟩
      simpa [perform, record] using hshape.2.2
  | snapshot count total max => exact hshape

theorem Follows.perform {r : RingHistogram} {created : Int}
    {h : RingHistory} (hr : r.Follows created h) {now : Int}
    (hfits : TimeFits r.rotation created now) (c : RingCommand) :
    (r.perform now c).Follows created
      (h.next ((now - created) / r.rotation) c) := by
  cases c with
  | record value => exact hr.record hfits value
  | snapshot count total max => exact hr.rotate hfits

theorem run_follows {r : RingHistogram} {created : Int}
    (hr : r.Follows created ⟨0, []⟩) {commands : List (Int × RingCommand)}
    (hfits : TimesFit r.rotation created commands) :
    (r.run commands).Follows created
        (RingHistory.of r.rotation created commands) ∧
      (r.run commands).plan = r.plan ∧
      (r.run commands).rotation = r.rotation ∧
      (r.run commands).slots.size = r.slots.size := by
  induction commands using List.reverseRecOn with
  | nil => exact ⟨hr, rfl, rfl, rfl⟩
  | append_singleton before c ih =>
      obtain ⟨hfollows, hplan, hrotation, hsize⟩ := ih hfits.of_append
      have hlast := hfits.last
      have hshape := (r.run before).shape_perform c.1 c.2
      rw [← hrotation] at hlast
      rw [run_append_singleton, RingHistory.of_append_singleton, ← hrotation,
        ← hplan, ← hsize]
      exact ⟨hrotation ▸ hfollows.perform hlast c.2, hshape⟩

/-- A ring is refined by its history, for every order of records and
snapshots and all moves of the clock that keep its times within 64 bits.  A
snapshot counts exactly the values recorded in the latest intervals, as many
as there are slots, and the number of slots never changes. -/
theorem snapshot_run_eq_snapshotOf_recent {plan : SlotPlan}
    {expiry : Duration} {length : Nat} {created : Int} {r : RingHistogram}
    (hcreate : create plan expiry length created = .ok r)
    (hrotation : 0 < r.rotation) (commands : List (Int × RingCommand))
    (now : Int) (count : UInt64) (total max : Float)
    (hfits : TimesFit r.rotation created
      (commands ++ [(now, .snapshot count total max)])) :
    let h := RingHistory.of r.rotation created
      (commands ++ [(now, .snapshot count total max)])
    let taken := (r.run commands).snapshot now count total max
    taken.1 = plan.snapshotOf (h.recent length) count total max ∧
      taken.2.slots.size = length := by
  intro h taken
  obtain ⟨hstart, hplan, hlength⟩ :=
    follows_create hcreate hrotation hfits.start
  obtain ⟨hfollows, hkept, _, hsize⟩ := run_follows hstart hfits
  rw [run_append_singleton] at hfollows hkept hsize
  have hsnapshot := hfollows.snapshot_slots count total max
  rw [hsize, hlength, hkept, hplan] at hsnapshot
  constructor
  · have htaken : taken.1 =
        taken.2.plan.snapshot taken.2.slots.toList count total max := rfl
    rw [htaken, ← hsnapshot, ← hplan, ← hkept]
    rfl
  · exact hsize.trans hlength

/-- A clock that moves back, and a wrap around the ring that drops the
earliest interval alone. -/
theorem snapshot_run_wrapped :
    let plan : SlotPlan := ⟨#[1.0, 2.0], none, [], 0.0, 9.0, 1.0⟩
    ∃ r, create plan (.ofSeconds 3) 3 0 = .ok r ∧
      ((r.run [(0, .record 1.0), (1500, .record 2.0), (500, .record 4.0)]
        ).snapshot 3200 3 7.0 4.0).1 =
        plan.snapshotOf [2.0, 4.0] 3 7.0 4.0 := by
  intro plan
  have hrotation : wrapInt64 (Duration.millis (.ofSeconds 3) / 3 : Nat) =
      1000 := by decide
  have hcreate : create plan (.ofSeconds 3) 3 0 =
      .ok ⟨plan, Array.replicate 3 plan.emptySlot, 1000, 0, 1000⟩ := by
    simp only [create, hrotation]
    rfl
  have hsnapshot := snapshot_run_eq_snapshotOf_recent hcreate (by decide)
    [(0, .record 1.0), (1500, .record 2.0), (500, .record 4.0)]
    3200 3 7.0 4.0 (by decide)
  exact ⟨_, hcreate, hsnapshot.1⟩

end RingHistogram

end WindowedMetrics
