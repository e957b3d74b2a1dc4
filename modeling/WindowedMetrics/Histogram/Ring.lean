/-
A decaying histogram: a ring of slots, each for one rotation interval of wall
time.  Samples go to the active slot; when its interval is over, the next
slot of the ring is cleared and becomes the active one.
-/
import WindowedMetrics.Histogram.Slot
import WindowedMetrics.Time.Word

namespace WindowedMetrics

/-- `index` counts the rotations so far, capped at one turn each; the active
slot is `index` modulo the length of the ring.  The active slot's interval
ends at `nextRotation`.  Sums of times wrap at 64 bits. -/
structure RingHistogram where
  plan : SlotPlan
  slots : Array Slot
  rotation : Int
  index : Nat
  nextRotation : Int

namespace RingHistogram

/-- An empty ring; refused without slots, or if a slot's share of the expiry
is shorter than a millisecond. -/
def create (plan : SlotPlan) (expiry : Duration) (length : Nat)
    (now : Int) : Except DistributionError RingHistogram :=
  let rotation := wrapInt64 (expiry.millis / length : Nat)
  if length = 0 then .error .zeroBufferLength
  else if rotation = 0 then .error (.emptyRotationInterval expiry length)
  else .ok ⟨plan, Array.replicate length plan.emptySlot, rotation, 0,
    wrapInt64 (now + rotation)⟩

/-- Clears the `depth` slots after position `index`. -/
def clearAhead (slots : Array Slot) (index depth : Nat) : Array Slot :=
  (List.range depth).foldl (fun slots k =>
    slots.modify ((index + (k + 1)) % slots.size) Slot.reset) slots

/-- The number of intervals that ended by `now`, when the active one has. -/
def elapsed (r : RingHistogram) (now : Int) : Int :=
  wrapInt64 ((wrapInt64 (now - r.nextRotation)).tdiv r.rotation + 1)

/-- Brings the ring to `now`.  Every interval that ended retires a slot; more
than a full turn clears every slot just once. -/
def rotate (r : RingHistogram) (now : Int) : RingHistogram :=
  if now < r.nextRotation then r
  else
    let elapsed := r.elapsed now
    let depth :=
      if elapsed < 0 then r.slots.size else min elapsed.toNat r.slots.size
    { r with
      slots := clearAhead r.slots r.index depth
      index := r.index + depth
      nextRotation := wrapInt64 (r.nextRotation + elapsed * r.rotation) }

/-- The position of the active slot. -/
def active (r : RingHistogram) : Nat :=
  r.index % r.slots.size

/-- Records a sample into the slot that is active at `now`. -/
def record (r : RingHistogram) (now : Int) (value : Float) : RingHistogram :=
  let r := r.rotate now
  { r with
    slots := r.slots.modify r.active fun slot => r.plan.record slot value }

/-- All slots together, as of `now`. -/
def snapshot (r : RingHistogram) (now : Int) (count : UInt64)
    (total max : Float) : Snapshot × RingHistogram :=
  let r := r.rotate now
  (r.plan.snapshot r.slots.toList count total max, r)

end RingHistogram

end WindowedMetrics
