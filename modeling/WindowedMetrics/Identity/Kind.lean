/-
The kinds of meters, and sets of kinds.
-/

namespace WindowedMetrics

/-- What a meter measures and how it reports. -/
inductive MeterKind
  | counter
  | gauge
  | timer
  | summary
  | longTaskTimer
  | functionCounter
  | functionTimer
  | custom
deriving Repr, DecidableEq, Inhabited

namespace MeterKind

/-- All kinds, in their order. -/
def all : List MeterKind :=
  [counter, gauge, timer, summary, longTaskTimer, functionCounter,
    functionTimer, custom]

/-- The name used in messages. -/
def text : MeterKind → String
  | counter => "counter"
  | gauge => "gauge"
  | timer => "timer"
  | summary => "distribution summary"
  | longTaskTimer => "long task timer"
  | functionCounter => "function counter"
  | functionTimer => "function timer"
  | custom => "custom meter"

/-- Whether meters of the kind are built from a distribution configuration. -/
def hasDistribution : MeterKind → Bool
  | timer | summary | longTaskTimer => true
  | _ => false

/-- The bit of a kind inside a set. -/
def bit : MeterKind → UInt8
  | counter => 1
  | gauge => 2
  | timer => 4
  | summary => 8
  | longTaskTimer => 16
  | functionCounter => 32
  | functionTimer => 64
  | custom => 128

end MeterKind

/-- A set of kinds, one bit for each. -/
structure KindMask where
  bits : UInt8
deriving Repr, DecidableEq

namespace KindMask

/-- No kind. -/
def none : KindMask := ⟨0⟩

/-- Every kind. -/
def all : KindMask := ⟨255⟩

/-- A single kind. -/
def ofKind (kind : MeterKind) : KindMask := ⟨kind.bit⟩

/-- The kinds of either set. -/
def union (a b : KindMask) : KindMask := ⟨a.bits ||| b.bits⟩

/-- Whether a kind belongs to the set. -/
def contains (mask : KindMask) (kind : MeterKind) : Bool :=
  mask.bits &&& kind.bit != 0

/-- Sets are ordered by their bits. -/
def less (a b : KindMask) : Bool := decide (a.bits < b.bits)

end KindMask

end WindowedMetrics
