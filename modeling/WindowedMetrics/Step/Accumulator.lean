/-
Values that accumulate within a step: sums, maxima, and pairs of them that
roll over together.
-/
import WindowedMetrics.Number.Dyadic

namespace WindowedMetrics

/-- How values of one kind accumulate.  `identity` is the value of a step
without activity. -/
structure Accumulator (V : Type) where
  identity : V
  merge : V → V → V

namespace Accumulator

/-- An integer sum, modulo `2^64`. -/
def longSum : Accumulator UInt64 := ⟨0, fun total amount => total + amount⟩

/-- A floating-point sum, rounded after every addition. -/
def doubleSum : Accumulator Float :=
  ⟨0.0, fun total amount => total + amount⟩

/-- A floating-point maximum that starts from zero and ignores NaN. -/
def doubleMax : Accumulator Float := ⟨0.0, peak⟩

/-- Two accumulators side by side, so that both stay in the same step. -/
def pair {V W : Type} (a : Accumulator V) (b : Accumulator W) :
    Accumulator (V × W) :=
  ⟨(a.identity, b.identity),
    fun held given => (a.merge held.1 given.1, b.merge held.2 given.2)⟩

/-- The values merged in order, starting from the identity. -/
def fold {V : Type} (acc : Accumulator V) (values : List V) : V :=
  values.foldl acc.merge acc.identity

theorem fold_append_singleton {V : Type} (acc : Accumulator V)
    (values : List V) (value : V) :
    acc.fold (values ++ [value]) = acc.merge (acc.fold values) value := by
  simp [fold]

/-- Reads a held value and leaves the identity in its place. -/
def take {V : Type} (acc : Accumulator V) (held : V) : V × V :=
  (held, acc.identity)

end Accumulator

end WindowedMetrics
