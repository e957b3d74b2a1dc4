/-
The draws of chance that samplers ask for.  They come from outside, turn by
turn, and may be any numbers.
-/

namespace WindowedMetrics

/-- Draws of chance at some turn.  A draw may depend on the turn and on the
bound that it is to stay below. -/
structure Chance where
  draws : Nat → Nat → Nat
  turn : Nat

namespace Chance

/-- Draws at their first turn. -/
def ofDraws (draws : Nat → Nat → Nat) : Chance := ⟨draws, 0⟩

/-- The next turn. -/
def next (c : Chance) : Chance := { c with turn := c.turn + 1 }

/-- A number below the bound.  A sampler whose bound grows with every draw
can draw several numbers in one turn. -/
def below (c : Chance) (bound : Nat) : Nat := c.draws c.turn bound % bound

end Chance

end WindowedMetrics
