/-
A fixed number of cells that keep sample measurements of the step in
progress, and the cells of the step that closed last.  Measurements without a
trace context are never kept.
-/
import WindowedMetrics.Distribution.Ladder
import WindowedMetrics.Exemplar.Context
import WindowedMetrics.Step.Tracker

namespace WindowedMetrics

/-- The number of different values among exemplars. -/
def distinctValues (exemplars : List Exemplar) : Nat :=
  (exemplars.map fun e => e.value.toBits).eraseDups.length

/-- How a measurement finds its cell: by chance over all cells, or by the
bucket it falls into, where the latest one stays. -/
inductive CellChoice
  | random
  | buckets (bounds : Array Float)

/-- Cells with what they hold, and the number of measurements that asked for
a cell by chance. -/
structure Cells where
  held : List (Option Exemplar)
  seen : Nat

namespace Cells

/-- Empty cells. -/
def empty (count : Nat) : Cells := ⟨List.replicate count none, 0⟩

/-- What the cells hold, in their order. -/
def contents (c : Cells) : List Exemplar := c.held.filterMap id

end Cells

/-- `filling` takes the measurements of the step in progress, `closed` holds
those of the step that closed last. -/
structure Reservoir where
  selector : CellChoice
  filling : Cells
  closed : Cells
  tracker : StepTracker

namespace Reservoir

/-- The number of cells: one for each bucket, or as many as asked for; always
at least one. -/
def cellsFor (selector : CellChoice) (count : Nat) : Nat :=
  match selector with
  | .random => max count 1
  | .buckets bounds => max bounds.size 1

/-- An empty reservoir whose first step contains `now`. -/
def create (selector : CellChoice) (count : Nat) (step : Duration)
    (now : Int) : Reservoir :=
  let cells := Cells.empty (cellsFor selector count)
  ⟨selector, cells, cells, StepTracker.starting step now⟩

/-- The number of cells for each step. -/
def size (r : Reservoir) : Nat := r.filling.held.length

/-- Empty cells, as many as there are. -/
def freshCells (r : Reservoir) : Cells := Cells.empty r.size

/-- Moves to the step of `now`.  Measurements of a step that is not directly
before the new one are dropped. -/
def rollover (r : Reservoir) (now : Int) : Reservoir :=
  match r.tracker.due? now with
  | none => r
  | some rollover =>
      { r with
        filling := r.freshCells
        closed := if rollover.contiguous then r.filling else r.freshCells
        tracker := r.tracker.advance now }

/-- Puts a measurement into its cell.  By chance, the first measurements fill
the cells in order; after that, number `n` of them draws a number up to `n`
with `draw` and takes the cell of that number, if there is one. -/
def place (selector : CellChoice) (draw : Nat → Nat) (cells : Cells)
    (exemplar : Exemplar) : Cells :=
  match selector with
  | .random =>
      let cell :=
        if cells.seen < cells.held.length then cells.seen
        else draw (cells.seen + 1)
      ⟨cells.held.set cell (some exemplar), cells.seen + 1⟩
  | .buckets bounds =>
      let bucket := frontLength bounds (· < exemplar.value)
      let cell := min bucket (cells.held.length - 1)
      { cells with held := cells.held.set cell (some exemplar) }

/-- Offers a measurement taken at `now`.  Without a context nothing happens at
all. -/
def offer (r : Reservoir) (now : Int) (context : Option TraceContext)
    (draw : Nat → Nat) (value : Float) : Reservoir :=
  match context with
  | none => r
  | some context =>
      let r := r.rollover now
      let exemplar := ⟨value, clampInt64 (now * 1000000), context⟩
      { r with filling := place r.selector draw r.filling exemplar }

/-- The measurements kept from the last closed step as seen at `now`. -/
def collect (r : Reservoir) (now : Int) : List Exemplar × Reservoir :=
  let r := r.rollover now
  (r.closed.contents, r)

/-- Like `collect`, and leaves the closed step empty. -/
def drain (r : Reservoir) (now : Int) : List Exemplar × Reservoir :=
  let r := r.rollover now
  let emptied := { r.closed with held := r.closed.held.map fun _ => none }
  (r.closed.contents, { r with closed := emptied })

/-- Closes the step in progress whatever the time, once. -/
def close (r : Reservoir) : Reservoir :=
  if r.tracker.isClosed then r
  else
    { r with
      filling := r.freshCells
      closed := r.filling
      tracker := r.tracker.close }

/-- The display form. -/
def display (r : Reservoir) : String :=
  let selector :=
    match r.selector with
    | .random => "Random"
    | .buckets bounds =>
        Display.enclosed "Buckets(" ")"
          [Display.list (bounds.toList.map Display.float)]
  Display.record "ExemplarReservoir"
    [("selector", selector),
     ("cell_count", toString r.size),
     ("boundary", r.tracker.display)]

end Reservoir

end WindowedMetrics
