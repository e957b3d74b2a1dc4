/-
Which meters were derived from which.  The index is a graph without any
promise on its shape: chains, shared children and cycles all occur.  Taking
the descendants of a meter out of it ends because every visit uses up the
entries of the visited meter.
-/
import WindowedMetrics.Identity.Id

namespace WindowedMetrics

/-- Parents with their children. -/
structure ChildIndex where
  entries : List (MeterKey × List MeterKey)

namespace ChildIndex

/-- No meters. -/
def empty : ChildIndex := ⟨[]⟩

/-- The children of a meter. -/
def childrenOf (index : ChildIndex) (parent : MeterKey) : List MeterKey :=
  (index.entries.filter fun e => decide (e.1 = parent)).flatMap (·.2)

/-- The index without the entries of a parent. -/
def without (index : ChildIndex) (parent : MeterKey) : ChildIndex :=
  ⟨index.entries.filter fun e => !decide (e.1 = parent)⟩

/-- Adds a child to a parent, once. -/
def add (index : ChildIndex) (parent child : MeterKey) : ChildIndex :=
  let children := index.childrenOf parent
  if children.contains child then index
  else ⟨(index.without parent).entries ++ [(parent, children ++ [child])]⟩

/-- Takes a child from a parent; a parent without children has no entry. -/
def remove (index : ChildIndex) (parent child : MeterKey) : ChildIndex :=
  let children := index.childrenOf parent
  if children.contains child then
    let others := children.filter fun other => !decide (other = child)
    let rest := (index.without parent).entries
    if others.isEmpty then ⟨rest⟩ else ⟨rest ++ [(parent, others)]⟩
  else index

/-- The number of pairs of a parent and a child. -/
def weight (index : ChildIndex) : Nat :=
  (index.entries.flatMap Prod.snd).length

theorem weight_without (index : ChildIndex) (parent : MeterKey) :
    (index.without parent).weight + (index.childrenOf parent).length =
      index.weight := by
  obtain ⟨entries⟩ := index
  simp only [weight, without, childrenOf]
  induction entries with
  | nil => rfl
  | cons head rest ih =>
      by_cases h : head.1 = parent
      · simp only [h, List.filter_cons, decide_true, Bool.not_true,
          Bool.false_eq_true, ↓reduceIte, List.flatMap_cons,
          List.length_append]
        omega
      · simp only [h, List.filter_cons, decide_false, Bool.not_false,
          Bool.false_eq_true, ↓reduceIte, List.flatMap_cons,
          List.length_append]
        omega

/-- Visits the pending meters and everything derived from them, each once and
none of the `visited` ones.  Returns them in the order of the visits, with
the index that is left without their entries. -/
def takeDescendants (index : ChildIndex) (visited pending : List MeterKey) :
    List MeterKey × ChildIndex :=
  match pending with
  | [] => ([], index)
  | key :: rest =>
      if visited.contains key then index.takeDescendants visited rest
      else
        let (later, left) := (index.without key).takeDescendants
          (key :: visited) (index.childrenOf key ++ rest)
        (key :: later, left)
termination_by index.weight + pending.length
decreasing_by
  · simp only [List.length_cons]
    omega
  · have := weight_without index key
    simp only [List.length_append, List.length_cons]
    omega

end ChildIndex

end WindowedMetrics
