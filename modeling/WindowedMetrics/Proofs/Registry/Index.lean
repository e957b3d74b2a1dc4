/-
The index of children as a graph.  Every change of the index is told by the
pairs that it adds or drops.
-/
import WindowedMetrics.Registry.ChildIndex
import Mathlib.Logic.Relation

namespace WindowedMetrics

namespace ChildIndex

/-- The index lists a child under a parent. -/
def Lists (index : ChildIndex) (parent child : MeterKey) : Prop :=
  child ∈ index.childrenOf parent

/-- A chain of children leads from one meter to another. -/
def Reaches (index : ChildIndex) (root key : MeterKey) : Prop :=
  Relation.ReflTransGen index.Lists root key

/-! ### Changes pair by pair -/

theorem not_lists_empty (parent child : MeterKey) :
    ¬ empty.Lists parent child := by
  simp [Lists, childrenOf, empty]

theorem childrenOf_without (index : ChildIndex) (parent other : MeterKey) :
    (index.without parent).childrenOf other =
      if other = parent then [] else index.childrenOf other := by
  simp only [without, childrenOf, List.filter_filter]
  by_cases heq : other = parent
  · subst heq
    have hnone : index.entries.filter (fun e =>
        decide (e.1 = other) && !decide (e.1 = other)) = [] := by
      simp
    rw [hnone, if_pos rfl, List.flatMap_nil]
  · rw [if_neg heq]
    congr 1
    apply List.filter_congr
    intro e _
    by_cases hentry : e.1 = other
    · simp [hentry, heq]
    · simp [hentry]

/-- The index without the entries of several parents. -/
def withoutAll (index : ChildIndex) (parents : List MeterKey) : ChildIndex :=
  ⟨index.entries.filter fun e => decide (e.1 ∉ parents)⟩

theorem withoutAll_singleton (index : ChildIndex) (parent : MeterKey) :
    index.withoutAll [parent] = index.without parent := by
  simp [withoutAll, without]

theorem without_withoutAll (index : ChildIndex) (parent : MeterKey)
    (parents : List MeterKey) :
    (index.withoutAll parents).without parent =
      index.withoutAll (parent :: parents) := by
  simp [withoutAll, without, List.filter_filter, Bool.decide_and]

theorem childrenOf_withoutAll (index : ChildIndex) (parents : List MeterKey)
    (parent : MeterKey) :
    (index.withoutAll parents).childrenOf parent =
      if parent ∈ parents then [] else index.childrenOf parent := by
  induction parents with
  | nil => simp [withoutAll, childrenOf]
  | cons removed rest ih =>
      rw [← without_withoutAll, childrenOf_without, ih]
      by_cases heq : parent = removed
      · simp [heq]
      · simp [heq]

theorem lists_withoutAll (index : ChildIndex) (parents : List MeterKey)
    (parent child : MeterKey) :
    (index.withoutAll parents).Lists parent child ↔
      parent ∉ parents ∧ index.Lists parent child := by
  simp only [Lists, childrenOf_withoutAll]
  by_cases hmem : parent ∈ parents
  · simp [hmem]
  · simp [hmem]

theorem childrenOf_append_entry (index : ChildIndex)
    (parent other : MeterKey) (children : List MeterKey) :
    (⟨(index.without parent).entries ++ [(parent, children)]⟩ :
        ChildIndex).childrenOf other =
      if other = parent then children else index.childrenOf other := by
  have hsplit : (⟨(index.without parent).entries ++ [(parent, children)]⟩ :
        ChildIndex).childrenOf other =
      (index.without parent).childrenOf other ++
        if other = parent then children else [] := by
    by_cases heq : other = parent
    · simp [childrenOf, heq]
    · have hne : parent ≠ other := fun hparent => heq hparent.symm
      simp [childrenOf, heq, hne]
  rw [hsplit, childrenOf_without]
  by_cases heq : other = parent
  · simp [heq]
  · simp [heq]

theorem lists_add (index : ChildIndex) (added grown parent child : MeterKey) :
    (index.add added grown).Lists parent child ↔
      index.Lists parent child ∨ parent = added ∧ child = grown := by
  simp only [Lists, add]
  by_cases hknown : grown ∈ index.childrenOf added
  · rw [if_pos (by simpa using hknown)]
    constructor
    · exact Or.inl
    · rintro (hold | ⟨rfl, rfl⟩)
      · exact hold
      · exact hknown
  · rw [if_neg (by simpa using hknown), childrenOf_append_entry]
    by_cases heq : parent = added
    · subst heq
      simp
    · simp [heq]

theorem lists_remove (index : ChildIndex)
    (owner removed parent child : MeterKey) :
    (index.remove owner removed).Lists parent child ↔
      index.Lists parent child ∧ ¬ (parent = owner ∧ child = removed) := by
  simp only [Lists, remove]
  by_cases hknown : removed ∈ index.childrenOf owner
  · rw [if_pos (by simpa using hknown)]
    have hothers : ∀ others : List MeterKey,
        (if others.isEmpty = true then
            (⟨(index.without owner).entries⟩ : ChildIndex)
          else ⟨(index.without owner).entries ++
            [(owner, others)]⟩).childrenOf parent =
          if parent = owner then others else index.childrenOf parent := by
      intro others
      by_cases hempty : others.isEmpty = true
      · rw [if_pos hempty, List.isEmpty_iff.mp hempty]
        exact childrenOf_without index owner parent
      · rw [if_neg hempty]
        exact childrenOf_append_entry index owner parent others
    rw [hothers]
    by_cases heq : parent = owner
    · subst heq
      simp [List.mem_filter]
    · simp [heq]
  · rw [if_neg (by simpa using hknown)]
    constructor
    · intro hlisted
      refine ⟨hlisted, ?_⟩
      rintro ⟨rfl, rfl⟩
      exact hknown hlisted
    · exact And.left

/-! ### Reaching -/

theorem Reaches.mono {index more : ChildIndex} {root key : MeterKey}
    (hmore : ∀ parent child, index.Lists parent child →
      more.Lists parent child)
    (h : index.Reaches root key) : more.Reaches root key :=
  Relation.ReflTransGen.mono hmore root key h

/-- Meters that have all children of theirs among them are not left along the
index. -/
theorem Reaches.mem_of_closed {index : ChildIndex} {root key : MeterKey}
    (h : index.Reaches root key) {closed : List MeterKey}
    (hroot : root ∈ closed)
    (hclosed : ∀ parent ∈ closed, ∀ child ∈ index.childrenOf parent,
      child ∈ closed) : key ∈ closed := by
  induction h with
  | refl => exact hroot
  | tail _ hlisted ih => exact hclosed _ ih _ hlisted

end ChildIndex

end WindowedMetrics
