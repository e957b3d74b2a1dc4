/-
What stays registered is spared.  A removal closes what it takes out and
touches no other meter, and an operation on several meters reaches each of
them once.
-/
import WindowedMetrics.Proofs.Registry.Edits
import Mathlib.Data.List.Nodup

namespace WindowedMetrics

namespace Registry

/-- An operation on different meters is run on each of them once. -/
theorem getElem?_updateAll (r : Registry) {references : List Nat}
    (hnodup : references.Nodup) (op : Meter → Meter) (reference : Nat) :
    (r.updateAll references op).made[reference]? =
      if reference ∈ references then (r.made[reference]?).map op
      else r.made[reference]? := by
  simp only [updateAll]
  generalize r.made = made
  induction references generalizing made with
  | nil => simp
  | cons head rest ih =>
      obtain ⟨hnew, hrest⟩ := List.nodup_cons.mp hnodup
      rw [List.foldl_cons, ih hrest, Array.getElem?_modify]
      by_cases heq : head = reference
      · subst heq
        simp [hnew]
      · simp [heq, Ne.symm heq]

/-- Some meters may be gone; those that are still registered are as they
were. -/
structure Spares (r next : Registry) : Prop where
  config_eq : next.config = r.config
  size_eq : next.made.size = r.made.size
  wellFormed : next.WellFormed
  references_subset : ∀ reference ∈ next.references, reference ∈ r.references
  untouched : ∀ reference ∈ next.references,
    next.made[reference]? = r.made[reference]?

namespace Spares

variable {r middle next : Registry}

theorem refl (hr : r.WellFormed) : r.Spares r :=
  ⟨rfl, rfl, hr, fun _ h => h, fun _ _ => rfl⟩

theorem trans (h : r.Spares middle) (hnext : middle.Spares next) :
    r.Spares next := by
  refine ⟨hnext.config_eq.trans h.config_eq, hnext.size_eq.trans h.size_eq,
    hnext.wellFormed, ?_, ?_⟩
  · intro reference hreference
    exact h.references_subset reference
      (hnext.references_subset reference hreference)
  · intro reference hreference
    exact (hnext.untouched reference hreference).trans (h.untouched reference
      (hnext.references_subset reference hreference))

/-- The index of children does not matter. -/
theorem withChildren (h : r.Spares next) (index : ChildIndex) :
    r.Spares { next with children := index } :=
  ⟨h.config_eq, h.size_eq, ⟨h.wellFormed.lt_size,
    h.wellFormed.references_nodup⟩, h.references_subset, h.untouched⟩

theorem takeOut (hr : r.WellFormed) (key : MeterKey) (kept : List Meter)
    (around : Surroundings) :
    r.Spares (r.takeOut key kept around).value.2 := by
  have hkeeps := takeOut_keeps hr key kept around
  unfold Registry.takeOut at hkeeps ⊢
  split
  · rename_i gone meter hfind hget
    have hsublist : (r.entries.filter fun e => !decide (e.1 = key)).Sublist
        r.entries := List.filter_sublist
    refine ⟨rfl, size_updateAll _ _ _, ?_, ?_, ?_⟩
    · simp only [hfind, hget] at hkeeps
      exact hkeeps.wellFormed
    · intro reference hreference
      exact (hsublist.map Prod.snd).subset hreference
    · intro reference hreference
      rw [getElem?_updateAll _ (by simp), if_neg]
      -- The reference of another entry is another one.
      rintro hgone
      obtain ⟨e, he, rfl⟩ := List.mem_map.mp hreference
      obtain ⟨hmem, hkey⟩ := List.mem_filter.mp he
      have hsame := List.inj_on_of_nodup_map hr.references_nodup hmem
        (mem_entries_of_find? hfind) (List.mem_singleton.mp hgone)
      rw [hsame] at hkey
      simp at hkey
  · exact refl hr

theorem takeOutAll (hr : r.WellFormed) (keys : List MeterKey)
    (kept : List Meter) (around : Surroundings) :
    r.Spares (r.takeOutAll keys kept around).value := by
  induction keys generalizing r with
  | nil => exact refl hr
  | cons key rest ih =>
      have hout := takeOut hr key kept around
      rw [takeOutAll_cons]
      exact hout.trans (ih hout.wellFormed)

theorem remove (hr : r.WellFormed) (key : MeterKey)
    (around : Surroundings) : r.Spares (r.remove key around).value.2 := by
  unfold Registry.remove
  split
  · exact refl hr
  · have hout := takeOut hr key [] around
    simp only
    generalize (r.takeOut key [] around).value.2 = left at hout ⊢
    have hleft := hout.withChildren
    exact (hleft _).trans (takeOutAll (hleft _).wellFormed _ _ around)

/-- Nothing stays registered in a cleared registry. -/
theorem clear (r : Registry) (m : Moment) : r.Spares (r.clear m).value :=
  ⟨rfl, size_updateAll _ _ _, ⟨by simp [Registry.clear],
    by simp [Registry.clear, references]⟩, by simp [Registry.clear, references],
    by simp [Registry.clear, references]⟩

end Spares

end Registry

end WindowedMetrics
