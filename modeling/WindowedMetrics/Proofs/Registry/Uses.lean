/-
Registries at work.  Rollovers, reads, exports and removals put meters to use
and may take entries out; they make no meters, enter none, and leave settings
and filters alone.
-/
import WindowedMetrics.Export.Publication
import WindowedMetrics.Proofs.Meter.Uses
import WindowedMetrics.Proofs.Registry.Edits

namespace WindowedMetrics

namespace Registry

/-- Meters are put to use at one wall time, which brings each the amounts
`brought`.  Only what is `closing` closes meters or takes entries out. -/
structure Used (r : Registry) (now : Int) (brought : Nat → List Float)
    (closing : Prop) (next : Registry) : Prop where
  config_eq : next.config = r.config
  filters_eq : next.filters = r.filters
  size_eq : next.made.size = r.made.size
  entries_sublist : next.entries.Sublist r.entries
  entries_eq : ¬ closing → next.entries = r.entries
  meters : ∀ reference (after : Meter), next.made[reference]? = some after →
    ∃ meter : Meter, r.made[reference]? = some meter ∧
      meter.Used now (brought reference) closing after

/-- Uses that bring no meter an amount. -/
abbrev Served (r : Registry) (now : Int) (closing : Prop) (next : Registry) :
    Prop :=
  r.Used now (fun _ => []) closing next

namespace Used

variable {r next last : Registry} {now : Int} {brought : Nat → List Float}
  {closing : Prop}

theorem refl (r : Registry) (now : Int) (closing : Prop) :
    r.Served now closing r :=
  ⟨rfl, rfl, rfl, List.Sublist.refl _, fun _ => rfl,
    fun _ meter hmeter => ⟨meter, hmeter, .refl meter now closing⟩⟩

/-- The index of children and the closing of the registry do not matter. -/
theorem congr (h : r.Used now brought closing next)
    (hconfig : last.config = next.config)
    (hfilters : last.filters = next.filters)
    (hmade : last.made = next.made) (hentries : last.entries = next.entries) :
    r.Used now brought closing last := by
  refine ⟨hconfig.trans h.config_eq, hfilters.trans h.filters_eq, ?_, ?_, ?_,
    ?_⟩
  · rw [hmade]
    exact h.size_eq
  · rw [hentries]
    exact h.entries_sublist
  · intro hopen
    exact hentries.trans (h.entries_eq hopen)
  · rw [hmade]
    exact h.meters

/-- What comes after the amounts brings no more of them. -/
theorem trans (h : r.Used now brought closing next)
    (hlast : next.Served now closing last) :
    r.Used now brought closing last := by
  refine ⟨hlast.config_eq.trans h.config_eq,
    hlast.filters_eq.trans h.filters_eq, hlast.size_eq.trans h.size_eq,
    hlast.entries_sublist.trans h.entries_sublist, ?_, ?_⟩
  · intro hopen
    exact (hlast.entries_eq hopen).trans (h.entries_eq hopen)
  · intro reference after hafter
    obtain ⟨middle, hmiddle, hused⟩ := hlast.meters reference after hafter
    obtain ⟨meter, hmeter, hbefore⟩ := h.meters reference middle hmiddle
    have hboth := hbefore.trans hused
    rw [List.append_nil] at hboth
    exact ⟨meter, hmeter, hboth⟩

/-- Every meter that was made is still there. -/
theorem exists_meter (h : r.Used now brought closing next) {reference : Nat}
    {meter : Meter} (hmeter : r.made[reference]? = some meter) :
    ∃ after, next.made[reference]? = some after ∧
      meter.Used now (brought reference) closing after := by
  obtain ⟨hlt, _⟩ := Array.getElem?_eq_some_iff.mp hmeter
  rw [← h.size_eq] at hlt
  have hafter := Array.getElem?_eq_getElem hlt
  obtain ⟨before, hbefore, hused⟩ := h.meters reference _ hafter
  cases hmeter.symm.trans hbefore
  exact ⟨_, hafter, hused⟩

theorem wellFormed (h : r.Used now brought closing next)
    (hr : r.WellFormed) : next.WellFormed := by
  constructor
  · intro e he
    rw [h.size_eq]
    exact hr.lt_size e (h.entries_sublist.subset he)
  · exact hr.references_nodup.sublist (h.entries_sublist.map Prod.snd)

/-! ### One meter -/

/-- A meter that was put to use is put back. -/
theorem put {reference : Nat} {meter after : Meter} {amounts : List Float}
    (hmeter : r.made[reference]? = some meter)
    (hused : meter.Used now amounts closing after) :
    r.Used now (fun other => if other = reference then amounts else [])
      closing (r.put (.made reference) after) := by
  refine ⟨rfl, rfl, by simp [Registry.put], List.Sublist.refl _,
    fun _ => rfl, ?_⟩
  intro other found hfound
  simp only [Registry.put, Array.getElem?_setIfInBounds] at hfound
  by_cases heq : reference = other
  · subst heq
    obtain ⟨hlt, _⟩ := Array.getElem?_eq_some_iff.mp hmeter
    rw [if_pos rfl, if_pos hlt] at hfound
    cases hfound
    rw [if_pos rfl]
    exact ⟨meter, hmeter, hused⟩
  · rw [if_neg heq] at hfound
    rw [if_neg (Ne.symm heq)]
    exact ⟨found, hfound, .refl found now closing⟩

/-- A refused meter has no place to be put back to. -/
theorem put_handle {handle : MeterHandle} {meter after : Meter}
    (hmeter : r.meterOf? handle = some meter)
    (hused : meter.Used now [] closing after) :
    r.Served now closing (r.put handle after) := by
  cases handle with
  | refused own => exact refl r now closing
  | made reference =>
      have hput := put hmeter hused
      simp only [ite_self] at hput
      exact hput

/-! ### Several meters -/

theorem modify (reference : Nat) {op : Meter → Meter}
    (hop : ∀ meter : Meter, meter.Used now [] closing (op meter)) :
    r.Served now closing { r with made := r.made.modify reference op } := by
  refine ⟨rfl, rfl, by simp, List.Sublist.refl _, fun _ => rfl, ?_⟩
  intro other after hafter
  simp only [Array.getElem?_modify] at hafter
  split at hafter
  · obtain ⟨meter, hmeter, rfl⟩ := Option.map_eq_some_iff.mp hafter
    exact ⟨meter, hmeter, hop meter⟩
  · exact ⟨after, hafter, .refl after now closing⟩

theorem updateAll (r : Registry) (references : List Nat) {op : Meter → Meter}
    (hop : ∀ meter : Meter, meter.Used now [] closing (op meter)) :
    r.Served now closing (r.updateAll references op) := by
  induction references generalizing r with
  | nil => exact refl r now closing
  | cons reference rest ih => exact (modify reference hop).trans (ih _)

theorem rolloverAll (r : Registry) (m : Moment) (closing : Prop) :
    r.Served m.now closing (r.rolloverAll m) :=
  updateAll r r.references fun meter => Meter.Used.rollover meter m closing

theorem closeAll (r : Registry) (m : Moment) (hclosing : closing) :
    r.Served m.now closing (r.closeAll m) :=
  updateAll r r.references fun meter =>
    Meter.Used.close meter m closing hclosing

/-! ### Removals -/

section Removing

variable {around : Surroundings} (haround : ∀ used, (around used).now = now)
  (hclosing : closing)

include haround hclosing

theorem takeOut (r : Registry) (key : MeterKey) (kept : List Meter) :
    r.Served now closing (r.takeOut key kept around).value.2 := by
  unfold Registry.takeOut
  split
  · rename_i reference meter _ _
    have hentries : (r.entries.filter fun e =>
        !decide (e.1 = key)).Sublist r.entries := List.filter_sublist
    have hshorter : r.Served now closing { r with
        entries := r.entries.filter fun e => !decide (e.1 = key) } :=
      ⟨rfl, rfl, rfl, hentries, fun hopen => absurd hclosing hopen,
        fun _ meter hmeter => ⟨meter, hmeter, .refl meter now closing⟩⟩
    apply hshorter.trans
    apply updateAll
    intro meter
    rw [← haround (kept ++ r.meters)]
    exact Meter.Used.close meter _ closing hclosing
  · exact refl r now closing

theorem takeOutAll (r : Registry) (keys : List MeterKey)
    (kept : List Meter) :
    r.Served now closing (r.takeOutAll keys kept around).value := by
  induction keys generalizing r with
  | nil => exact refl r now closing
  | cons key rest ih =>
      rw [takeOutAll_cons]
      exact (takeOut haround hclosing r key kept).trans (ih _)

theorem remove (r : Registry) (key : MeterKey) :
    r.Served now closing (r.remove key around).value.2 := by
  unfold Registry.remove
  split
  · exact refl r now closing
  · rename_i meter _
    have hout := takeOut haround hclosing r key []
    simp only
    generalize (r.takeOut key [] around).value.2 = left at hout ⊢
    have hleft : r.Served now closing { left with
        children := (((left.forgetChild meter key).without
          key).takeDescendants [key]
            ((left.forgetChild meter key).childrenOf key)).2 } :=
      hout.congr rfl rfl rfl rfl
    exact hleft.trans (takeOutAll haround hclosing _ _ _)

end Removing

theorem clear (r : Registry) (m : Moment) (hclosing : closing) :
    r.Served m.now closing (r.clear m).value := by
  have hclosed := closeAll r m hclosing
  exact ⟨hclosed.config_eq, hclosed.filters_eq, hclosed.size_eq,
    List.nil_sublist _, fun hopen => absurd hclosing hopen, hclosed.meters⟩

/-! ### Exports -/

theorem convertHandles (c : Conversion) (r : Registry) (m : Moment)
    (handles : List MeterHandle) (closing : Prop) :
    r.Served m.now closing (convertHandles c r m handles).2 := by
  induction handles generalizing r with
  | nil => exact refl r m.now closing
  | cons handle rest ih =>
      unfold WindowedMetrics.convertHandles
      cases hmeter : r.meterOf? handle with
      | none => exact ih r
      | some meter =>
          exact (put_handle hmeter (.points meter m closing c)).trans (ih _)

variable (exporter : ExportSettings)

theorem batch (r : Registry) (m : Moment) (closing : Prop) :
    r.Served m.now closing (exporter.batch r m).2 :=
  convertHandles _ r m _ closing

theorem publish (r : Registry) (m : Moment)
    (sink : Batch → Except SinkError Unit) (closing : Prop) :
    r.Served m.now closing (exporter.publish r m sink).value.2 := by
  have hbatch := batch exporter r m closing
  unfold ExportSettings.publish
  simp only
  split
  · exact hbatch
  · split <;> exact hbatch

theorem wake (r : Registry) (m : Moment) (closing : Prop) :
    r.Served m.now closing (exporter.wake r m).2 := by
  unfold ExportSettings.wake
  simp only
  split
  · exact (rolloverAll r m closing).trans (publish exporter _ m _ closing)
  · exact publish exporter r m _ closing

theorem close (r : Registry) (now : Int) (closing : Prop) :
    r.Served now closing r.close.value := by
  unfold Registry.close
  split
  · exact refl r now closing
  · exact (refl r now closing).congr rfl rfl rfl rfl

theorem shutdown (r : Registry) (m : Moment) (hclosing : closing) :
    r.Served m.now closing (exporter.shutdown r m).2 := by
  have hclosed := (close r m.now closing).trans (closeAll _ m hclosing)
  exact hclosed.trans
    (publish exporter _ m ExportSettings.acceptAll closing)

theorem runPublisher (r : Registry) (m : Moment) (wakes : Nat)
    (hclosing : closing) :
    r.Served m.now closing (exporter.runPublisher r m wakes).2 := by
  induction wakes generalizing r with
  | zero => exact shutdown exporter r m hclosing
  | succ wakes ih => exact (wake exporter r m closing).trans (ih _)

end Used

end Registry

end WindowedMetrics
