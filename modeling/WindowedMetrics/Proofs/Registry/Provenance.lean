/-
Where data points come from.  Whatever a registry goes through, its meters
were built from settings and put to work since, and every point of an export
is one that such a meter owed at some moment.
-/
import WindowedMetrics.Proofs.Export.Grouping
import WindowedMetrics.Proofs.Meter.Published
import WindowedMetrics.Proofs.Registry.Edits

namespace WindowedMetrics

/-- A meter that was built from some settings or measures nothing, whatever
was done with it since. -/
def Meter.IsBuilt (meter : Meter) : Prop := ∃ own, meter.BuiltFrom own

namespace Meter.IsBuilt

variable {meter next : Meter}

theorem idle (id : Id) : (Meter.idle id).IsBuilt := ⟨.empty, .idle rfl⟩

theorem commanded (h : meter.IsBuilt) {m : Moment} {c : MeterCommand}
    {answer : Answer}
    (hperform : Session.performOn m meter c = some (answer, next)) :
    next.IsBuilt := by
  obtain ⟨own, hown⟩ := h
  exact ⟨own, hown.commanded hperform⟩

theorem started (h : meter.IsBuilt) {clock : Clock}
    {sample : Option TaskSample}
    (hstart : meter.startTask? clock = some (sample, next)) :
    next.IsBuilt := by
  obtain ⟨own, hown⟩ := h
  exact ⟨own, hown.started hstart⟩

theorem stopped (h : meter.IsBuilt) (clock : Clock) (sample : TaskSample) :
    (meter.stopTask clock sample).2.IsBuilt := by
  obtain ⟨own, hown⟩ := h
  exact ⟨own, hown.stopped⟩

theorem converted (h : meter.IsBuilt) (c : Conversion) (m : Moment) :
    (c.points meter m).2.IsBuilt := by
  obtain ⟨own, hown⟩ := h
  exact ⟨own, hown.converted⟩

theorem rollover (h : meter.IsBuilt) (m : Moment) :
    (meter.rollover m).IsBuilt :=
  h.commanded (show Session.performOn m meter .rollover = some _ from rfl)

theorem close (h : meter.IsBuilt) (m : Moment) : (meter.close m).IsBuilt :=
  h.commanded (show Session.performOn m meter .close = some _ from rfl)

end Meter.IsBuilt

/-- Both factories of a blueprint build. -/
theorem Blueprint.isBuilt_build {b : Blueprint Source} {id : Id}
    {own : DistributionSettings} {c : RegistrySettings} {now : Int}
    {meter : Meter} (h : b.build id own c now = .ok meter) : meter.IsBuilt :=
  ⟨own, .built h⟩

theorem Blueprint.isBuilt_buildTyped {b : Blueprint Source} {id : Id}
    {own : DistributionSettings} {c : RegistrySettings} {now : Int}
    {meter : Meter} (h : b.buildTyped id own c now = .ok meter) :
    meter.IsBuilt := by
  obtain ⟨instrument, hinstrument, rfl⟩ := buildTyped_eq_ok h
  have hbuild : b.build id (own.merge b.defaultRange) c now =
      .ok ⟨id, now, instrument⟩ := by
    simp only [build, hinstrument]
  exact isBuilt_build hbuild

/-- A handle of a meter that is refused holds the meter itself. -/
def MeterHandle.IsBuilt : MeterHandle → Prop
  | .made _ => True
  | .refused meter => meter.IsBuilt

/-- A point that a built meter owed at some moment. -/
def Point.IsReported (p : Point) : Prop :=
  ∃ (c : Conversion) (meter : Meter) (m : Moment), meter.IsBuilt ∧
    ∃ named ∈ (c.points meter m).1, named.point = p

/-- All points of a metric are owed. -/
def Metric.IsReported (g : Metric) : Prop := ∀ p ∈ g.points, p.IsReported

/-- All metrics of a batch are reported. -/
def Batch.IsReported (b : Batch) : Prop := ∀ g ∈ b.metrics, g.IsReported

theorem isReported_groupPoints {points : List NamedPoint}
    (h : ∀ named ∈ points, named.point.IsReported) :
    ∀ g ∈ groupPoints points, g.IsReported := by
  intro g hg p hp
  rw [points_of_mem_groupPoints points hg] at hp
  obtain ⟨named, hnamed, rfl⟩ := List.mem_map.mp hp
  exact h named (List.mem_filter.mp hnamed).1

/-- The order of metrics and points does not matter. -/
theorem Batch.IsReported.sorted {b : Batch} (h : b.IsReported) :
    b.sorted.IsReported := by
  intro g hg p hp
  obtain ⟨unsorted, hunsorted, rfl⟩ :=
    List.mem_map.mp (List.mem_mergeSort.mp hg)
  exact h unsorted hunsorted p (List.mem_mergeSort.mp hp)

namespace Registry

/-- All meters that were ever made are built. -/
def AllBuilt (r : Registry) : Prop := ∀ meter ∈ r.made, meter.IsBuilt

theorem allBuilt_create (config : RegistrySettings) :
    (create config).AllBuilt := by
  intro meter hmeter
  cases hmeter.val

namespace AllBuilt

variable {r next : Registry}

/-- Only the made meters matter. -/
theorem congr (h : r.AllBuilt) (hmade : next.made = r.made) :
    next.AllBuilt := by
  rw [AllBuilt, hmade]
  exact h

theorem meterOf? (h : r.AllBuilt) {handle : MeterHandle}
    (hhandle : handle.IsBuilt) {meter : Meter}
    (hmeter : r.meterOf? handle = some meter) : meter.IsBuilt := by
  cases handle with
  | made reference => exact h meter (Array.mem_of_getElem? hmeter)
  | refused own =>
      cases hmeter
      exact hhandle

theorem put (h : r.AllBuilt) (handle : MeterHandle) {meter : Meter}
    (hmeter : meter.IsBuilt) : (r.put handle meter).AllBuilt := by
  cases handle with
  | made reference =>
      intro other hother
      rcases Array.mem_or_eq_of_mem_setIfInBounds hother with hold | rfl
      · exact h other hold
      · exact hmeter
  | refused own => exact h

theorem updateAll (h : r.AllBuilt) (references : List Nat)
    {op : Meter → Meter}
    (hop : ∀ meter : Meter, meter.IsBuilt → (op meter).IsBuilt) :
    (r.updateAll references op).AllBuilt := by
  induction references generalizing r with
  | nil => exact h
  | cons reference rest ih =>
      have hfirst : Registry.AllBuilt
          { r with made := r.made.modify reference op } := by
        intro meter hmeter
        obtain ⟨i, hi, rfl⟩ := Array.mem_iff_getElem.mp hmeter
        rw [Array.getElem_modify]
        split
        · exact hop _ (h _ (Array.getElem_mem _))
        · exact h _ (Array.getElem_mem _)
      exact ih hfirst

theorem rolloverAll (h : r.AllBuilt) (m : Moment) :
    (r.rolloverAll m).AllBuilt :=
  h.updateAll r.references fun _ hmeter => hmeter.rollover m

theorem closeAll (h : r.AllBuilt) (m : Moment) : (r.closeAll m).AllBuilt :=
  h.updateAll r.references fun _ hmeter => hmeter.close m

theorem close (h : r.AllBuilt) : r.close.value.AllBuilt := by
  unfold Registry.close
  split <;> exact h

/-! ### Removals -/

variable {around : Surroundings}

theorem takeOut (h : r.AllBuilt) (key : MeterKey) (kept : List Meter) :
    (r.takeOut key kept around).value.2.AllBuilt := by
  unfold Registry.takeOut
  split
  · have hshorter : Registry.AllBuilt { r with
        entries := r.entries.filter fun e => !decide (e.1 = key) } := h
    exact hshorter.updateAll _ fun _ hmeter => hmeter.close _
  · exact h

theorem takeOutAll (h : r.AllBuilt) (keys : List MeterKey)
    (kept : List Meter) :
    (r.takeOutAll keys kept around).value.AllBuilt := by
  induction keys generalizing r with
  | nil => exact h
  | cons key rest ih =>
      rw [takeOutAll_cons]
      exact ih (h.takeOut key kept)

theorem remove (h : r.AllBuilt) (key : MeterKey) :
    (r.remove key around).value.2.AllBuilt := by
  unfold Registry.remove
  split
  · exact h
  · rename_i meter _
    have hout : (r.takeOut key [] around).value.2.AllBuilt := h.takeOut key []
    simp only
    generalize (r.takeOut key [] around).value.2 = left at hout ⊢
    have hleft : Registry.AllBuilt { left with
        children := (((left.forgetChild meter key).without
          key).takeDescendants [key]
            ((left.forgetChild meter key).childrenOf key)).2 } := hout
    exact hleft.takeOutAll _ _

theorem clear (h : r.AllBuilt) (m : Moment) : (r.clear m).value.AllBuilt :=
  (h.closeAll m).congr rfl

/-! ### Registrations -/

theorem registered (h : r.AllBuilt) {id : Id} {factory : MeterFactory}
    {now : Int} (hregistered : r.Registered id factory now next)
    (hfactory : ∀ final own config (meter : Meter),
      factory final own config now = .ok meter → meter.IsBuilt) :
    next.AllBuilt := by
  cases hregistered with
  | same filters _ => exact h
  | entered filters meter config _ _ hmade =>
      intro other hother
      rcases Array.mem_push.mp hother with hold | rfl
      · exact h other hold
      · exact hfactory _ _ _ _ hmade

end AllBuilt

/-- A registration hands out a made meter or one that measures nothing. -/
theorem isBuilt_of_register {r : Registry} {id : Id}
    {own : DistributionSettings} {factory : MeterFactory} {now : Int}
    {handle : MeterHandle}
    (h : (r.register id own factory now).value.1 = .ok handle) :
    handle.IsBuilt := by
  unfold register at h
  simp only at h
  split at h
  · cases h
    exact .idle id
  · split at h
    · split at h <;> cases h
      trivial
    · split at h
      · split at h <;> cases h
        trivial
      · cases h
        exact .idle _

theorem isBuilt_of_add {r : Registry} {b : Blueprint Source} {id : Id}
    {own : DistributionSettings} {now : Int} {handle : MeterHandle}
    (h : (r.add b id own now).value.1 = .ok handle) : handle.IsBuilt := by
  unfold add at h
  simp only at h
  split at h
  · rename_i meter houtcome
    split at h <;> cases h
    exact isBuilt_of_register houtcome
  · exact isBuilt_of_register h

/-! ### Exports -/

namespace AllBuilt

variable {r : Registry}

theorem convertHandles (h : r.AllBuilt) (c : Conversion) (m : Moment)
    {handles : List MeterHandle}
    (hhandles : ∀ handle ∈ handles, handle.IsBuilt) :
    (∀ named ∈ (convertHandles c r m handles).1, named.point.IsReported) ∧
      (WindowedMetrics.convertHandles c r m handles).2.AllBuilt := by
  induction handles generalizing r with
  | nil => exact ⟨by simp [WindowedMetrics.convertHandles], h⟩
  | cons handle rest ih =>
      rw [List.forall_mem_cons] at hhandles
      unfold WindowedMetrics.convertHandles
      cases hmeter : r.meterOf? handle with
      | none => exact ih h hhandles.2
      | some meter =>
          have hbuilt := h.meterOf? hhandles.1 hmeter
          obtain ⟨hlater, hlast⟩ :=
            ih (h.put handle (hbuilt.converted c m)) hhandles.2
          refine ⟨?_, hlast⟩
          intro named hnamed
          rcases List.mem_append.mp hnamed with hfirst | hrest
          · exact ⟨c, meter, m, hbuilt, named, hfirst, rfl⟩
          · exact hlater named hrest

variable (exporter : ExportSettings)

theorem batch (h : r.AllBuilt) (m : Moment) :
    (exporter.batch r m).1.IsReported ∧ (exporter.batch r m).2.AllBuilt := by
  have hhandles : ∀ handle ∈ r.references.map MeterHandle.made,
      handle.IsBuilt := by
    intro handle hhandle
    obtain ⟨reference, _, rfl⟩ := List.mem_map.mp hhandle
    trivial
  obtain ⟨hpoints, hregistry⟩ :=
    h.convertHandles (exporter.conversion m.now) m hhandles
  exact ⟨isReported_groupPoints hpoints, hregistry⟩

theorem publish (h : r.AllBuilt) (m : Moment)
    (sink : Batch → Except SinkError Unit) :
    (∀ b ∈ (exporter.publish r m sink).value.1.sent, b.IsReported) ∧
      (exporter.publish r m sink).value.2.AllBuilt := by
  obtain ⟨hbatch, hregistry⟩ := h.batch exporter m
  unfold ExportSettings.publish
  simp only
  split
  · exact ⟨by simp, hregistry⟩
  · split <;> exact ⟨by simpa using hbatch, hregistry⟩

theorem wake (h : r.AllBuilt) (m : Moment) :
    (∀ b ∈ (exporter.wake r m).1, b.IsReported) ∧
      (exporter.wake r m).2.AllBuilt := by
  unfold ExportSettings.wake
  simp only
  split
  · exact (h.rolloverAll m).publish exporter m _
  · exact h.publish exporter m _

theorem shutdown (h : r.AllBuilt) (m : Moment) :
    (∀ b ∈ (exporter.shutdown r m).1, b.IsReported) ∧
      (exporter.shutdown r m).2.AllBuilt :=
  (h.close.closeAll m).publish exporter m ExportSettings.acceptAll

theorem runPublisher (h : r.AllBuilt) (m : Moment) (wakes : Nat) :
    (∀ b ∈ (exporter.runPublisher r m wakes).1, b.IsReported) ∧
      (exporter.runPublisher r m wakes).2.AllBuilt := by
  induction wakes generalizing r with
  | zero =>
      obtain ⟨hlast, hregistry⟩ := h.shutdown exporter m
      exact ⟨fun b hb => hlast b (Option.mem_toList.mp hb), hregistry⟩
  | succ wakes ih =>
      obtain ⟨hfirst, hwoken⟩ := h.wake exporter m
      obtain ⟨hlater, hregistry⟩ := ih hwoken
      refine ⟨?_, hregistry⟩
      intro b hb
      rcases List.mem_append.mp hb with hmem | hmem
      · exact hfirst b (Option.mem_toList.mp hmem)
      · exact hlater b hmem

end AllBuilt

end Registry

end WindowedMetrics
