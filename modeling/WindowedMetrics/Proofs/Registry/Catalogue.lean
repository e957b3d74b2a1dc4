/-
What is registered.  Each registered meter is at work, stands under its own
name and tags, and is of the kind that its identity names; no two share name
and tags.  So all ways to look meters up see one and the same set.
-/
import WindowedMetrics.Proofs.Registry.Uses
import Mathlib.Data.List.Basic

namespace WindowedMetrics

namespace Registry

theorem meters_eq (r : Registry) :
    r.meters = r.entries.filterMap fun e => r.made[e.2]? := by
  rw [Registry.meters, references, List.filterMap_map]
  rfl

theorem mem_entries_enter {r : Registry} {id : Id} {meter : Meter}
    {e : MeterKey × Nat} :
    e ∈ (r.enter id meter).entries ↔
      e ∈ r.entries ∨ e = (id.key, r.made.size) := by
  simp [enter]

/-- A meter that enters replaces none. -/
theorem made_enter_of_eq_some {r : Registry} {id : Id} {meter found : Meter}
    {reference : Nat} (hfound : r.made[reference]? = some found) :
    (r.enter id meter).made[reference]? = some found := by
  obtain ⟨hlt, _⟩ := Array.getElem?_eq_some_iff.mp hfound
  simp only [enter]
  rw [Array.getElem?_push, if_neg (Nat.ne_of_lt hlt)]
  exact hfound

/-! ### Keys -/

/-- A registry whose entries lead to meters of their own name and tags, each
different. -/
structure Keyed (r : Registry) : Prop where
  wellFormed : r.WellFormed
  keys_nodup : (r.entries.map Prod.fst).Nodup
  meters : ∀ e ∈ r.entries, ∃ meter, r.made[e.2]? = some meter ∧
    meter.id.key = e.1

theorem keyed_create (config : RegistrySettings) : (create config).Keyed :=
  ⟨wellFormed_create config, by simp [create], by simp [create]⟩

namespace Keyed

variable {r : Registry}

/-- The meters of some entries, one for each. -/
theorem map_key_filterMap (h : r.Keyed) {entries : List (MeterKey × Nat)}
    (hentries : ∀ e ∈ entries, e ∈ r.entries) :
    (entries.filterMap fun e => r.made[e.2]?).map
      (fun meter => meter.id.key) = entries.map Prod.fst := by
  induction entries with
  | nil => rfl
  | cons e rest ih =>
      obtain ⟨meter, hmeter, hkey⟩ := h.meters e (hentries e (by simp))
      rw [List.filterMap_cons, hmeter, List.map_cons, List.map_cons, hkey,
        ih fun other hother => hentries other (by simp [hother])]

theorem map_key_meters (h : r.Keyed) :
    (r.meters.map fun meter => meter.id.key) = r.entries.map Prod.fst := by
  rw [meters_eq]
  exact h.map_key_filterMap fun _ he => he

/-- Keys are found at their only entry. -/
theorem find?_eq_some_iff (h : r.Keyed) (key : MeterKey) (reference : Nat) :
    r.find? key = some reference ↔ (key, reference) ∈ r.entries := by
  constructor
  · exact mem_entries_of_find?
  · intro hmem
    have hnodup := h.keys_nodup
    obtain ⟨before, after, hentries⟩ := List.append_of_mem hmem
    rw [hentries, List.map_append, List.map_cons, List.nodup_append] at hnodup
    rw [Registry.find?, List.lookup_eq_some_iff]
    refine ⟨before, after, hentries, ?_⟩
    intro e he
    have hne := hnodup.2.2 e.1 (List.mem_map_of_mem he) key (by simp)
    simpa using Ne.symm hne

theorem get?_eq_some_iff (h : r.Keyed) (key : MeterKey) (meter : Meter) :
    r.get? key = some meter ↔ meter ∈ r.meters ∧ meter.id.key = key := by
  rw [meters_eq, List.mem_filterMap, Registry.get?, Option.bind_eq_some_iff]
  constructor
  · rintro ⟨reference, hfind, hmeter⟩
    have hmem := (h.find?_eq_some_iff key reference).mp hfind
    obtain ⟨found, hfound, hkey⟩ := h.meters _ hmem
    rw [hmeter] at hfound
    cases hfound
    exact ⟨⟨_, hmem, hmeter⟩, hkey⟩
  · rintro ⟨⟨e, he, hmeter⟩, rfl⟩
    obtain ⟨found, hfound, hkey⟩ := h.meters e he
    rw [hmeter] at hfound
    cases hfound
    rw [hkey]
    exact ⟨e.2, (h.find?_eq_some_iff e.1 e.2).mpr he, hmeter⟩

/-- Uses change no identity. -/
theorem used (h : r.Keyed) {now : Int} {brought : Nat → List Float}
    {closing : Prop} {next : Registry}
    (hused : r.Used now brought closing next) : next.Keyed := by
  refine ⟨hused.wellFormed h.wellFormed,
    h.keys_nodup.sublist (hused.entries_sublist.map Prod.fst), ?_⟩
  intro e he
  obtain ⟨meter, hmeter, hkey⟩ :=
    h.meters e (hused.entries_sublist.subset he)
  obtain ⟨after, hafter, hchange⟩ := hused.exists_meter hmeter
  exact ⟨after, hafter, by rw [hchange.id_eq, hkey]⟩

/-- A new meter of the identity that it is registered under enters under a new
key. -/
theorem registered (h : r.Keyed) {id : Id} {factory : MeterFactory}
    {now : Int} {next : Registry}
    (hregistered : r.Registered id factory now next)
    (hfactory : ∀ own (meter : Meter),
      factory (mapByAll r.filters id) own r.config now = .ok meter →
      meter.id = mapByAll r.filters id) : next.Keyed := by
  have hwellFormed := h.wellFormed.registered hregistered
  cases hregistered with
  | same filters hmap => exact ⟨hwellFormed, h.keys_nodup, h.meters⟩
  | entered filters meter own hmap hnew hmade =>
      refine ⟨hwellFormed, ?_, ?_⟩
      · simp only [enter, List.map_append, List.map_cons, List.map_nil]
        rw [List.nodup_append]
        refine ⟨h.keys_nodup, by simp, ?_⟩
        rintro key hkey other hother rfl
        obtain ⟨e, he, rfl⟩ := List.mem_map.mp hkey
        have hfound := (h.find?_eq_some_iff e.1 e.2).mpr he
        rw [List.mem_singleton.mp hother, hnew] at hfound
        cases hfound
      · intro e he
        rcases mem_entries_enter.mp he with hold | rfl
        · obtain ⟨found, hfound, hkey⟩ := h.meters e hold
          exact ⟨found, made_enter_of_eq_some hfound, hkey⟩
        · refine ⟨meter, by simp [enter], ?_⟩
          rw [hfactory own meter hmade]

end Keyed

/-! ### Meters at work -/

/-- A registry whose entries lead to meters of their own name and tags, at
work and of their own kind.  Custom meters do not tell whether they measure
anything. -/
structure Catalogued (r : Registry) : Prop where
  wellFormed : r.WellFormed
  keys_nodup : (r.entries.map Prod.fst).Nodup
  meters : ∀ e ∈ r.entries, ∃ meter, r.made[e.2]? = some meter ∧
    meter.id.key = e.1 ∧ meter.kind = meter.id.kind ∧
    meter.instrument.isIdle? ≠ some true

theorem catalogued_create (config : RegistrySettings) :
    (create config).Catalogued :=
  ⟨wellFormed_create config, by simp [create], by simp [create]⟩

/-! ### One set in all views -/

/-- The views of a registry that show what is registered: their number, the
meters by name and tags, and those of a name. -/
structure ViewsAgree (r : Registry) : Prop where
  size_eq : r.size = r.meters.length
  keys_nodup : (r.meters.map fun meter => meter.id.key).Nodup
  get?_iff : ∀ key meter,
    r.get? key = some meter ↔ meter ∈ r.meters ∧ meter.id.key = key
  named_eq : ∀ name,
    r.named name = r.meters.filter fun meter => decide (meter.id.name = name)

namespace Catalogued

variable {r : Registry}

theorem keyed (h : r.Catalogued) : r.Keyed := by
  refine ⟨h.wellFormed, h.keys_nodup, ?_⟩
  intro e he
  obtain ⟨meter, hmeter, hkey, _⟩ := h.meters e he
  exact ⟨meter, hmeter, hkey⟩

theorem viewsAgree (h : r.Catalogued) : r.ViewsAgree := by
  have hkeys := h.keyed.map_key_meters
  refine ⟨?_, ?_, h.keyed.get?_eq_some_iff, ?_⟩
  · have hlength := congrArg List.length hkeys
    rw [List.length_map, List.length_map] at hlength
    exact hlength.symm
  · rw [hkeys]
    exact h.keys_nodup
  · intro name
    rw [meters_eq, named, List.filter_filterMap, List.filterMap_filter]
    apply List.filterMap_congr
    intro e he
    obtain ⟨meter, hmeter, hkey, _⟩ := h.meters e he
    have hname : e.1.name = meter.id.name := by
      rw [← hkey]
      rfl
    by_cases heq : meter.id.name = name
    · simp [hmeter, hname, heq, Option.filter]
    · simp [hmeter, hname, heq, Option.filter]

/-! ### What keeps a registry catalogued -/

/-- A meter that measures stays one, of its kind. -/
theorem used (h : r.Catalogued) {now : Int} {brought : Nat → List Float}
    {closing : Prop} {next : Registry}
    (hused : r.Used now brought closing next) : next.Catalogued := by
  have hkeyed := h.keyed.used hused
  refine ⟨hkeyed.wellFormed, hkeyed.keys_nodup, ?_⟩
  intro e he
  obtain ⟨meter, hmeter, hkey, hkind, hidle⟩ :=
    h.meters e (hused.entries_sublist.subset he)
  obtain ⟨after, hafter, hchange⟩ := hused.exists_meter hmeter
  refine ⟨after, hafter, ?_, ?_, ?_⟩
  · rw [hchange.id_eq]
    exact hkey
  · rw [hchange.id_eq, hchange.kind_eq]
    exact hkind
  · rw [hchange.isIdle?_eq]
    exact hidle

/-- A new meter is what its identity says. -/
theorem registered (h : r.Catalogued) {id : Id} {factory : MeterFactory}
    {now : Int} {next : Registry} (hregistered : r.Registered id factory now
      next)
    (hfactory : ∀ own (meter : Meter),
      factory (mapByAll r.filters id) own r.config now = .ok meter →
      meter.id = mapByAll r.filters id ∧ meter.kind = meter.id.kind ∧
        meter.instrument.isIdle? ≠ some true) :
    next.Catalogued := by
  have hkeyed := h.keyed.registered hregistered fun own meter hmade =>
    (hfactory own meter hmade).1
  refine ⟨hkeyed.wellFormed, hkeyed.keys_nodup, ?_⟩
  cases hregistered with
  | same filters hmap => exact h.meters
  | entered filters meter own hmap hnew hmade =>
      obtain ⟨hid, hkind, hidle⟩ := hfactory own meter hmade
      intro e he
      rcases mem_entries_enter.mp he with hold | rfl
      · obtain ⟨found, hfound, hrest⟩ := h.meters e hold
        exact ⟨found, made_enter_of_eq_some hfound, hrest⟩
      · exact ⟨meter, by simp [enter], by rw [hid], hkind, hidle⟩

end Catalogued

end Registry

end WindowedMetrics
