/-
What the operations of a registry do to its entries.  A registration leaves
the entries alone or enters one meter, and taking meters out leaves the rest
as it is.
-/
import WindowedMetrics.Proofs.Registry.Index
import WindowedMetrics.Registry.Basic

namespace WindowedMetrics

/-! ### Filters that remember -/

theorem Filter.map_judge (filter : Filter) (id : Id) :
    (filter.judge id).value.2.map = filter.map := by
  cases filter with
  | limitTagValues limit => rfl
  | _ => rfl

/-- What filters remember of their verdicts does not change what they map. -/
theorem mapByAll_admitByAll (filters : List Filter) (id : Id) :
    mapByAll (admitByAll filters id).value.2 = mapByAll filters := by
  induction filters with
  | nil => rfl
  | cons filter rest ih =>
      have hfilter := filter.map_judge id
      funext other
      have hrest : ∀ mapped, mapByAll (admitByAll rest id).value.2 mapped =
          mapByAll rest mapped := fun mapped => congrFun ih mapped
      simp only [mapByAll] at hrest
      simp only [admitByAll]
      cases (filter.judge id).value.1 with
      | accept => simp only [mapByAll, List.foldl_cons, hfilter]
      | deny => simp only [mapByAll, List.foldl_cons, hfilter]
      | neutral =>
          simp only [mapByAll, List.foldl_cons, hfilter]
          exact hrest _

theorem Filter.adjust_judge (filter : Filter) (id : Id) :
    (filter.judge id).value.2.adjust = filter.adjust := by
  cases filter with
  | limitTagValues limit => rfl
  | _ => rfl

/-- Nor does it change what they adjust. -/
theorem adjustByAll_admitByAll (filters : List Filter) (asked id : Id)
    (config : DistributionSettings) :
    adjustByAll (admitByAll filters asked).value.2 id config =
      adjustByAll filters id config := by
  induction filters generalizing config with
  | nil => rfl
  | cons filter rest ih =>
      have hfilter := filter.adjust_judge asked
      simp only [adjustByAll] at ih
      simp only [admitByAll]
      cases (filter.judge asked).value.1 with
      | accept => simp only [adjustByAll, List.foldl_cons, hfilter]
      | deny => simp only [adjustByAll, List.foldl_cons, hfilter]
      | neutral =>
          simp only [adjustByAll, List.foldl_cons, hfilter]
          exact ih _

/-! ### Factories -/

namespace Blueprint

/-- A factory makes a meter of the final identity, with an instrument built
from the settings that were completed. -/
theorem buildTyped_eq_ok {b : Blueprint Source} {id : Id}
    {config : DistributionSettings} {c : RegistrySettings} {now : Int}
    {meter : Meter} (h : b.buildTyped id config c now = .ok meter) :
    ∃ instrument, b.instrument (config.merge b.defaultRange) c now =
        .ok instrument ∧ meter = ⟨id, now, instrument⟩ := by
  have hbuild : b.build id (config.merge b.defaultRange) c now = .ok meter := by
    cases b with
    | longTaskTimer =>
        simp only [buildTyped] at h
        cases hcheck : config.check with
        | error cause => simp [hcheck] at h
        | ok u => simpa only [hcheck] using h
    | _ => exact h
  simp only [build] at hbuild
  cases hinstrument : b.instrument (config.merge b.defaultRange) c now with
  | error cause => simp [hinstrument] at hbuild
  | ok instrument =>
      simp only [hinstrument, Except.ok.injEq] at hbuild
      exact ⟨instrument, rfl, hbuild.symm⟩

end Blueprint

namespace Registry

/-! ### References -/

/-- Entries refer to different meters that were made. -/
structure WellFormed (r : Registry) : Prop where
  lt_size : ∀ e ∈ r.entries, e.2 < r.made.size
  references_nodup : r.references.Nodup

theorem wellFormed_create (config : RegistrySettings) :
    (create config).WellFormed :=
  ⟨by simp [create], by simp [create, references]⟩

theorem mem_entries_of_find? {r : Registry} {key : MeterKey}
    {reference : Nat} (h : r.find? key = some reference) :
    (key, reference) ∈ r.entries := by
  obtain ⟨before, after, hentries, _⟩ := List.lookup_eq_some_iff.mp h
  rw [hentries]
  simp

theorem WellFormed.get?_eq_none {r : Registry} (hr : r.WellFormed)
    {key : MeterKey} (h : r.get? key = none) : r.find? key = none := by
  cases hfind : r.find? key with
  | none => rfl
  | some reference =>
      have hlt := hr.lt_size _ (mem_entries_of_find? hfind)
      simp [get?, hfind, hlt] at h

theorem size_updateAll (r : Registry) (references : List Nat)
    (op : Meter → Meter) :
    (r.updateAll references op).made.size = r.made.size := by
  simp only [updateAll]
  induction references generalizing r with
  | nil => rfl
  | cons reference rest ih =>
      have hrest := ih { r with made := r.made.modify reference op }
      simpa using hrest

/-- What an operation keeps of a meter it keeps of all meters. -/
theorem map_modify_of_kept {B : Type} {f : Meter → B} {op : Meter → Meter}
    (hop : ∀ meter, f (op meter) = f meter) (made : Array Meter)
    (reference : Nat) : (made.modify reference op).map f = made.map f := by
  apply Array.ext
  · simp
  · intro i _ _
    simp only [Array.getElem_map, Array.getElem_modify]
    by_cases heq : reference = i
    · simp [heq, hop]
    · simp [heq]

theorem map_id_updateAll (r : Registry) (references : List Nat)
    {op : Meter → Meter} (hop : ∀ meter, (op meter).id = meter.id) :
    (r.updateAll references op).made.map Meter.id = r.made.map Meter.id := by
  simp only [updateAll]
  generalize r.made = made
  induction references generalizing made with
  | nil => rfl
  | cons reference rest ih =>
      rw [List.foldl_cons, ih, map_modify_of_kept hop]

/-! ### Registering -/

/-- What a registration can do to a registry: change no more than what the
filters remember, or enter a meter under an identity that is new. -/
inductive Registered (r : Registry) (id : Id) (factory : MeterFactory)
    (now : Int) : Registry → Prop
  | same (filters : List Filter)
      (hmap : mapByAll filters = mapByAll r.filters) :
      Registered r id factory now { r with filters := filters }
  | entered (filters : List Filter) (meter : Meter)
      (config : DistributionSettings)
      (hmap : mapByAll filters = mapByAll r.filters)
      (hnew : r.find? (mapByAll r.filters id).key = none)
      (hmade : factory (mapByAll r.filters id) config r.config now =
        .ok meter) :
      Registered r id factory now
        (enter { r with filters := filters } (mapByAll r.filters id) meter)

theorem registered_register {r : Registry} (hr : r.WellFormed) (id : Id)
    (own : DistributionSettings) (factory : MeterFactory) (now : Int) :
    r.Registered id factory now (r.register id own factory now).value.2 := by
  have hself : r.Registered id factory now r := .same r.filters rfl
  unfold register
  simp only
  split
  · exact hself
  · split
    · split <;> exact hself
    · rename_i hnone
      have hnew : r.find? (mapByAll r.filters id).key = none := by
        cases hget : r.get? (mapByAll r.filters id).key with
        | none => exact hr.get?_eq_none hget
        | some meter =>
            cases hfind : r.find? (mapByAll r.filters id).key with
            | none => rfl
            | some reference =>
                exact absurd hget (hnone reference meter hfind)
      have hmap := mapByAll_admitByAll r.filters (mapByAll r.filters id)
      split
      · split
        · exact .same _ hmap
        · rename_i meter hmade
          exact .entered _ meter _ hmap hnew hmade
      · exact .same _ hmap

/-- A typed registration changes the registry as the plain one does. -/
theorem registry_add (r : Registry) (blueprint : Blueprint Source) (id : Id)
    (own : DistributionSettings) (now : Int) :
    (r.add blueprint id own now).value.2 =
      (r.register (id.withKind blueprint.kind) own blueprint.buildTyped
        now).value.2 := by
  unfold add
  simp only
  split
  · split <;> rfl
  · rfl

/-- A typed registration is a registration of the blueprint's kind. -/
theorem registered_add {r : Registry} (hr : r.WellFormed)
    (blueprint : Blueprint Source) (id : Id) (own : DistributionSettings)
    (now : Int) :
    r.Registered (id.withKind blueprint.kind) blueprint.buildTyped now
      (r.add blueprint id own now).value.2 := by
  rw [registry_add]
  exact registered_register hr (id.withKind blueprint.kind) own
    blueprint.buildTyped now

theorem WellFormed.registered {r next : Registry} (hr : r.WellFormed)
    {id : Id} {factory : MeterFactory} {now : Int}
    (h : r.Registered id factory now next) : next.WellFormed := by
  cases h with
  | same filters hmap => exact ⟨hr.lt_size, hr.references_nodup⟩
  | entered filters meter config hmap hnew hmade =>
      constructor
      · intro e he
        simp only [enter, Array.size_push]
        rcases List.mem_append.mp he with hold | hentry
        · have := hr.lt_size e hold
          omega
        · simp only [List.mem_singleton] at hentry
          subst hentry
          exact Nat.lt_succ_self _
      · simp only [references, enter, List.map_append, List.map_cons,
          List.map_nil]
        rw [List.nodup_append]
        refine ⟨hr.references_nodup, by simp, ?_⟩
        intro reference hmem other hother
        simp only [List.mem_singleton] at hother
        obtain ⟨e, he, rfl⟩ := List.mem_map.mp hmem
        have := hr.lt_size e he
        omega

theorem find?_enter (r : Registry) (id : Id) (meter : Meter)
    (hnew : r.find? id.key = none) (key : MeterKey) :
    (r.enter id meter).find? key =
      if key = id.key then some r.made.size else r.find? key := by
  simp only [find?, enter, List.lookup_append] at hnew ⊢
  by_cases heq : key = id.key
  · subst heq
    simp [hnew]
  · have hne : (key == id.key) = false := by simpa using heq
    simp [heq, List.lookup_cons, hne]

/-! ### Taking meters out -/

/-- Another registry that is the same except for some entries and the states
of its meters. -/
structure Keeps (r next : Registry) : Prop where
  filters_eq : next.filters = r.filters
  children_eq : next.children = r.children
  ids_eq : next.made.map Meter.id = r.made.map Meter.id
  wellFormed : next.WellFormed

theorem takeOut_keeps {r : Registry} (hr : r.WellFormed) (key : MeterKey)
    (kept : List Meter) (around : Surroundings) :
    r.Keeps (r.takeOut key kept around).value.2 := by
  unfold takeOut
  split
  · refine ⟨rfl, rfl, map_id_updateAll _ _ fun meter => rfl, ?_, ?_⟩
    · intro e he
      rw [size_updateAll]
      exact hr.lt_size e (List.mem_filter.mp he).1
    · have hsublist : (r.entries.filter fun e => !decide (e.1 = key)).Sublist
          r.entries := List.filter_sublist
      exact hr.references_nodup.sublist (hsublist.map Prod.snd)
  · exact ⟨rfl, rfl, rfl, hr⟩

/-- What was reported before comes first. -/
theorem foldl_takeOut (keys : List MeterKey) (kept : List Meter)
    (around : Surroundings) (done : Logged Registry) :
    keys.foldl (fun done key =>
      let out := done.value.takeOut key kept around
      ⟨out.value.2, done.events ++ out.events⟩) done =
      let later := done.value.takeOutAll keys kept around
      ⟨later.value, done.events ++ later.events⟩ := by
  induction keys generalizing done with
  | nil => simp [takeOutAll]
  | cons key rest ih =>
      have hlater := ih ⟨(done.value.takeOut key kept around).value.2,
        (done.value.takeOut key kept around).events⟩
      simp only [takeOutAll, List.foldl_cons, List.nil_append] at hlater ⊢
      rw [ih, hlater]
      simp only [takeOutAll, List.append_assoc]

/-- Meters are taken out in turn, and what they report adds up. -/
theorem takeOutAll_cons_eq (r : Registry) (key : MeterKey)
    (keys : List MeterKey) (kept : List Meter) (around : Surroundings) :
    r.takeOutAll (key :: keys) kept around =
      let out := r.takeOut key kept around
      let later := out.value.2.takeOutAll keys kept around
      ⟨later.value, out.events ++ later.events⟩ := by
  simp only [takeOutAll, List.foldl_cons, List.nil_append]
  exact foldl_takeOut keys kept around
    ⟨(r.takeOut key kept around).value.2, (r.takeOut key kept around).events⟩

theorem takeOutAll_cons (r : Registry) (key : MeterKey)
    (keys : List MeterKey) (kept : List Meter) (around : Surroundings) :
    (r.takeOutAll (key :: keys) kept around).value =
      ((r.takeOut key kept around).value.2.takeOutAll keys kept
        around).value := by
  rw [takeOutAll_cons_eq]

/-! ### Removing -/

/-- The parent of a registered meter under the present filters. -/
def presentParent? (r : Registry) (key : MeterKey) : Option MeterKey :=
  (r.get? key).bind fun meter =>
    meter.id.parent.map fun parent => (mapByAll r.filters parent).key

/-- What a removal does: it takes out all that the index reaches from the
removed meter, with the entries of the index, and it drops the removed meter
as a child of its present parent. -/
structure Removed (r : Registry) (key : MeterKey) (next : Registry) :
    Prop where
  filters_eq : next.filters = r.filters
  ids_eq : next.made.map Meter.id = r.made.map Meter.id
  wellFormed : next.WellFormed
  find?_of_reaches : ∀ other, r.children.Reaches key other →
    next.find? other = none
  find?_of_not_reaches : ∀ other, ¬ r.children.Reaches key other →
    next.find? other = r.find? other
  lists_iff : ∀ parent child, next.children.Lists parent child ↔
    ¬ r.children.Reaches key parent ∧ r.children.Lists parent child ∧
      ¬ (r.presentParent? key = some parent ∧ child = key)

theorem lists_forgetChild {r : Registry} {key : MeterKey} {meter : Meter}
    (hget : r.get? key = some meter) (next : Registry)
    (hfilters : next.filters = r.filters)
    (hchildren : next.children = r.children) (parent child : MeterKey) :
    (next.forgetChild meter key).Lists parent child ↔
      r.children.Lists parent child ∧
        ¬ (r.presentParent? key = some parent ∧ child = key) := by
  simp only [forgetChild, presentParent?, hget, Option.bind_some]
  cases hparent : meter.id.parent with
  | none => simp [hchildren]
  | some own =>
      simp only [ChildIndex.lists_remove, hfilters, hchildren,
        Option.map_some, Option.some.injEq]
      rw [eq_comm (a := parent)]

/-- Pairs that lead back to the start do not matter for what is reached. -/
theorem reaches_forgetChild {r : Registry} {key : MeterKey} {meter : Meter}
    (hget : r.get? key = some meter) (next : Registry)
    (hfilters : next.filters = r.filters)
    (hchildren : next.children = r.children) (other : MeterKey) :
    (next.forgetChild meter key).Reaches key other ↔
      r.children.Reaches key other := by
  have hlists := lists_forgetChild hget next hfilters hchildren
  constructor
  · intro hreach
    exact hreach.mono fun parent child h => ((hlists parent child).mp h).1
  · intro hreach
    induction hreach with
    | refl => exact Relation.ReflTransGen.refl
    | @tail parent child _ hstep ih =>
        by_cases hback : child = key
        · subst hback
          exact Relation.ReflTransGen.refl
        · refine ih.tail ((hlists parent child).mpr ⟨hstep, ?_⟩)
          exact fun hdropped => hback hdropped.2

/-- Without a meter under the key, nothing happens. -/
theorem remove_of_find?_eq_none {r : Registry} {key : MeterKey}
    (hkey : r.find? key = none) (around : Surroundings) :
    (r.remove key around).value.2 = r := by
  have hget : r.get? key = none := by simp [get?, hkey]
  simp only [remove, hget]

end Registry

end WindowedMetrics
