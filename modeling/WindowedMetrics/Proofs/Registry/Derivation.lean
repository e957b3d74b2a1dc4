/-
Which meters a removal takes with it.  A history remembers the filters under
which every meter was registered, so what a meter derives from does not change
with the filters.  A removal takes out everything derived; what else it takes
out is reached through a pair that an earlier removal left in the index.
-/
import WindowedMetrics.Proofs.Registry.Sweep
import Mathlib.Data.List.Induction

namespace WindowedMetrics

/-- What can be done with a registry. -/
inductive RegistryEdit
  | addFilter (filter : Filter)
  | add (blueprint : Blueprint Source) (id : Id)
      (own : DistributionSettings) (now : Int)
  | remove (key : MeterKey) (around : Surroundings)
  | removeFiltered (id : Id) (around : Surroundings)
  | clear (m : Moment)

/-- The registry after an edit. -/
def Registry.edit (r : Registry) : RegistryEdit → Registry
  | .addFilter filter => (r.appendFilter filter).value
  | .add blueprint id own now => (r.add blueprint id own now).value.2
  | .remove key around => (r.remove key around).value.2
  | .removeFiltered id around => (r.removeFiltered id around).value.2
  | .clear m => (r.clear m).value

/-- A registry with the filters that were in force when its meters were made,
one chain for each reference. -/
structure RegistryHistory where
  registry : Registry
  chains : Array (List Filter)

namespace RegistryHistory

/-- A history goes on by one edit. -/
def next (h : RegistryHistory) (e : RegistryEdit) : RegistryHistory :=
  let registry := h.registry.edit e
  let chains :=
    if h.registry.made.size < registry.made.size then
      h.chains.push h.registry.filters
    else h.chains
  ⟨registry, chains⟩

/-- The history of a registry from its creation. -/
def of (config : RegistrySettings) (edits : List RegistryEdit) :
    RegistryHistory :=
  edits.foldl next ⟨Registry.create config, #[]⟩

theorem of_append_singleton (config : RegistrySettings)
    (edits : List RegistryEdit) (e : RegistryEdit) :
    of config (edits ++ [e]) = (of config edits).next e := by
  simp [of]

/-! ### Derivation -/

/-- The parent of a meter under the filters of its registration. -/
def parentKey? (h : RegistryHistory) (reference : Nat) : Option MeterKey :=
  (h.registry.made[reference]?).bind fun meter =>
    meter.id.parent.bind fun parent =>
      (h.chains[reference]?).map fun chain => (mapByAll chain parent).key

/-- A registered meter was associated with a parent when it was registered. -/
def DerivesFrom (h : RegistryHistory) (child parent : MeterKey) : Prop :=
  ∃ reference, h.registry.find? child = some reference ∧
    h.parentKey? reference = some parent

/-- A registered meter leads to a root by its own association, directly or
through other registered meters. -/
def Derived (h : RegistryHistory) (key root : MeterKey) : Prop :=
  Relation.TransGen h.DerivesFrom key root

/-- A pair in the index that is not the association of a registered meter. -/
def Stray (h : RegistryHistory) (parent child : MeterKey) : Prop :=
  h.registry.children.Lists parent child ∧ ¬ h.DerivesFrom child parent

/-- A stray pair leads from a root, or from what is derived from it, to a
meter. -/
def Strays (h : RegistryHistory) (root key : MeterKey) : Prop :=
  ∃ parent child, (parent = root ∨ h.Derived parent root) ∧
    h.Stray parent child ∧ h.registry.children.Reaches child key

/-- The present filters map the parent of a meter as those of its
registration did. -/
def Steady (h : RegistryHistory) (key : MeterKey) : Prop :=
  ∀ parent, h.DerivesFrom key parent →
    h.registry.presentParent? key = some parent

/-- An edit removes no meter whose parent the filters map differently by
now. -/
def Faithful (h : RegistryHistory) : RegistryEdit → Prop
  | .remove key _ => h.Steady key
  | .removeFiltered id _ => h.Steady (mapByAll h.registry.filters id).key
  | _ => True

theorem DerivesFrom.parent_unique {h : RegistryHistory}
    {child parent other : MeterKey} (hparent : h.DerivesFrom child parent)
    (hother : h.DerivesFrom child other) : parent = other := by
  obtain ⟨reference, hfind, hkey⟩ := hparent
  obtain ⟨same, hsame, hkeySame⟩ := hother
  obtain rfl : reference = same := Option.some.inj (hfind.symm.trans hsame)
  exact Option.some.inj (hkey.symm.trans hkeySame)

/-- A meter that was registered without an association is derived from
nothing. -/
theorem not_derived_of_parentless {h : RegistryHistory}
    {key root : MeterKey}
    (hparentless : (h.registry.find? key).bind h.parentKey? = none) :
    ¬ h.Derived key root := by
  intro hderived
  obtain ⟨parent, ⟨reference, hfind, hparent⟩, _⟩ :=
    Relation.TransGen.head'_iff.mp hderived
  rw [hfind, Option.bind_some, hparent] at hparentless
  cases hparentless

theorem parentKey?_congr {h : RegistryHistory} (next : RegistryHistory)
    (hids : next.registry.made.map Meter.id = h.registry.made.map Meter.id)
    (hchains : next.chains = h.chains) (reference : Nat) :
    next.parentKey? reference = h.parentKey? reference := by
  have hparent : ∀ g : RegistryHistory, g.parentKey? reference =
      ((g.registry.made.map Meter.id)[reference]?).bind fun id =>
        id.parent.bind fun parent => (g.chains[reference]?).map fun chain =>
          (mapByAll chain parent).key := by
    intro g
    rw [Array.getElem?_map, Option.bind_map]
    rfl
  rw [hparent, hparent, hids, hchains]

/-- Edits that make no meter keep the chains. -/
theorem chains_next_of_ids_eq {h : RegistryHistory} {e : RegistryEdit}
    (hids : (h.registry.edit e).made.map Meter.id =
      h.registry.made.map Meter.id) : (h.next e).chains = h.chains := by
  have hsize := congrArg Array.size hids
  simp only [Array.size_map] at hsize
  simp only [next]
  rw [if_neg (by omega)]

/-! ### The index lists every association -/

/-- The chains belong to the meters, and the index lists all associations. -/
structure Indexed (h : RegistryHistory) : Prop where
  wellFormed : h.registry.WellFormed
  chains_size : h.chains.size = h.registry.made.size
  listed : ∀ parent child, h.DerivesFrom child parent →
    h.registry.children.Lists parent child

theorem Indexed.reaches_of_derived {h : RegistryHistory} (hh : h.Indexed)
    {key root : MeterKey} (hderived : h.Derived key root) :
    h.registry.children.Reaches root key := by
  induction hderived with
  | single hstep => exact Relation.ReflTransGen.single (hh.listed _ _ hstep)
  | tail _ hstep ih =>
      exact Relation.ReflTransGen.head (hh.listed _ _ hstep) ih

/-- What the index reaches is derived or reached through a stray pair. -/
theorem derived_or_strays {h : RegistryHistory} {root key : MeterKey}
    (hreach : h.registry.children.Reaches root key) :
    (key = root ∨ h.Derived key root) ∨ h.Strays root key := by
  induction hreach with
  | refl => exact Or.inl (Or.inl rfl)
  | @tail parent child _ hstep ih =>
      rcases ih with hparent | ⟨owner, first, howner, hstray, hreach⟩
      · by_cases hderives : h.DerivesFrom child parent
        · refine Or.inl (Or.inr ?_)
          rcases hparent with rfl | hderived
          · exact Relation.TransGen.single hderives
          · exact Relation.TransGen.head hderives hderived
        · exact Or.inr ⟨parent, child, hparent, ⟨hstep, hderives⟩,
            Relation.ReflTransGen.refl⟩
      · exact Or.inr ⟨owner, first, howner, hstray, hreach.tail hstep⟩

theorem Indexed.reaches_of_strays {h : RegistryHistory} (hh : h.Indexed)
    {root key : MeterKey} (hstrays : h.Strays root key) :
    h.registry.children.Reaches root key := by
  obtain ⟨parent, child, hparent, hstray, hreach⟩ := hstrays
  have hroot : h.registry.children.Reaches root parent := by
    rcases hparent with rfl | hderived
    · exact Relation.ReflTransGen.refl
    · exact hh.reaches_of_derived hderived
  exact (hroot.tail hstray.1).trans hreach

/-! ### Edits -/

/-- The index goes on to list all associations, and a faithful edit leaves no
other pairs in it. -/
structure Follows (h : RegistryHistory) (e : RegistryEdit) : Prop where
  indexed : (h.next e).Indexed
  no_strays : h.Faithful e → (∀ parent child, ¬ h.Stray parent child) →
    ∀ parent child, ¬ (h.next e).Stray parent child

theorem indexed_create (config : RegistrySettings) :
    Indexed ⟨Registry.create config, #[]⟩ := by
  refine ⟨Registry.wellFormed_create config, rfl, ?_⟩
  rintro parent child ⟨reference, hfind, _⟩
  cases hfind

variable {h : RegistryHistory}

/-- A new meter brings its own association and no other. -/
theorem derivesFrom_entered (hh : h.Indexed) (next : RegistryHistory)
    {id : Id} {meter : Meter} {filters : List Filter}
    (hid : meter.id = id) (hnew : h.registry.find? id.key = none)
    (hregistry : next.registry =
      Registry.enter { h.registry with filters := filters } id meter)
    (hchains : next.chains = h.chains.push h.registry.filters)
    (child parent : MeterKey) :
    next.DerivesFrom child parent ↔ h.DerivesFrom child parent ∨
      child = id.key ∧ ∃ own, id.parent = some own ∧
        (mapByAll h.registry.filters own).key = parent := by
  have hfind : next.registry.find? child =
      if child = id.key then some h.registry.made.size
      else h.registry.find? child := by
    rw [hregistry]
    exact Registry.find?_enter { h.registry with filters := filters } id meter
      hnew child
  have hold : ∀ reference, reference < h.registry.made.size →
      next.parentKey? reference = h.parentKey? reference := by
    intro reference hlt
    simp only [parentKey?, hregistry, hchains, Registry.enter]
    rw [Array.getElem?_push, if_neg (by omega), Array.getElem?_push,
      if_neg (by rw [hh.chains_size]; omega)]
  have hlast : next.parentKey? h.registry.made.size =
      id.parent.map fun own => (mapByAll h.registry.filters own).key := by
    simp only [parentKey?, hregistry, hchains, Registry.enter]
    rw [Array.getElem?_push, if_pos rfl, ← hh.chains_size,
      Array.getElem?_push, if_pos rfl]
    simp only [Option.bind_some, Option.map_some, hid]
    cases id.parent <;> rfl
  constructor
  · rintro ⟨reference, hreference, hkey⟩
    rw [hfind] at hreference
    by_cases heq : child = id.key
    · rw [if_pos heq] at hreference
      obtain rfl := Option.some.inj hreference
      rw [hlast] at hkey
      obtain ⟨own, hown, hmapped⟩ := Option.map_eq_some_iff.mp hkey
      exact Or.inr ⟨heq, own, hown, hmapped⟩
    · rw [if_neg heq] at hreference
      have hlt := hh.wellFormed.lt_size _
        (Registry.mem_entries_of_find? hreference)
      exact Or.inl ⟨reference, hreference, (hold reference hlt) ▸ hkey⟩
  · rintro (⟨reference, hreference, hkey⟩ | ⟨rfl, own, hown, hmapped⟩)
    · have hlt := hh.wellFormed.lt_size _
        (Registry.mem_entries_of_find? hreference)
      refine ⟨reference, ?_, (hold reference hlt).trans hkey⟩
      rw [hfind, if_neg, hreference]
      rintro rfl
      rw [hnew] at hreference
      cases hreference
    · refine ⟨h.registry.made.size, by rw [hfind, if_pos rfl], ?_⟩
      rw [hlast, hown, Option.map_some, hmapped]

theorem lists_entered {id : Id} {meter : Meter} {filters : List Filter}
    (hmap : mapByAll filters = mapByAll h.registry.filters)
    (parent child : MeterKey) :
    (Registry.enter { h.registry with filters := filters } id
        meter).children.Lists parent child ↔
      h.registry.children.Lists parent child ∨
        child = id.key ∧ ∃ own, id.parent = some own ∧
          (mapByAll h.registry.filters own).key = parent := by
  simp only [Registry.enter, hmap]
  cases hparent : id.parent with
  | none => simp
  | some own =>
      simp only [ChildIndex.lists_add, Option.some.injEq, exists_eq_left']
      constructor
      · rintro (hold | ⟨rfl, rfl⟩)
        · exact Or.inl hold
        · exact Or.inr ⟨rfl, rfl⟩
      · rintro (hold | ⟨rfl, rfl⟩)
        · exact Or.inl hold
        · exact Or.inr ⟨rfl, rfl⟩

theorem follows_unchanged (hh : h.Indexed) {e : RegistryEdit}
    (hids : (h.registry.edit e).made.map Meter.id =
      h.registry.made.map Meter.id)
    (hentries : (h.registry.edit e).entries = h.registry.entries)
    (hchildren : (h.registry.edit e).children = h.registry.children) :
    h.Follows e := by
  have hchains := chains_next_of_ids_eq hids
  have hsize := congrArg Array.size hids
  simp only [Array.size_map] at hsize
  have hderives : ∀ child parent, (h.next e).DerivesFrom child parent ↔
      h.DerivesFrom child parent := by
    intro child parent
    have hkeys := parentKey?_congr (h.next e) hids hchains
    simp only [DerivesFrom, hkeys]
    simp only [Registry.find?, next, hentries]
  refine ⟨⟨⟨?_, ?_⟩, ?_, ?_⟩, ?_⟩
  · simp only [next, hentries, hsize]
    exact hh.wellFormed.lt_size
  · simp only [next, Registry.references, hentries]
    exact hh.wellFormed.references_nodup
  · rw [hchains, hh.chains_size]
    exact hsize.symm
  · intro parent child hnext
    simp only [next, hchildren]
    exact hh.listed parent child ((hderives child parent).mp hnext)
  · intro _ hnone parent child hstray
    have hlisted := hstray.1
    simp only [next, hchildren] at hlisted
    exact hnone parent child ⟨hlisted, (hderives child parent).not.mp hstray.2⟩

theorem follows_add (hh : h.Indexed) (blueprint : Blueprint Source) (id : Id)
    (own : DistributionSettings) (now : Int) :
    h.Follows (.add blueprint id own now) := by
  have hregistered := Registry.registered_add hh.wellFormed blueprint id own
    now
  have hwellFormed := hh.wellFormed.registered hregistered
  generalize hregistry : (h.registry.add blueprint id own now).value.2 =
    registry at hregistered hwellFormed
  cases hregistered with
  | same filters hmap =>
      have hedit : h.registry.edit (.add blueprint id own now) =
          { h.registry with filters := filters } := hregistry
      have hids : (h.registry.edit (.add blueprint id own now)).made.map
          Meter.id = h.registry.made.map Meter.id := by rw [hedit]
      exact follows_unchanged hh hids (by rw [hedit]) (by rw [hedit])
  | entered filters meter config hmap hnew hmade =>
      have hedit : h.registry.edit (.add blueprint id own now) =
          Registry.enter { h.registry with filters := filters }
            (mapByAll h.registry.filters (id.withKind blueprint.kind))
            meter := hregistry
      have hid : meter.id =
          mapByAll h.registry.filters (id.withKind blueprint.kind) := by
        obtain ⟨instrument, _, rfl⟩ := Blueprint.buildTyped_eq_ok hmade
        rfl
      have hchains : (h.next (.add blueprint id own now)).chains =
          h.chains.push h.registry.filters := by
        simp only [next, hedit, Registry.enter, Array.size_push]
        rw [if_pos (Nat.lt_succ_self _)]
      have hderives := derivesFrom_entered hh
        (h.next (.add blueprint id own now)) hid hnew hedit hchains
      refine ⟨⟨?_, ?_, ?_⟩, ?_⟩
      · simp only [next, hedit]
        exact hwellFormed
      · rw [hchains]
        simp only [next, hedit, Registry.enter, Array.size_push,
          hh.chains_size]
      · intro parent child hnext
        simp only [next, hedit, lists_entered hmap]
        exact ((hderives child parent).mp hnext).imp_left
          (hh.listed parent child)
      · intro _ hnone parent child hstray
        have hlisted := hstray.1
        simp only [next, hedit, lists_entered hmap] at hlisted
        apply hstray.2
        apply (hderives child parent).mpr
        refine hlisted.imp_left fun hold => ?_
        by_contra hderives
        exact hnone parent child ⟨hold, hderives⟩

/-- A removal leaves the associations of the meters that stay. -/
theorem derivesFrom_removed {e : RegistryEdit} {key : MeterKey}
    (hremoved : h.registry.Removed key (h.registry.edit e))
    (child parent : MeterKey) :
    (h.next e).DerivesFrom child parent ↔
      ¬ h.registry.children.Reaches key child ∧
        h.DerivesFrom child parent := by
  have hkeys := parentKey?_congr (h.next e) hremoved.ids_eq
    (chains_next_of_ids_eq hremoved.ids_eq)
  simp only [DerivesFrom, hkeys]
  by_cases hreach : h.registry.children.Reaches key child
  · have hgone := hremoved.find?_of_reaches child hreach
    simp [next, hgone, hreach]
  · have hstays := hremoved.find?_of_not_reaches child hreach
    simp [next, hstays, hreach]

theorem follows_removed (hh : h.Indexed) {e : RegistryEdit} {key : MeterKey}
    (hremoved : h.registry.Removed key (h.registry.edit e))
    (hsteady : h.Faithful e → h.Steady key) : h.Follows e := by
  have hderives := derivesFrom_removed hremoved
  have hsize := congrArg Array.size hremoved.ids_eq
  simp only [Array.size_map] at hsize
  refine ⟨⟨hremoved.wellFormed, ?_, ?_⟩, ?_⟩
  · rw [chains_next_of_ids_eq hremoved.ids_eq, hh.chains_size]
    exact hsize.symm
  · intro parent child hnext
    obtain ⟨hstays, hold⟩ := (hderives child parent).mp hnext
    have hlisted := hh.listed parent child hold
    apply (hremoved.lists_iff parent child).mpr
    refine ⟨?_, hlisted, ?_⟩
    · exact fun hparent => hstays (hparent.tail hlisted)
    · rintro ⟨_, rfl⟩
      exact hstays Relation.ReflTransGen.refl
  · intro hfaithful hnone parent child hstray
    obtain ⟨hparent, hlisted, hkept⟩ :=
      (hremoved.lists_iff parent child).mp hstray.1
    have hold : h.DerivesFrom child parent := by
      by_contra hderives
      exact hnone parent child ⟨hlisted, hderives⟩
    apply hstray.2
    apply (hderives child parent).mpr
    refine ⟨?_, hold⟩
    intro hreach
    -- the last pair on the way to the child is its own association
    rcases Relation.ReflTransGen.cases_tail hreach with
      rfl | ⟨owner, hway, hstep⟩
    · exact hkept ⟨hsteady hfaithful parent hold, rfl⟩
    · have howner : h.DerivesFrom child owner := by
        by_contra hderives
        exact hnone owner child ⟨hstep, hderives⟩
      exact hparent (hold.parent_unique howner ▸ hway)

theorem follows_remove (hh : h.Indexed) {e : RegistryEdit} {key : MeterKey}
    {around : Surroundings}
    (hedit : h.registry.edit e = (h.registry.remove key around).value.2)
    (hsteady : h.Faithful e → h.Steady key) : h.Follows e := by
  cases hfind : h.registry.find? key with
  | none =>
      rw [Registry.remove_of_find?_eq_none hfind] at hedit
      exact follows_unchanged hh (by rw [hedit]) (by rw [hedit])
        (by rw [hedit])
  | some reference =>
      apply follows_removed hh _ hsteady
      rw [hedit]
      exact Registry.removed_remove hh.wellFormed (by simp [hfind]) around

theorem follows_clear (hh : h.Indexed) (m : Moment) :
    h.Follows (.clear m) := by
  have hids : (h.registry.edit (.clear m)).made.map Meter.id =
      h.registry.made.map Meter.id :=
    Registry.map_id_updateAll h.registry _ fun meter => rfl
  have hsize := congrArg Array.size hids
  simp only [Array.size_map] at hsize
  refine ⟨⟨⟨by simp [next, Registry.edit, Registry.clear],
    by simp [next, Registry.edit, Registry.clear, Registry.references]⟩,
    ?_, ?_⟩, ?_⟩
  · rw [chains_next_of_ids_eq hids, hh.chains_size]
    exact hsize.symm
  · rintro parent child ⟨reference, hfind, _⟩
    cases hfind
  · intro _ _ parent child hstray
    exact ChildIndex.not_lists_empty parent child hstray.1

/-- What every edit does to the index. -/
theorem follows (hh : h.Indexed) (e : RegistryEdit) : h.Follows e := by
  cases e with
  | addFilter filter => exact follows_unchanged hh rfl rfl rfl
  | add blueprint id own now => exact follows_add hh blueprint id own now
  | remove key around => exact follows_remove hh rfl id
  | removeFiltered own around => exact follows_remove hh rfl id
  | clear m => exact follows_clear hh m

/-! ### Runs -/

theorem indexed_of (config : RegistrySettings) (edits : List RegistryEdit) :
    (of config edits).Indexed := by
  induction edits using List.reverseRecOn with
  | nil => exact indexed_create config
  | append_singleton before e ih =>
      rw [of_append_singleton]
      exact (follows ih e).indexed

/-- Every edit of a run is faithful. -/
def FaithfulRun (config : RegistrySettings) (edits : List RegistryEdit) :
    Prop :=
  ∀ before e later, edits = before ++ e :: later →
    (of config before).Faithful e

/-- A run of faithful edits leaves no stray pairs. -/
theorem not_stray_of_faithfulRun (config : RegistrySettings)
    (edits : List RegistryEdit) (hfaithful : FaithfulRun config edits)
    (parent child : MeterKey) : ¬ (of config edits).Stray parent child := by
  induction edits using List.reverseRecOn generalizing parent child with
  | nil => exact fun hstray => ChildIndex.not_lists_empty parent child hstray.1
  | append_singleton before e ih =>
      rw [of_append_singleton]
      apply (follows (indexed_of config before) e).no_strays
      · exact hfaithful before e [] rfl
      · apply ih
        intro first edit later hsplit
        exact hfaithful first edit (later ++ [e]) (by simp [hsplit])

/-- A removal takes out the meter and everything derived from it.  Of the
other meters it takes out those that a stray pair leads to, and keeps the
rest.  There are no stray pairs as long as no meter was removed while the
filters mapped its parent differently than at its registration. -/
theorem remove_takes_out_derived (config : RegistrySettings)
    (edits : List RegistryEdit) (key : MeterKey) (around : Surroundings)
    (hkey : ((of config edits).registry.find? key).isSome) :
    let h := of config edits
    let left := (h.registry.remove key around).value.2
    (∀ other, other = key ∨ h.Derived other key →
      left.find? other = none) ∧
    (∀ other, ¬ (other = key ∨ h.Derived other key) →
      (h.Strays key other → left.find? other = none) ∧
      (¬ h.Strays key other → left.find? other = h.registry.find? other)) ∧
    (FaithfulRun config edits → ∀ other, ¬ h.Strays key other) := by
  intro h left
  have hh : h.Indexed := indexed_of config edits
  have hremoved : h.registry.Removed key left :=
    Registry.removed_remove hh.wellFormed hkey around
  refine ⟨?_, ?_, ?_⟩
  · rintro other (rfl | hderived)
    · exact hremoved.find?_of_reaches _ Relation.ReflTransGen.refl
    · exact hremoved.find?_of_reaches other (hh.reaches_of_derived hderived)
  · intro other hunderived
    refine ⟨?_, ?_⟩
    · intro hstrays
      exact hremoved.find?_of_reaches other (hh.reaches_of_strays hstrays)
    · intro hstrays
      apply hremoved.find?_of_not_reaches
      intro hreach
      rcases derived_or_strays hreach with hderived | hstrayed
      · exact hunderived hderived
      · exact hstrays hstrayed
  · rintro hfaithful other ⟨parent, child, _, hstray, _⟩
    exact not_stray_of_faithfulRun config edits hfaithful parent child hstray

/-- A removed parent takes its child along. -/
theorem remove_takes_out_child :
    let owner := Id.named "p" [⟨"a", "1"⟩]
    let child := Id.named "c" []
    let around : Surroundings :=
      fun _ => ⟨⟨0, 0⟩, none, fun _ => 0, ⟨fun _ => 0.0, fun _ => true⟩⟩
    let h := of .standard [.add .counter owner .empty 0,
      .add .counter (child.withParent owner) .empty 0]
    (h.registry.remove owner.key around).value.2.find? child.key = none := by
  intro owner child around h
  have hderives : h.DerivesFrom child.key owner.key :=
    ⟨1, by decide +kernel, by decide +kernel⟩
  exact (remove_takes_out_derived .standard _ owner.key around
    (by decide +kernel)).1 child.key
      (Or.inr (Relation.TransGen.single hderives))

/-- A filter that comes between the registration of a child and its removal
leaves a stray pair, and a later meter of the child's name goes with a parent
that it was never associated with. -/
theorem exists_underived_taken_out :
    ∃ (edits : List RegistryEdit) (key other : MeterKey)
      (around : Surroundings),
      let h := of .standard edits
      (h.registry.find? key).isSome ∧ (h.registry.find? other).isSome ∧
        ¬ (other = key ∨ h.Derived other key) ∧
        (h.registry.remove key around).value.2.find? other = none := by
  let owner := Id.named "p" [⟨"a", "1"⟩]
  let child := Id.named "c" []
  let around : Surroundings :=
    fun _ => ⟨⟨0, 0⟩, none, fun _ => 0, ⟨fun _ => 0.0, fun _ => true⟩⟩
  refine ⟨[.add .counter owner .empty 0,
      .add .counter (child.withParent owner) .empty 0,
      .addFilter (.renameTag "p" "a" "b"), .remove child.key around,
      .add .counter child .empty 0], owner.key, child.key, around,
    by decide +kernel, by decide +kernel, ?_, by decide +kernel⟩
  rintro (heq | hderived)
  · exact absurd heq (by decide)
  · exact not_derived_of_parentless (by decide +kernel) hderived

end RegistryHistory

end WindowedMetrics
