/-
The loop of a removal.  It takes the pending meters in any order; one that it
has not visited yet is taken out, and its children become pending in place of
its entries in the index.  However tangled the index is, the loop ends, and
then it has visited what the removed meter reaches.
-/
import WindowedMetrics.Proofs.Registry.Closings

namespace WindowedMetrics

/-! ### The loop -/

/-- A removal in progress: what it made of the registry, the meters visited so
far, those still pending, and the events so far. -/
structure Sweep where
  registry : Registry
  visited : List MeterKey
  pending : List MeterKey
  events : List Event

namespace Sweep

/-- The removed meter is taken out and gone from among the children of its
parent, and its own children are pending. -/
def start (r : Registry) (key : MeterKey) (removed : Meter)
    (around : Surroundings) : Sweep :=
  let out := r.takeOut key [] around
  let index := out.value.2.forgetChild removed key
  ⟨{ out.value.2 with children := index.without key }, [key],
    index.childrenOf key, out.events⟩

/-- A pending meter is taken out, and its children are pending in its place. -/
def visit (s : Sweep) (key : MeterKey) (rest : List MeterKey)
    (removed : Meter) (around : Surroundings) : Sweep :=
  let out := s.registry.takeOut key [removed] around
  ⟨{ out.value.2 with children := s.registry.children.without key },
    key :: s.visited, s.registry.children.childrenOf key ++ rest,
    s.events ++ out.events⟩

/-- One turn of the loop, for any one of the pending meters. -/
inductive Turn (removed : Meter) (around : Surroundings) (s : Sweep) :
    Sweep → Prop
  | skip {key : MeterKey} {rest : List MeterKey}
      (hpending : s.pending.Perm (key :: rest)) (hknown : key ∈ s.visited) :
      Turn removed around s { s with pending := rest }
  | visit {key : MeterKey} {rest : List MeterKey}
      (hpending : s.pending.Perm (key :: rest)) (hnew : key ∉ s.visited) :
      Turn removed around s (s.visit key rest removed around)

/-- Turns from one state of the loop to another in which nothing is pending. -/
def EndsAt (removed : Meter) (around : Surroundings) (s last : Sweep) :
    Prop :=
  Relation.ReflTransGen (Turn removed around) s last ∧ last.pending = []

section Turns

variable {removed : Meter} {around : Surroundings} {s next last : Sweep}

/-! ### The loop ends -/

/-- The pairs in the index and the pending meters. -/
def size (s : Sweep) : Nat :=
  s.registry.children.weight + s.pending.length

theorem Turn.size_lt (h : Turn removed around s next) :
    next.size < s.size := by
  rcases h with ⟨hpending, -⟩ | @⟨key, rest, hpending, -⟩
  · have hlength := hpending.length_eq
    simp only [size, List.length_cons] at hlength ⊢
    omega
  · have hlength := hpending.length_eq
    have hweight := s.registry.children.weight_without key
    simp only [size, Sweep.visit, List.length_append, List.length_cons] at hlength ⊢
    omega

theorem wellFounded_turn (removed : Meter) (around : Surroundings) :
    WellFounded fun next s => Turn removed around s next :=
  Subrelation.wf (fun h => h.size_lt) (measure size).wf

/-- The loop goes on while something is pending. -/
theorem exists_turn (removed : Meter) (around : Surroundings) {s : Sweep}
    (hpending : s.pending ≠ []) : ∃ next, Turn removed around s next := by
  obtain ⟨key, rest, heq⟩ := List.exists_cons_of_ne_nil hpending
  by_cases hknown : key ∈ s.visited
  · exact ⟨_, .skip (.of_eq heq) hknown⟩
  · exact ⟨_, .visit (.of_eq heq) hknown⟩

/-! ### What the loop keeps -/

variable {r : Registry} {key : MeterKey} {index : ChildIndex}

/-- The loop follows the index: it visits only what the removed meter reaches,
the children of what it visited are visited or pending, and what it visited is
taken out and has no entries any more. -/
structure Follows (s : Sweep) (r : Registry) (key : MeterKey)
    (index : ChildIndex) (around : Surroundings) : Prop where
  root_mem : key ∈ s.visited
  reached : ∀ other, other ∈ s.visited ∨ other ∈ s.pending →
    index.Reaches key other
  covered : ∀ parent ∈ s.visited, ∀ child, index.Lists parent child →
    child ∈ s.visited ∨ child ∈ s.pending
  children_eq : s.registry.children = index.withoutAll s.visited
  takesOut : ∃ closings,
    r.TakesOut around (· ∈ s.visited) closings s.registry s.events

theorem follows_start (r : Registry) (key : MeterKey) (removed : Meter)
    (around : Surroundings) :
    (start r key removed around).Follows r key (r.forgetChild removed key)
      around := by
  have hindex : (r.takeOut key [] around).value.2.forgetChild removed key =
      r.forgetChild removed key := by
    unfold Registry.takeOut
    split <;> rfl
  have hchildren : (start r key removed around).pending =
      (r.forgetChild removed key).childrenOf key := by
    simp only [start, hindex]
  refine ⟨List.mem_singleton_self key, ?_, ?_, ?_, ?_⟩
  · rintro other (hvisited | hpending)
    · rw [List.mem_singleton.mp hvisited]
      exact Relation.ReflTransGen.refl
    · rw [hchildren] at hpending
      exact Relation.ReflTransGen.single hpending
  · intro parent hparent child hchild
    rw [List.mem_singleton.mp hparent] at hchild
    rw [hchildren]
    exact Or.inr hchild
  · simp only [start, hindex, ChildIndex.withoutAll_singleton]
  · obtain ⟨closings, hout⟩ :=
      (Registry.TakesOut.nothing r around).takeOut (not_false : ¬ False) []
    refine ⟨closings, (hout.withChildren _).congr fun other => ?_⟩
    rw [or_false]
    exact List.mem_singleton.symm

/-- A pending meter that was visited before can be passed over. -/
theorem Follows.skip (h : s.Follows r key index around) {other : MeterKey}
    {rest : List MeterKey} (hpending : s.pending.Perm (other :: rest))
    (hknown : other ∈ s.visited) :
    Follows { s with pending := rest } r key index around := by
  refine ⟨h.root_mem, ?_, ?_, h.children_eq, h.takesOut⟩
  · rintro found (hvisited | hrest)
    · exact h.reached found (Or.inl hvisited)
    · exact h.reached found
        (Or.inr (hpending.mem_iff.mpr (List.mem_cons_of_mem other hrest)))
  · intro parent hparent child hchild
    rcases h.covered parent hparent child hchild with hvisited | hchild
    · exact Or.inl hvisited
    · rcases List.mem_cons.mp (hpending.mem_iff.mp hchild) with rfl | hrest
      · exact Or.inl hknown
      · exact Or.inr hrest

/-- A pending meter that is new is taken out. -/
theorem Follows.visit (h : s.Follows r key index around) {other : MeterKey}
    {rest : List MeterKey} (hpending : s.pending.Perm (other :: rest))
    (hnew : other ∉ s.visited) (removed : Meter) :
    (s.visit other rest removed around).Follows r key index around := by
  have hother : index.Reaches key other :=
    h.reached other (Or.inr (hpending.mem_iff.mpr List.mem_cons_self))
  have hchildren : s.registry.children.childrenOf other =
      index.childrenOf other := by
    rw [h.children_eq, ChildIndex.childrenOf_withoutAll, if_neg hnew]
  refine ⟨List.mem_cons_of_mem other h.root_mem, ?_, ?_, ?_, ?_⟩
  · rintro found (hvisited | hfound)
    · rcases List.mem_cons.mp hvisited with rfl | hold
      · exact hother
      · exact h.reached found (Or.inl hold)
    · simp only [Sweep.visit, hchildren] at hfound
      rcases List.mem_append.mp hfound with hchild | hrest
      · exact hother.tail hchild
      · exact h.reached found
          (Or.inr (hpending.mem_iff.mpr (List.mem_cons_of_mem other hrest)))
  · intro parent hparent child hchild
    simp only [Sweep.visit, hchildren, List.mem_cons, List.mem_append]
    rcases List.mem_cons.mp hparent with rfl | hold
    · exact Or.inr (Or.inl hchild)
    · rcases h.covered parent hold child hchild with hvisited | hchild
      · exact Or.inl (Or.inr hvisited)
      · rcases List.mem_cons.mp (hpending.mem_iff.mp hchild) with rfl | hrest
        · exact Or.inl (Or.inl rfl)
        · exact Or.inr (Or.inr hrest)
  · simp only [Sweep.visit, h.children_eq, ChildIndex.without_withoutAll]
  · obtain ⟨closings, hout⟩ := h.takesOut
    obtain ⟨later, hmore⟩ := hout.takeOut hnew [removed]
    refine ⟨later, (hmore.withChildren _).congr fun found => ?_⟩
    exact List.mem_cons.symm

theorem Follows.turn (h : s.Follows r key index around)
    (hturn : Turn removed around s next) :
    next.Follows r key index around := by
  rcases hturn with ⟨hpending, hknown⟩ | ⟨hpending, hnew⟩
  · exact h.skip hpending hknown
  · exact h.visit hpending hnew removed

theorem Follows.turns (h : s.Follows r key index around)
    (hturns : Relation.ReflTransGen (Turn removed around) s last) :
    last.Follows r key index around := by
  induction hturns with
  | refl => exact h
  | tail _ hturn ih => exact ih.turn hturn

/-- When nothing is pending, all that is reached has been visited. -/
theorem Follows.mem_visited_iff (h : s.Follows r key index around)
    (hdone : s.pending = []) (other : MeterKey) :
    other ∈ s.visited ↔ index.Reaches key other := by
  constructor
  · exact fun hvisited => h.reached other (Or.inl hvisited)
  · intro hreach
    apply hreach.mem_of_closed h.root_mem
    intro parent hparent child hchild
    rcases h.covered parent hparent child hchild with hvisited | hpending
    · exact hvisited
    · rw [hdone] at hpending
      exact absurd hpending List.not_mem_nil

end Turns

end Sweep

/-! ### Removals -/

namespace Registry

/-- From one registry to the next, what a meter reaches along the index is
removed: the registered ones of these meters are taken out and closed, each
once, and their entries in the index are gone.  All else stays registered.
Where no two keys share a meter, what is closed has been closed once and what
stays registered is as it was. -/
structure Cascades (r : Registry) (key : MeterKey) (around : Surroundings)
    (next : Registry) (events : List Event) : Prop where
  takesOut : ∃ closings,
    r.TakesOut around (r.children.Reaches key) closings next events ∧
    (r.WellFormed → ∀ c ∈ closings,
      next.made[c.reference]? = (r.get? c.key).map (·.close c.moment))
  get?_eq_none : ∀ other, r.children.Reaches key other →
    next.get? other = none
  find?_eq : ∀ other, ¬ r.children.Reaches key other →
    next.find? other = r.find? other
  get?_eq : r.WellFormed → ∀ other, ¬ r.children.Reaches key other →
    next.get? other = r.get? other
  not_reaches : ∀ e ∈ next.children.entries, ¬ r.children.Reaches key e.1

section Ended

variable {r : Registry} {key : MeterKey} {removed : Meter}
  (hget : r.get? key = some removed) {around : Surroundings} {last : Sweep}
  (hlast : (Sweep.start r key removed around).EndsAt removed around last)

include hget hlast

/-- The loop visits what the removed meter reaches, in whatever order it goes
through the pending meters. -/
theorem mem_visited_iff_of_endsAt (other : MeterKey) :
    other ∈ last.visited ↔ r.children.Reaches key other := by
  have hfollows := (Sweep.follows_start r key removed around).turns hlast.1
  rw [hfollows.mem_visited_iff hlast.2]
  exact reaches_forgetChild hget r rfl rfl other

theorem cascades_of_endsAt :
    r.Cascades key around last.registry last.events := by
  have hfollows := (Sweep.follows_start r key removed around).turns hlast.1
  have hvisited := mem_visited_iff_of_endsAt hget hlast
  obtain ⟨closings, hout⟩ := hfollows.takesOut
  have hgone := hout.congr hvisited
  refine ⟨⟨closings, hgone, fun hr c => hgone.closed_once hr⟩,
    fun other => hgone.get?_of_gone, fun other => hgone.find?_of_not_gone,
    fun hr other => hgone.get?_of_not_gone hr, ?_⟩
  intro e he hreach
  rw [hfollows.children_eq] at he
  exact of_decide_eq_true (List.mem_filter.mp he).2 ((hvisited e.1).mpr hreach)

theorem removed_of_endsAt (hr : r.WellFormed) :
    r.Removed key last.registry := by
  have hfollows := (Sweep.follows_start r key removed around).turns hlast.1
  have hvisited := mem_visited_iff_of_endsAt hget hlast
  have hcascades := cascades_of_endsAt hget hlast
  obtain ⟨closings, hout, -⟩ := hcascades.takesOut
  have hleft := hout.wellFormed hr
  refine ⟨?_, hout.map_id, hleft, ?_, hcascades.find?_eq, ?_⟩
  · rw [hout.next_eq]
    rfl
  · exact fun other hreach =>
      hleft.get?_eq_none (hcascades.get?_eq_none other hreach)
  · intro parent child
    rw [hfollows.children_eq, ChildIndex.lists_withoutAll, hvisited parent,
      lists_forgetChild hget r rfl rfl]

end Ended

/-! ### The removal that runs -/

theorem takeOut_withChildren (r : Registry) (index : ChildIndex)
    (key : MeterKey) (kept : List Meter) (around : Surroundings) :
    ({ r with children := index } : Registry).takeOut key kept around =
      let out := r.takeOut key kept around
      ⟨(out.value.1, { out.value.2 with children := index }), out.events⟩ := by
  rcases hget : r.get? key with _ | meter
  · rw [takeOut_of_not_registered hget]
    exact takeOut_of_not_registered (r := { r with children := index }) hget
      kept around
  · obtain ⟨reference, hfind, -⟩ := Option.bind_eq_some_iff.mp hget
    rw [takeOut_of_registered hfind hget]
    exact takeOut_of_registered (r := { r with children := index }) hfind hget
      kept around

/-- The running loop is one of the loops that take pending meters in any
order. -/
theorem endsAt_takeDescendants (removed : Meter) (around : Surroundings)
    (index : ChildIndex) (visited pending : List MeterKey) (r : Registry)
    (events : List Event) :
    let taken := index.takeDescendants visited pending
    let out := ({ r with children := taken.2 } : Registry).takeOutAll taken.1
      [removed] around
    ∃ last : Sweep, Sweep.EndsAt removed around
      ⟨{ r with children := index }, visited, pending, events⟩ last ∧
      last.registry = out.value ∧ last.events = events ++ out.events := by
  fun_induction ChildIndex.takeDescendants index visited pending
    generalizing r events with
  | case1 index visited =>
      exact ⟨_, ⟨.refl, rfl⟩, rfl, (List.append_nil events).symm⟩
  | case2 index visited head rest hhead ih =>
      obtain ⟨last, hlast, hvalue⟩ := ih r events
      have hknown : head ∈ visited := by simpa using hhead
      exact ⟨last, ⟨hlast.1.head (.skip .rfl hknown), hlast.2⟩, hvalue⟩
  | case3 index visited head rest hhead later left htake ih =>
      have hnew : head ∉ visited := by simpa using hhead
      rw [htake] at ih
      obtain ⟨last, hlast, hregistry, hevents⟩ :=
        ih (r.takeOut head [removed] around).value.2
          (events ++ (r.takeOut head [removed] around).events)
      have hout : ({ r with children := left } : Registry).takeOutAll
          (head :: later) [removed] around =
          let out := r.takeOut head [removed] around
          let all := ({ out.value.2 with children := left } :
            Registry).takeOutAll later [removed] around
          ⟨all.value, out.events ++ all.events⟩ := by
        simp only [takeOutAll_cons_eq, takeOut_withChildren]
      refine ⟨last, ⟨.head (.visit .rfl hnew) ?_, hlast.2⟩, ?_, ?_⟩
      · simp only [Sweep.visit, takeOut_withChildren]
        exact hlast.1
      · rw [hregistry, hout]
      · rw [hevents, hout, List.append_assoc]

/-- A removal runs the loop to its end. -/
theorem endsAt_remove {r : Registry} {key : MeterKey} {removed : Meter}
    (hget : r.get? key = some removed) (around : Surroundings) :
    ∃ last, (Sweep.start r key removed around).EndsAt removed around last ∧
      r.remove key around =
        ⟨(r.find? key, last.registry), last.events⟩ := by
  obtain ⟨reference, hfind, -⟩ := Option.bind_eq_some_iff.mp hget
  have hreference : (r.takeOut key [] around).value.1 = r.find? key := by
    rw [takeOut_of_registered hfind hget, hfind]
  obtain ⟨last, hlast, hregistry, hevents⟩ := endsAt_takeDescendants removed
    around
    (((r.takeOut key [] around).value.2.forgetChild removed key).without key)
    [key]
    (((r.takeOut key [] around).value.2.forgetChild removed key).childrenOf key)
    (r.takeOut key [] around).value.2 (r.takeOut key [] around).events
  refine ⟨last, hlast, ?_⟩
  rw [hregistry, hevents, ← hreference]
  simp only [remove, hget]

theorem removed_remove {r : Registry} (hr : r.WellFormed) {key : MeterKey}
    (hkey : (r.find? key).isSome) (around : Surroundings) :
    r.Removed key (r.remove key around).value.2 := by
  obtain ⟨removed, hget⟩ : ∃ removed, r.get? key = some removed := by
    apply Option.ne_none_iff_exists'.mp
    intro hnone
    rw [hr.get?_eq_none hnone] at hkey
    cases hkey
  obtain ⟨last, hlast, hremove⟩ := endsAt_remove hget around
  rw [hremove]
  exact removed_of_endsAt hget hlast hr

/-- Removing a meter that is not registered does nothing.  Removing a
registered one ends, in whatever order the loop goes through the pending
meters and however tangled the index is, and closes what the meter reaches,
each registered meter once. -/
theorem remove_cascades (r : Registry) (key : MeterKey)
    (around : Surroundings) :
    (r.get? key = none → r.remove key around = ⟨(none, r), []⟩) ∧
    ∀ removed, r.get? key = some removed →
      let start := Sweep.start r key removed around
      (r.remove key around).value.1 = r.find? key ∧
      r.Cascades key around (r.remove key around).value.2
        (r.remove key around).events ∧
      WellFounded (fun next s => Sweep.Turn removed around s next) ∧
      (∀ s : Sweep, s.pending ≠ [] →
        ∃ next, Sweep.Turn removed around s next) ∧
      ∀ last, start.EndsAt removed around last →
        r.Cascades key around last.registry last.events := by
  refine ⟨fun hget => by simp only [remove, hget], fun removed hget => ?_⟩
  obtain ⟨last, hlast, hremove⟩ := endsAt_remove hget around
  refine ⟨by rw [hremove], ?_, Sweep.wellFounded_turn removed around,
    fun s => Sweep.exists_turn removed around,
    fun last => cascades_of_endsAt hget⟩
  rw [hremove]
  exact cascades_of_endsAt hget hlast

/-- An index with a cycle back to the removed meter, a meter that is its own
child, a child of two parents, one of them not removed, and a child that is not
registered. -/
theorem remove_cascades_through_cycle :
    let key := fun name => (Id.named name []).key
    let meter := fun name => Meter.idle (Id.named name [])
    let around : Surroundings :=
      fun _ => ⟨⟨0, 0⟩, none, fun _ => 0, ⟨fun _ => 0.0, fun _ => true⟩⟩
    let r : Registry := { create .standard with
      made := #[meter "a", meter "b", meter "c", meter "d"]
      entries := [(key "a", 0), (key "b", 1), (key "c", 2), (key "d", 3)]
      children := ⟨[(key "a", [key "b", key "x"]),
        (key "b", [key "b", key "c"]), (key "c", [key "a"]),
        (key "d", [key "b"])]⟩ }
    let left := (r.remove (key "a") around).value.2
    left.get? (key "c") = none ∧ left.find? (key "d") = some 3 ∧
      (∀ e ∈ left.children.entries, e.1 ≠ key "b") ∧
      r.remove (key "x") around = ⟨(none, r), []⟩ := by
  intro key meter around r left
  have hget : r.get? (key "a") = some (meter "a") := rfl
  obtain ⟨-, hcascades, -⟩ :=
    (remove_cascades r (key "a") around).2 (meter "a") hget
  have hsecond : r.children.Reaches (key "a") (key "b") :=
    Relation.ReflTransGen.single (show _ ∈ _ by decide)
  have hthird : r.children.Reaches (key "a") (key "c") :=
    hsecond.tail (show _ ∈ _ by decide)
  have hother : ¬ r.children.Reaches (key "a") (key "d") := by
    intro hreach
    have hmem : key "d" ∈ [key "a", key "b", key "c", key "x"] :=
      hreach.mem_of_closed (by decide) (by decide)
    revert hmem
    decide
  refine ⟨hcascades.get?_eq_none _ hthird, hcascades.find?_eq _ hother, ?_,
    (remove_cascades r (key "x") around).1 rfl⟩
  rintro e he heq
  exact hcascades.not_reaches e he (heq ▸ hsecond)

end Registry

end WindowedMetrics
