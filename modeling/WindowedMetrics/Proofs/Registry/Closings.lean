/-
What taking meters out does, exactly.  Every registered meter that is taken
out is closed once, in surroundings of its own, and its entry is gone; nothing
else changes.
-/
import WindowedMetrics.Proofs.Registry.Edits
import Mathlib.Data.List.Nodup

namespace WindowedMetrics

theorem Meter.kind_close (meter : Meter) (m : Moment) :
    (meter.close m).kind = meter.kind := by
  simp only [Meter.kind, Meter.close, Meter.withInstrument]
  cases meter.instrument <;> rfl

/-- The closing of a registered meter as it is taken out. -/
structure Closing where
  key : MeterKey
  reference : Nat
  kind : MeterKind
  moment : Moment

/-- What a closing reports. -/
def Closing.event (c : Closing) : Event :=
  Registry.meterEvent "removed meter" c.key.name c.kind

namespace Registry

/-! ### Closings one after the other -/

/-- A registry after closings: their entries are gone, and every closing has
closed the meter that it refers to. -/
def afterClosings (r : Registry) (closings : List Closing) : Registry :=
  { r with
    entries := r.entries.filter fun e => decide (e.1 ∉ closings.map (·.key))
    made := closings.foldl
      (fun made c => made.modify c.reference (·.close c.moment)) r.made }

theorem afterClosings_nil (r : Registry) : r.afterClosings [] = r := by
  simp [afterClosings]

theorem afterClosings_append (r : Registry) (first later : List Closing) :
    r.afterClosings (first ++ later) =
      (r.afterClosings first).afterClosings later := by
  have hentries : (fun e : MeterKey × Nat =>
      decide (e.1 ∉ (first ++ later).map (·.key))) = fun e =>
        decide (e.1 ∉ later.map (·.key)) &&
          decide (e.1 ∉ first.map (·.key)) := by
    funext e
    simp only [List.map_append, List.mem_append, not_or, Bool.decide_and,
      Bool.and_comm]
  simp only [afterClosings, List.foldl_append, List.filter_filter, hentries]

theorem lookup_filter_key (entries : List (MeterKey × Nat))
    (kept : MeterKey → Bool) (key : MeterKey) :
    (entries.filter fun e => kept e.1).lookup key =
      if kept key then entries.lookup key else none := by
  induction entries with
  | nil => simp
  | cons e rest ih =>
      obtain ⟨entry, reference⟩ := e
      by_cases heq : key = entry
      · subst heq
        cases hkept : kept key with
        | true => simp [hkept]
        | false => simpa [List.filter_cons, hkept] using ih
      · have hne : (key == entry) = false := by simpa using heq
        cases hentry : kept entry with
        | true => simpa [List.filter_cons, hentry, List.lookup_cons, hne] using ih
        | false => simpa [List.filter_cons, hentry, List.lookup_cons, hne] using ih

theorem find?_afterClosings (r : Registry) (closings : List Closing)
    (key : MeterKey) :
    (r.afterClosings closings).find? key =
      if key ∈ closings.map (·.key) then none else r.find? key := by
  have hlookup := lookup_filter_key r.entries
    (fun entry => decide (entry ∉ closings.map (·.key))) key
  simp only [decide_eq_true_eq] at hlookup
  simp only [find?, afterClosings, hlookup, ite_not]

/-- A meter goes through the closings that refer to it, and no others. -/
theorem getElem?_afterClosings (r : Registry) (closings : List Closing)
    (reference : Nat) :
    (r.afterClosings closings).made[reference]? =
      (r.made[reference]?).map fun meter =>
        (closings.filter fun c => decide (c.reference = reference)).foldl
          (fun meter c => meter.close c.moment) meter := by
  simp only [afterClosings]
  generalize r.made = made
  induction closings generalizing made with
  | nil => simp
  | cons c rest ih =>
      rw [List.foldl_cons, ih, Array.getElem?_modify]
      by_cases heq : c.reference = reference
      · simp [heq, Function.comp_def]
      · simp [heq]

/-- What closings keep of every meter is as it was. -/
theorem map_afterClosings {B : Type} {f : Meter → B}
    (hclose : ∀ meter m, f (Meter.close meter m) = f meter) (r : Registry)
    (closings : List Closing) :
    (r.afterClosings closings).made.map f = r.made.map f := by
  simp only [afterClosings]
  generalize r.made = made
  induction closings generalizing made with
  | nil => rfl
  | cons c rest ih =>
      rw [List.foldl_cons, ih,
        map_modify_of_kept fun meter => hclose meter c.moment]

theorem map_kind_afterClosings (r : Registry) (closings : List Closing)
    (reference : Nat) :
    ((r.afterClosings closings).made[reference]?).map Meter.kind =
      (r.made[reference]?).map Meter.kind := by
  rw [← Array.getElem?_map, ← Array.getElem?_map,
    map_afterClosings Meter.kind_close]

theorem kind_get?_afterClosings {r : Registry} {closings : List Closing}
    {key : MeterKey} (hkept : key ∉ closings.map (·.key)) :
    ((r.afterClosings closings).get? key).map Meter.kind =
      (r.get? key).map Meter.kind := by
  simp only [get?, find?_afterClosings, if_neg hkept]
  cases r.find? key with
  | none => rfl
  | some reference => exact r.map_kind_afterClosings closings reference

/-- Different keys lead to different meters. -/
theorem WellFormed.eq_of_find? {r : Registry} (hr : r.WellFormed)
    {key other : MeterKey} {reference : Nat}
    (hkey : r.find? key = some reference)
    (hother : r.find? other = some reference) : key = other :=
  congrArg Prod.fst (List.inj_on_of_nodup_map hr.references_nodup
    (mem_entries_of_find? hkey) (mem_entries_of_find? hother) rfl)

/-! ### Taking one meter out -/

theorem takeOut_of_registered {r : Registry} {key : MeterKey}
    {reference : Nat} {meter : Meter} (hfind : r.find? key = some reference)
    (hget : r.get? key = some meter) (kept : List Meter)
    (around : Surroundings) :
    r.takeOut key kept around =
      let c : Closing :=
        ⟨key, reference, meter.kind, around (kept ++ r.meters)⟩
      ⟨(some reference, r.afterClosings [c]), [c.event]⟩ := by
  simp only [takeOut, hfind, hget, afterClosings, updateAll, Closing.event,
    List.map_cons, List.map_nil, List.mem_singleton, decide_not,
    List.foldl_cons, List.foldl_nil]

theorem takeOut_of_not_registered {r : Registry} {key : MeterKey}
    (hget : r.get? key = none) (kept : List Meter) (around : Surroundings) :
    r.takeOut key kept around = ⟨(none, r), []⟩ := by
  unfold takeOut
  cases hfind : r.find? key with
  | none => rfl
  | some reference => rw [hget]

/-! ### Taking several meters out -/

/-- From one registry to the next, the registered ones of the meters that are
`gone` are taken out and closed, each once. -/
structure TakesOut (r : Registry) (around : Surroundings)
    (gone : MeterKey → Prop) (closings : List Closing) (next : Registry)
    (events : List Event) : Prop where
  once : (closings.map (·.key)).Nodup
  mem_iff : ∀ key, key ∈ closings.map (·.key) ↔
    gone key ∧ (r.get? key).isSome
  registered : ∀ c ∈ closings, r.find? c.key = some c.reference ∧
    (r.get? c.key).map Meter.kind = some c.kind ∧
    ∃ used, c.moment = around used
  next_eq : next = { r.afterClosings closings with children := next.children }
  events_eq : events = closings.map Closing.event

namespace TakesOut

variable {r next : Registry} {around : Surroundings}
  {gone : MeterKey → Prop} {closings : List Closing} {events : List Event}

theorem nothing (r : Registry) (around : Surroundings) :
    r.TakesOut around (fun _ => False) [] r [] :=
  ⟨List.nodup_nil, by simp, by simp, by rw [afterClosings_nil], rfl⟩

theorem congr {other : MeterKey → Prop} (hsame : ∀ key, gone key ↔ other key)
    (h : r.TakesOut around gone closings next events) :
    r.TakesOut around other closings next events :=
  ⟨h.once, fun key => (h.mem_iff key).trans (and_congr_left' (hsame key)),
    h.registered, h.next_eq, h.events_eq⟩

/-- The index of children is no matter of closings. -/
theorem withChildren (h : r.TakesOut around gone closings next events)
    (index : ChildIndex) :
    r.TakesOut around gone closings { next with children := index } events :=
  ⟨h.once, h.mem_iff, h.registered,
    congrArg (fun q : Registry => { q with children := index }) h.next_eq,
    h.events_eq⟩

theorem find?_eq (h : r.TakesOut around gone closings next events)
    (key : MeterKey) :
    next.find? key =
      if key ∈ closings.map (·.key) then none else r.find? key := by
  rw [h.next_eq]
  exact r.find?_afterClosings closings key

/-- What is gone is not registered any more. -/
theorem get?_of_gone (h : r.TakesOut around gone closings next events)
    {key : MeterKey} (hgone : gone key) : next.get? key = none := by
  by_cases hmem : key ∈ closings.map (·.key)
  · simp only [get?, h.find?_eq, if_pos hmem, Option.bind_none]
  · have hkind := kind_get?_afterClosings (r := r) hmem
    have hmissing : r.get? key = none := by
      have hnot := mt (h.mem_iff key).mpr hmem
      simpa [hgone] using hnot
    rw [hmissing, Option.map_none, Option.map_eq_none_iff] at hkind
    rw [h.next_eq]
    exact hkind

/-- What is not gone leads to the meter that it led to. -/
theorem find?_of_not_gone (h : r.TakesOut around gone closings next events)
    {key : MeterKey} (hkept : ¬ gone key) : next.find? key = r.find? key := by
  rw [h.find?_eq, if_neg fun hmem => hkept ((h.mem_iff key).mp hmem).1]

theorem map_id (h : r.TakesOut around gone closings next events) :
    next.made.map Meter.id = r.made.map Meter.id := by
  rw [h.next_eq]
  exact map_afterClosings (fun _ _ => rfl) r closings

theorem wellFormed (h : r.TakesOut around gone closings next events)
    (hr : r.WellFormed) : next.WellFormed := by
  have hsize : next.made.size = r.made.size := by
    have hids := congrArg Array.size h.map_id
    rwa [Array.size_map, Array.size_map] at hids
  have hentries : next.entries.Sublist r.entries := by
    rw [h.next_eq]
    exact List.filter_sublist
  refine ⟨fun e he => ?_, hr.references_nodup.sublist (hentries.map Prod.snd)⟩
  rw [hsize]
  exact hr.lt_size e (hentries.subset he)

/-- A meter that was taken out has been closed once. -/
theorem closed_once (h : r.TakesOut around gone closings next events)
    (hr : r.WellFormed) {c : Closing} (hc : c ∈ closings) :
    next.made[c.reference]? = (r.get? c.key).map (·.close c.moment) := by
  have hfind := (h.registered c hc).1
  have honly : closings.filter (fun other =>
      decide (other.reference = c.reference)) = [c] := by
    apply List.perm_singleton.mp
    apply (List.perm_ext_iff_of_nodup (h.once.of_map.filter _)
      (List.nodup_singleton c)).mpr
    intro other
    rw [List.mem_filter, List.mem_singleton, decide_eq_true_eq]
    constructor
    · rintro ⟨hother, heq⟩
      have hkey := hr.eq_of_find? (h.registered other hother).1
        (hfind.trans (congrArg some heq.symm))
      exact List.inj_on_of_nodup_map h.once hother hc hkey
    · rintro rfl
      exact ⟨hc, rfl⟩
  rw [h.next_eq]
  simp only [getElem?_afterClosings, honly, get?, hfind, Option.bind_some,
    List.foldl_cons, List.foldl_nil]

/-- A meter that is not gone is as it was. -/
theorem get?_of_not_gone (h : r.TakesOut around gone closings next events)
    (hr : r.WellFormed) {key : MeterKey} (hkept : ¬ gone key) :
    next.get? key = r.get? key := by
  simp only [get?, h.find?_of_not_gone hkept]
  rcases hfind : r.find? key with _ | reference
  · rfl
  · have hnone : closings.filter (fun c =>
        decide (c.reference = reference)) = [] := by
      apply List.filter_eq_nil_iff.mpr
      intro c hc hreference
      have heq := hr.eq_of_find? ((h.registered c hc).1.trans
        (congrArg some (of_decide_eq_true hreference))) hfind
      have hmem : c.key ∈ closings.map (·.key) := List.mem_map_of_mem hc
      exact hkept (heq ▸ ((h.mem_iff c.key).mp hmem).1)
    rw [h.next_eq]
    simp [getElem?_afterClosings, hnone]

/-- One more meter is taken out, if it is registered. -/
theorem takeOut (h : r.TakesOut around gone closings next events)
    {key : MeterKey} (hnew : ¬ gone key) (kept : List Meter) :
    ∃ closings', r.TakesOut around (fun other => other = key ∨ gone other)
      closings' (next.takeOut key kept around).value.2
      (events ++ (next.takeOut key kept around).events) := by
  have hkept : key ∉ closings.map (·.key) :=
    fun hmem => hnew ((h.mem_iff key).mp hmem).1
  have hfind : next.find? key = r.find? key := by
    rw [h.find?_eq, if_neg hkept]
  have hkind : (next.get? key).map Meter.kind =
      (r.get? key).map Meter.kind := by
    rw [h.next_eq]
    exact kind_get?_afterClosings hkept
  rcases hget : next.get? key with _ | meter
  · -- what is not registered is skipped
    have hmissing : (r.get? key).isSome = false := by
      rw [hget] at hkind
      simpa using hkind.symm
    rw [takeOut_of_not_registered hget, List.append_nil]
    refine ⟨closings, h.once, fun other => ?_, h.registered, h.next_eq,
      h.events_eq⟩
    rw [h.mem_iff other]
    by_cases heq : other = key
    · subst heq
      simp [hmissing]
    · simp [heq]
  · obtain ⟨reference, hreference, -⟩ := Option.bind_eq_some_iff.mp hget
    rw [takeOut_of_registered hreference hget]
    rw [hget] at hkind
    dsimp only
    refine ⟨closings ++
      [⟨key, reference, meter.kind, around (kept ++ next.meters)⟩],
      ?_, fun other => ?_, ?_, ?_, ?_⟩
    · rw [List.map_append, List.map_cons, List.map_nil]
      exact h.once.append (List.nodup_singleton key)
        (List.disjoint_singleton.mpr hkept)
    · rw [List.map_append, List.mem_append, h.mem_iff other, List.map_cons,
        List.map_nil, List.mem_singleton]
      by_cases heq : other = key
      · subst heq
        have hsome : (r.get? other).isSome := by
          simpa using congrArg Option.isSome hkind.symm
        simp [hsome]
      · simp [heq]
    · intro c hc
      rcases List.mem_append.mp hc with hold | hlast
      · exact h.registered c hold
      · rw [List.mem_singleton] at hlast
        subst hlast
        exact ⟨hfind.symm.trans hreference, hkind.symm, _, rfl⟩
    · rw [afterClosings_append]
      exact congrArg (fun q : Registry => q.afterClosings [_]) h.next_eq
    · rw [h.events_eq, List.map_append, List.map_cons, List.map_nil]

end TakesOut

end Registry

end WindowedMetrics
