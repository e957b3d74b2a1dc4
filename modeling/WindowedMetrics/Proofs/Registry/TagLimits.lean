/-
Limits on the values of a tag.  Whatever a limit is asked about, and in which
order, it admits no more values than it was made for, and refuses a value
only if it knows as many others.  What it knows when it was asked about
everything decides all verdicts that it gave before: values are admitted for
good, and one that was refused found the limit reached, after which no value
is admitted any more.
-/
import Mathlib.Data.Finset.Card
import WindowedMetrics.Registry.Filter

namespace WindowedMetrics

/-! ### Asking a filter -/

namespace Filter

/-- The verdicts on identities that a filter is asked about one after
another. -/
def verdicts (f : Filter) : List Id → List (Id × Verdict)
  | [] => []
  | id :: rest =>
      (id, (f.judge id).value.1) :: verdicts (f.judge id).value.2 rest

/-- A filter after it was asked about identities. -/
def afterAsking (f : Filter) (ids : List Id) : Filter :=
  ids.foldl (fun f id => (f.judge id).value.2) f

theorem verdicts_append_singleton (f : Filter) (ids : List Id) (next : Id) :
    f.verdicts (ids ++ [next]) = f.verdicts ids ++
      [(next, ((f.afterAsking ids).judge next).value.1)] := by
  induction ids generalizing f with
  | nil => rfl
  | cons id rest ih => exact congrArg (_ :: ·) (ih (f.judge id).value.2)

end Filter

namespace TagLimit

/-- The values that identities under a limit have, those aside that were
refused. -/
def valuesIn (l : TagLimit) (calls : List (Id × Verdict)) : List String :=
  calls.filterMap fun call =>
    if call.2 = .deny then none else l.guarded? call.1

/-- A limit after it was asked about identities. -/
def after (l : TagLimit) (ids : List Id) : TagLimit :=
  ids.foldl (fun l id => (l.judge id).2) l

theorem afterAsking_limitTagValues (l : TagLimit) (ids : List Id) :
    (Filter.limitTagValues l).afterAsking ids =
      .limitTagValues (l.after ids) := by
  induction ids generalizing l with
  | nil => rfl
  | cons id rest ih => exact ih (l.judge id).2

theorem judge_limitTagValues (l : TagLimit) (id : Id) :
    ((Filter.limitTagValues l).judge id).value =
      ((l.judge id).1, .limitTagValues (l.judge id).2) := rfl

theorem verdicts_cons (l : TagLimit) (id : Id) (rest : List Id) :
    (Filter.limitTagValues l).verdicts (id :: rest) =
      (id, (l.judge id).1) ::
        (Filter.limitTagValues (l.judge id).2).verdicts rest := rfl

/-! ### One verdict -/

/-- The ways in which a limit answers: it does not apply, it knows the value,
it is reached, or it admits one more value. -/
inductive Answers (l : TagLimit) (id : Id) : Verdict × TagLimit → Prop
  | apart (hguarded : l.guarded? id = none) : Answers l id (.neutral, l)
  | known {value : String} (hguarded : l.guarded? id = some value)
      (hknown : value ∈ l.admitted) : Answers l id (.neutral, l)
  | full {value : String} (hguarded : l.guarded? id = some value)
      (hnew : value ∉ l.admitted) (hfull : l.limit ≤ l.admitted.length) :
      Answers l id (.deny, l)
  | room {value : String} (hguarded : l.guarded? id = some value)
      (hnew : value ∉ l.admitted) (hroom : l.admitted.length < l.limit) :
      Answers l id
        (.neutral, { l with admitted := l.admitted ++ [value] })

theorem answers_judge (l : TagLimit) (id : Id) :
    l.Answers id (l.judge id) := by
  unfold judge
  cases hguarded : l.guarded? id with
  | none => exact .apart hguarded
  | some value =>
      simp only [List.contains_iff_mem]
      split
      · exact .known hguarded ‹_›
      · split
        · exact .full hguarded ‹_› ‹_›
        · exact .room hguarded ‹_› (by omega)

/-- All that a limit does is to admit values. -/
theorem exists_judge_snd (l : TagLimit) (id : Id) :
    ∃ more, (l.judge id).2 = { l with admitted := l.admitted ++ more } := by
  have hanswer := l.answers_judge id
  generalize l.judge id = outcome at hanswer
  cases hanswer with
  | room => exact ⟨_, rfl⟩
  | _ => exact ⟨[], by rw [List.append_nil]⟩

theorem exists_after (l : TagLimit) (ids : List Id) :
    ∃ more, l.after ids = { l with admitted := l.admitted ++ more } := by
  induction ids generalizing l with
  | nil => exact ⟨[], by rw [List.append_nil]; rfl⟩
  | cons id rest ih =>
      obtain ⟨more, hjudge⟩ := l.exists_judge_snd id
      obtain ⟨others, hafter⟩ := ih (l.judge id).2
      refine ⟨more ++ others, ?_⟩
      change (l.judge id).2.after rest = _
      rw [hafter, hjudge, List.append_assoc]

theorem guarded?_judge (l : TagLimit) (id : Id) :
    (l.judge id).2.guarded? = l.guarded? := by
  obtain ⟨more, hjudge⟩ := l.exists_judge_snd id
  rw [hjudge]
  rfl

theorem admitted_subset_after (l : TagLimit) (ids : List Id) :
    l.admitted ⊆ (l.after ids).admitted := by
  obtain ⟨more, hafter⟩ := l.exists_after ids
  rw [hafter]
  exact List.subset_append_left _ _

variable {l : TagLimit} {calls : List (Id × Verdict)}

/-- A limit that is reached stays as it is. -/
theorem after_of_full (hfull : l.limit ≤ l.admitted.length) (ids : List Id) :
    l.after ids = l := by
  induction ids with
  | nil => rfl
  | cons id rest ih =>
      have hsame : (l.judge id).2 = l := by
        have hanswer := l.answers_judge id
        generalize l.judge id = outcome at hanswer
        cases hanswer with
        | room _ _ hroom => omega
        | _ => rfl
      change (l.judge id).2.after rest = l
      rw [hsame, ih]

/-! ### What a limit knows -/

/-- A limit knows the values in the calls that it answered, each once, and no
more than it may. -/
structure Remembers (l : TagLimit) (calls : List (Id × Verdict)) : Prop where
  nodup : l.admitted.Nodup
  length_le : l.admitted.length ≤ l.limit
  mem_iff : ∀ value, value ∈ l.admitted ↔ value ∈ l.valuesIn calls

theorem remembers_nil {start key : String} {limit : Nat} :
    (TagLimit.mk start key limit []).Remembers [] :=
  ⟨List.nodup_nil, Nat.zero_le limit, fun _ => Iff.rfl⟩

theorem mem_valuesIn_append_singleton {id : Id} {verdict : Verdict}
    {value : String} :
    value ∈ l.valuesIn (calls ++ [(id, verdict)]) ↔
      value ∈ l.valuesIn calls ∨
        verdict ≠ .deny ∧ l.guarded? id = some value := by
  simp [valuesIn, List.filterMap_append]

/-- One more answer keeps a limit and its calls in line. -/
theorem Remembers.judge (h : l.Remembers calls) (id : Id) :
    (l.judge id).2.Remembers (calls ++ [(id, (l.judge id).1)]) := by
  have hanswer := l.answers_judge id
  generalize l.judge id = outcome at hanswer
  cases hanswer with
  | apart hguarded =>
      refine ⟨h.nodup, h.length_le, fun value => ?_⟩
      rw [h.mem_iff, mem_valuesIn_append_singleton, hguarded]
      simp
  | known hguarded hknown =>
      refine ⟨h.nodup, h.length_le, fun value => ?_⟩
      rw [h.mem_iff, mem_valuesIn_append_singleton, hguarded]
      refine ⟨.inl, ?_⟩
      rintro (hold | ⟨-, heq⟩)
      · exact hold
      · obtain rfl := Option.some.inj heq
        exact (h.mem_iff _).mp hknown
  | full =>
      refine ⟨h.nodup, h.length_le, fun value => ?_⟩
      rw [h.mem_iff, mem_valuesIn_append_singleton]
      simp
  | room hguarded hnew hroom =>
      refine ⟨?_, ?_, fun other => ?_⟩
      · rw [List.nodup_append_comm]
        exact List.nodup_cons.mpr ⟨hnew, h.nodup⟩
      · rw [List.length_append]
        exact hroom
      · change _ ↔ other ∈ l.valuesIn (calls ++ [(id, .neutral)])
        rw [List.mem_append, List.mem_singleton, h.mem_iff,
          mem_valuesIn_append_singleton, hguarded, Option.some.injEq]
        simp [eq_comm]

theorem Remembers.after (h : l.Remembers calls) (ids : List Id) :
    (l.after ids).Remembers
      (calls ++ (Filter.limitTagValues l).verdicts ids) := by
  induction ids generalizing l calls with
  | nil =>
      rw [Filter.verdicts, List.append_nil]
      exact h
  | cons id rest ih =>
      have hrest := ih (h.judge id)
      rw [List.append_assoc] at hrest
      exact hrest

/-- The number of different values in the calls that were answered. -/
theorem Remembers.card_valuesIn (h : l.Remembers calls) :
    (l.valuesIn calls).toFinset.card = l.admitted.length := by
  have hsame : (l.valuesIn calls).toFinset = l.admitted.toFinset := by
    ext value
    rw [List.mem_toFinset, List.mem_toFinset, h.mem_iff]
  rw [hsame, List.toFinset_card_of_nodup h.nodup]

/-- A value is refused exactly if it is new and the limit is reached. -/
theorem Remembers.judge_eq_deny_iff (h : l.Remembers calls) {id : Id}
    {value : String} (hguarded : l.guarded? id = some value) :
    (l.judge id).1 = .deny ↔ value ∉ l.valuesIn calls ∧
      (l.valuesIn calls).toFinset.card = l.limit := by
  rw [← h.mem_iff, h.card_valuesIn]
  have hanswer := l.answers_judge id
  generalize l.judge id = outcome at hanswer
  cases hanswer with
  | apart hnone =>
      rw [hguarded] at hnone
      cases hnone
  | known hsome hknown =>
      obtain rfl := Option.some.inj (hguarded.symm.trans hsome)
      exact ⟨nofun, fun hnew => absurd hknown hnew.1⟩
  | full hsome hnew hfull =>
      obtain rfl := Option.some.inj (hguarded.symm.trans hsome)
      exact ⟨fun _ => ⟨hnew, Nat.le_antisymm h.length_le hfull⟩, fun _ => rfl⟩
  | room hsome hnew hroom =>
      exact ⟨nofun, fun hfull => absurd hfull.2 (Nat.ne_of_lt hroom)⟩

/-! ### All verdicts -/

/-- A verdict is what follows from what the limit knows in the end: what it
knows then was admitted, and all else was refused. -/
theorem verdict_eq_of_mem {ids : List Id} {call : Id × Verdict}
    (hcall : call ∈ (Filter.limitTagValues l).verdicts ids) {value : String}
    (hguarded : l.guarded? call.1 = some value) :
    call.2 = if value ∈ (l.after ids).admitted then .neutral else .deny := by
  induction ids generalizing l with
  | nil => cases hcall
  | cons id rest ih =>
      change call.2 = if value ∈ ((l.judge id).2.after rest).admitted then _
        else _
      rw [verdicts_cons] at hcall
      rcases List.mem_cons.mp hcall with rfl | hcall
      · have hanswer := l.answers_judge id
        generalize l.judge id = outcome at hanswer
        cases hanswer with
        | apart hnone =>
            rw [hguarded] at hnone
            cases hnone
        | known hsome hknown =>
            obtain rfl := Option.some.inj (hguarded.symm.trans hsome)
            rw [if_pos (admitted_subset_after l rest hknown)]
        | full hsome hnew hfull =>
            obtain rfl := Option.some.inj (hguarded.symm.trans hsome)
            rw [after_of_full hfull, if_neg hnew]
        | room hsome =>
            obtain rfl := Option.some.inj (hguarded.symm.trans hsome)
            rw [if_pos]
            apply admitted_subset_after
            exact List.mem_append_right _ List.mem_cons_self
      · exact ih hcall (by rw [guarded?_judge, hguarded])

/-- Asked about any identities in any order, a limit has passed no more values
than it allows, and every value has one verdict in all calls.  The next value
is refused exactly if it was not passed before and the limit is reached.  An
identity apart from the limit has a neutral verdict and takes no place. -/
theorem tag_values_stay_limited (start key : String) (limit : Nat)
    (ids : List Id) (next : Id) :
    let fresh : TagLimit := ⟨start, key, limit, []⟩
    let calls := (Filter.limitTagValues fresh).verdicts ids
    let asked := (Filter.limitTagValues fresh).afterAsking ids
    let verdict := (asked.judge next).value.1
    (Filter.limitTagValues fresh).verdicts (ids ++ [next]) =
      calls ++ [(next, verdict)] ∧
    (∀ value, fresh.guarded? next = some value ↔
      next.nameStartsWith start = true ∧ next.tag? key = some value) ∧
    (fresh.valuesIn calls).toFinset.card ≤ limit ∧
    (∀ value, fresh.guarded? next = some value →
      (verdict = .deny ↔ value ∉ fresh.valuesIn calls ∧
        (fresh.valuesIn calls).toFinset.card = limit)) ∧
    (∀ call ∈ calls, ∀ other ∈ calls, ∀ value,
      fresh.guarded? call.1 = some value →
        fresh.guarded? other.1 = some value → call.2 = other.2) ∧
    (fresh.guarded? next = none →
      (asked.judge next).value = (.neutral, asked)) := by
  intro fresh calls asked verdict
  have hafter : (fresh.after ids).Remembers calls := remembers_nil.after ids
  obtain ⟨more, hfrom⟩ := fresh.exists_after ids
  have hguarded : (fresh.after ids).guarded? = fresh.guarded? := by
    rw [hfrom]
    rfl
  have hvalues : (fresh.after ids).valuesIn calls = fresh.valuesIn calls := by
    rw [valuesIn, hguarded]
    rfl
  have hlimit : (fresh.after ids).limit = limit := by
    rw [hfrom]
  have hasked : asked = .limitTagValues (fresh.after ids) :=
    afterAsking_limitTagValues fresh ids
  have hverdict : verdict = ((fresh.after ids).judge next).1 :=
    congrArg (fun f : Filter => (f.judge next).value.1) hasked
  refine ⟨Filter.verdicts_append_singleton _ ids next, fun value => ?_, ?_,
    fun value hvalue => ?_, ?_, fun hnone => ?_⟩
  · simp [guarded?, fresh]
  · rw [← hvalues, hafter.card_valuesIn, ← hlimit]
    exact hafter.length_le
  · rw [← hguarded] at hvalue
    rw [hverdict, hafter.judge_eq_deny_iff hvalue, hvalues, hlimit]
  · intro call hcall other hother value hvalue hsame
    rw [verdict_eq_of_mem hcall hvalue, verdict_eq_of_mem hother hsame]
  · have hjudge : (fresh.after ids).judge next =
        (.neutral, fresh.after ids) := by
      rw [judge, hguarded, hnone]
    rw [hasked, judge_limitTagValues, hjudge]

/-- Two values reach a limit of two; a third one is refused again and again,
while meters apart and known values go on as before. -/
theorem tag_values_stay_limited_of_paths :
    let path := fun value => Id.named "http.requests" [⟨"uri", value⟩]
    let fresh : TagLimit := ⟨"http", "uri", 2, []⟩
    let ids := [path "/a", path "/b", Id.named "db.calls" [⟨"uri", "/c"⟩],
      path "/c", path "/a"]
    let calls := (Filter.limitTagValues fresh).verdicts ids
    let asked := (Filter.limitTagValues fresh).afterAsking ids
    fresh.guarded? (path "/c") = some "/c" ∧
      fresh.valuesIn calls = ["/a", "/b", "/a"] ∧
      (asked.judge (path "/c")).value.1 = .deny ∧
      calls.map Prod.snd = [.neutral, .neutral, .neutral, .deny, .neutral] ∧
      fresh.guarded? (Id.named "db.calls" []) = none ∧
      (asked.judge (Id.named "db.calls" [])).value = (.neutral, asked) := by
  intro path fresh ids calls asked
  have hguarded : fresh.guarded? (path "/c") = some "/c" := by
    decide +kernel
  have hapart : fresh.guarded? (Id.named "db.calls" []) = none := by
    decide +kernel
  have hvalues : fresh.valuesIn calls = ["/a", "/b", "/a"] := by
    decide +kernel
  have hverdicts : calls.map Prod.snd =
      [.neutral, .neutral, .neutral, .deny, .neutral] := by
    decide +kernel
  have hfull : "/c" ∉ fresh.valuesIn calls ∧
      (fresh.valuesIn calls).toFinset.card = 2 := by
    rw [hvalues]
    decide +kernel
  clear_value ids
  obtain ⟨-, -, -, hdenied, -⟩ :=
    tag_values_stay_limited "http" "uri" 2 ids (path "/c")
  obtain ⟨-, -, -, -, -, hneutral⟩ :=
    tag_values_stay_limited "http" "uri" 2 ids (Id.named "db.calls" [])
  exact ⟨hguarded, hvalues, (hdenied "/c" hguarded).mpr hfull, hverdicts,
    hapart, hneutral hapart⟩

end TagLimit

end WindowedMetrics
