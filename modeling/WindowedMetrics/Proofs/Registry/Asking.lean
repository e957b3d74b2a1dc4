/-
What a registration leaves behind when it makes no meter.  Only the filters
can tell: a limit on tag values that is asked before another filter decides
remembers a value that is new to it, whether a meter is made or not.
-/
import WindowedMetrics.Proofs.Registry.Registration

namespace WindowedMetrics

/-! ### What filters learn -/

namespace Filter

/-- Whether a filter remembers something new when it is asked about an
identity: a limit that is not reached, of a value that it does not know. -/
def learns (f : Filter) (id : Id) : Bool :=
  match f with
  | limitTagValues limit =>
      match limit.guarded? id with
      | some value =>
          !limit.admitted.contains value &&
            decide (limit.admitted.length < limit.limit)
      | none => false
  | _ => false

/-- What learns something is a limit, which admits one more value and leaves
the decision to others. -/
theorem judge_of_learns {f : Filter} {id : Id} (hlearns : f.learns id = true) :
    ∃ limit value, f = limitTagValues limit ∧
      limit.guarded? id = some value ∧
      (f.judge id).value = (.neutral, limitTagValues
        { limit with admitted := limit.admitted ++ [value] }) := by
  cases f with
  | limitTagValues limit =>
      cases hguarded : limit.guarded? id with
      | none => simp [learns, hguarded] at hlearns
      | some value =>
          refine ⟨limit, value, rfl, hguarded, ?_⟩
          simp only [learns, hguarded, Bool.and_eq_true, Bool.not_eq_true',
            decide_eq_true_eq] at hlearns
          obtain ⟨hnew, hroom⟩ := hlearns
          have hfull : ¬ limit.limit ≤ limit.admitted.length := by omega
          simp only [judge, TagLimit.judge, hguarded, hnew, hfull,
            Bool.false_eq_true, ↓reduceIte]
  | _ => simp [learns] at hlearns

/-- What learns nothing stays as it is. -/
theorem judge_of_not_learns {f : Filter} {id : Id}
    (hknows : f.learns id = false) : (f.judge id).value.2 = f := by
  cases f with
  | limitTagValues limit =>
      simp only [learns] at hknows
      simp only [judge, TagLimit.judge]
      cases hguarded : limit.guarded? id with
      | none => rfl
      | some value =>
          simp only [hguarded, Bool.and_eq_false_iff, Bool.not_eq_false',
            decide_eq_false_iff_not] at hknows
          by_cases hknown : limit.admitted.contains value = true
          · simp only [hknown, ↓reduceIte]
          · have hfull : limit.limit ≤ limit.admitted.length := by
              have := hknows.resolve_left hknown
              omega
            simp only [hknown, hfull, Bool.false_eq_true, ↓reduceIte]
  | _ => rfl

theorem judge_eq_self_iff (f : Filter) (id : Id) :
    (f.judge id).value.2 = f ↔ f.learns id = false := by
  refine ⟨?_, judge_of_not_learns⟩
  intro hsame
  by_contra hlearns
  obtain ⟨limit, value, rfl, _, hjudge⟩ :=
    judge_of_learns (by simpa using hlearns)
  rw [hjudge, limitTagValues.injEq] at hsame
  have hadmitted := congrArg TagLimit.admitted hsame
  simp at hadmitted

/-- What decides learns nothing. -/
theorem learns_of_decides {f : Filter} {id : Id}
    (hdecides : (f.judge id).value.1 ≠ .neutral) : f.learns id = false := by
  by_contra hlearns
  obtain ⟨_, _, _, _, hjudge⟩ :=
    judge_of_learns (by simpa using hlearns)
  rw [hjudge] at hdecides
  exact hdecides rfl

end Filter

/-! ### What a chain learns -/

section Chain

variable (filters : List Filter) (id : Id)

/-- Whether a filter leaves the decision to those after it. -/
def Filter.defers (id : Id) (f : Filter) : Bool :=
  decide ((f.judge id).value.1 = .neutral)

/-- The filters that are asked before one decides. -/
def undecided : List Filter := filters.takeWhile (Filter.defers id)

/-- The filters after they were asked: those before the decision know what
they learnt. -/
def learnt : List Filter :=
  (undecided filters id).map (fun f => (f.judge id).value.2) ++
    filters.dropWhile (Filter.defers id)

theorem admitByAll_cons_snd (f : Filter) (rest : List Filter) :
    (admitByAll (f :: rest) id).value.2 =
      if f.defers id then
        (f.judge id).value.2 :: (admitByAll rest id).value.2
      else f :: rest := by
  by_cases hdefers : (f.judge id).value.1 = .neutral
  · have hasked : f.defers id = true := decide_eq_true hdefers
    rw [if_pos hasked]
    simp only [admitByAll, hdefers]
  · have hsame := Filter.judge_of_not_learns
      (Filter.learns_of_decides hdefers)
    have hdecided : ¬ f.defers id = true := by
      simpa [Filter.defers] using hdefers
    rw [if_neg hdecided]
    simp only [admitByAll]
    cases hverdict : (f.judge id).value.1 with
    | neutral => exact absurd hverdict hdefers
    | accept => exact congrArg (· :: rest) hsame
    | deny => exact congrArg (· :: rest) hsame

theorem admitByAll_snd : (admitByAll filters id).value.2 =
    learnt filters id := by
  induction filters with
  | nil => rfl
  | cons f rest ih =>
      rw [admitByAll_cons_snd, ih]
      cases hdefers : f.defers id <;>
        simp [learnt, undecided, hdefers]

/-- Asking leaves the filters as they are exactly if nothing is learnt before
the decision. -/
theorem learnt_eq_self_iff : learnt filters id = filters ↔
    ∀ f ∈ undecided filters id, f.learns id = false := by
  have hsplit := List.takeWhile_append_dropWhile (p := Filter.defers id)
    (l := filters)
  have hasked : learnt filters id = filters ↔
      (undecided filters id).map (fun f => (f.judge id).value.2) =
        (undecided filters id).map fun f => f := by
    rw [List.map_id']
    conv_rhs =>
      rw [← List.append_left_inj (filters.dropWhile (Filter.defers id)),
        undecided, hsplit]
    rfl
  rw [hasked, List.map_inj_left]
  simp only [Filter.judge_eq_self_iff]

end Chain

namespace Registry

/-! ### Registrations without a meter -/

/-- The filters after a registration that made no meter of a final identity.
They are asked only if no meter is registered under it. -/
def filtersAfter (r : Registry) (final : Id) : List Filter :=
  if (r.get? final.key).isSome then r.filters else learnt r.filters final

/-- The filters are as before if they are not asked or learn nothing. -/
theorem filtersAfter_eq_self_iff (r : Registry) (final : Id) :
    r.filtersAfter final = r.filters ↔
      (r.get? final.key).isSome = true ∨
        ∀ f ∈ undecided r.filters final, f.learns final = false := by
  unfold filtersAfter
  cases r.get? final.key with
  | none => simp [learnt_eq_self_iff]
  | some existing => simp

section Registering

variable {r : Registry} {id : Id} {own : DistributionSettings} {now : Int}

/-- An open registry that makes no meter changes in its filters alone. -/
theorem register_of_not_made {factory : MeterFactory}
    (hopen : r.closed = false)
    (hnone : ∀ reference,
      (r.register id own factory now).value.1 ≠ .ok (.made reference)) :
    (r.register id own factory now).value.2 =
      { r with filters := r.filtersAfter (mapByAll r.filters id) } := by
  cases hget : r.get? (mapByAll r.filters id).key with
  | some existing =>
      have hkept : r.filtersAfter (mapByAll r.filters id) = r.filters :=
        (filtersAfter_eq_self_iff r _).mpr (.inl (by rw [hget]; rfl))
      rw [hkept]
      obtain ⟨reference, hfind, _⟩ := Option.bind_eq_some_iff.mp hget
      by_cases hkind : existing.kind = id.kind
      · rw [register_of_found id own factory now hopen hfind hget hkind]
      · rw [register_of_conflict id own factory now hopen hfind hget hkind]
  | none =>
      have hasked : r.filtersAfter (mapByAll r.filters id) =
          (admitByAll r.filters (mapByAll r.filters id)).value.2 := by
        rw [filtersAfter, hget, admitByAll_snd]
        rfl
      rw [hasked]
      by_cases hdenied :
          firstVerdict? r.filters (mapByAll r.filters id) = some .deny
      · rw [register_of_denied id own factory now hopen hget hdenied]
      · rw [register_of_new id own factory now hopen hget hdenied] at hnone ⊢
        cases hmade : factory (mapByAll r.filters id)
            (r.resolveConfig id.kind (mapByAll r.filters id) own) r.config
            now with
        | error error => rfl
        | ok meter =>
            rw [hmade] at hnone
            exact absurd rfl (hnone r.made.size)

/-- A registration by kind that fails found the registry open and changes it
in its filters alone. -/
theorem add_of_error {b : Blueprint Source} {error : RegistrationError}
    (hfailed : (r.add b id own now).value.1 = .error error) :
    r.closed = false ∧ (r.add b id own now).value.2 =
      { r with filters := r.filtersAfter (r.finalId b id) } := by
  have hopen : r.closed = false := by
    cases hclosed : r.closed with
    | false => rfl
    | true =>
        have hidle := register_of_closed (id.withKind b.kind) own b.buildTyped
          now hclosed
        have hok := add_of_register hidle (by
          rintro meter ⟨⟩
          exact Meter.kind_idle _)
        rw [hok] at hfailed
        cases hfailed
  refine ⟨hopen, ?_⟩
  rw [registry_add]
  apply register_of_not_made hopen
  intro reference hmade
  have hregister : (r.register (id.withKind b.kind) own b.buildTyped
      now).value = (.ok (.made reference), _) := Prod.ext hmade rfl
  have hok := add_of_register hregister (by simp)
  rw [hok] at hfailed
  cases hfailed

end Registering

end Registry

end WindowedMetrics
