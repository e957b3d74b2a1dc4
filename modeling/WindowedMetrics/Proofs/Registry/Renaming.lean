/-
Renaming a tag.  The value moves to the new key, and nothing else changes,
unless the new key is there already: then the tag that came later among the
old keys stays.
-/
import WindowedMetrics.Proofs.Identity.Canonical

namespace WindowedMetrics

/-! ### Renamed tags in a list -/

section Renamed

variable {source target : String}

/-- A tag with one key renamed. -/
def renamedTag (source target : String) (tag : Tag) : Tag :=
  if tag.key = source then ⟨target, tag.value⟩ else tag

theorem value_renamedTag (tag : Tag) :
    (renamedTag source target tag).value = tag.value := by
  unfold renamedTag
  split <;> rfl

theorem key_renamedTag (tag : Tag) :
    (renamedTag source target tag).key =
      if tag.key = source then target else tag.key := by
  unfold renamedTag
  split <;> rfl

theorem renamedTags_eq (tags : Tags) :
    Filter.renamedTags tags source target =
      Tags.ofList (tags.toList.map (renamedTag source target)) := rfl

/-- The old key is gone. -/
theorem lastValue?_map_source (hne : source ≠ target) (tags : List Tag) :
    lastValue? (tags.map (renamedTag source target)) source = none := by
  refine firstValue?_eq_none fun tag htag => ?_
  obtain ⟨old, -, rfl⟩ := List.mem_map.mp (List.mem_reverse.mp htag)
  rw [key_renamedTag]
  split
  · exact hne.symm
  · assumption

/-- Keys that are neither the old nor the new one keep their values. -/
theorem lastValue?_map_other {key : String} (hsource : key ≠ source)
    (htarget : key ≠ target) (tags : List Tag) :
    lastValue? (tags.map (renamedTag source target)) key =
      lastValue? tags key := by
  induction tags with
  | nil => rfl
  | cons tag rest ih =>
      rw [List.map_cons, lastValue?_cons, lastValue?_cons, ih,
        value_renamedTag, key_renamedTag]
      by_cases hkey : tag.key = source
      · rw [if_pos hkey, if_neg htarget.symm, if_neg fun heq =>
          hsource (heq.symm.trans hkey)]
      · rw [if_neg hkey]

/-- The new key has the value of the later one of the two old keys. -/
theorem lastValue?_map_target (hne : source ≠ target) {tags : List Tag}
    (h : AscendingKeys tags) :
    lastValue? (tags.map (renamedTag source target)) target =
      if source < target then
        (firstValue? tags target).or (firstValue? tags source)
      else (firstValue? tags source).or (firstValue? tags target) := by
  induction tags with
  | nil => split <;> rfl
  | cons head rest ih =>
      obtain ⟨hfirst, hrest⟩ := h.of_cons
      have habsent {key : String} (hkey : ¬ head.key < key) :
          firstValue? rest key = none :=
        firstValue?_eq_none fun tag htag heq => hkey (heq ▸ hfirst tag htag)
      rw [List.map_cons, lastValue?_cons, ih hrest, value_renamedTag,
        key_renamedTag, firstValue?_cons, firstValue?_cons]
      by_cases hsource : head.key = source
      · have hgone : firstValue? rest source = none :=
          habsent (hsource ▸ String.lt_irrefl source)
        by_cases horder : source < target
        · simp [hsource, hgone, hne, horder]
        · have htarget := habsent (hsource ▸ horder)
          simp [hsource, hgone, htarget, horder]
      by_cases htarget : head.key = target
      · have hgone : firstValue? rest target = none :=
          habsent (htarget ▸ String.lt_irrefl target)
        by_cases horder : source < target
        · have hbefore : ¬ head.key < source := fun hlt =>
            String.lt_irrefl _ (String.lt_trans (htarget ▸ hlt) horder)
          simp [htarget, hne.symm, hgone, habsent hbefore, horder]
        · simp [htarget, hne.symm, hgone, horder]
      · simp [hsource, htarget]

end Renamed

/-! ### Renamed tags of an identity -/

theorem Tags.contains_eq (tags : Tags) (key : String) :
    tags.contains key = (tags.get? key).isSome := rfl

namespace Filter

variable {start source target : String} {id : Id}

theorem map_renameTag_of_applies (hname : id.nameStartsWith start = true)
    {value : String} (htag : id.tag? source = some value) :
    (renameTag start source target).map id =
      id.withTags (renamedTags id.tags source target) := by
  have hcontains : id.tags.contains source = true := by
    rw [Tags.contains_eq, ← Id.tag?, htag]
    rfl
  simp only [map, hname, hcontains, Bool.and_self, ↓reduceIte]

theorem map_renameTag_of_not_applies
    (hnot : id.nameStartsWith start = false ∨ id.tag? source = none) :
    (renameTag start source target).map id = id := by
  obtain hname | htag := hnot
  · simp only [map, hname, Bool.false_and, Bool.false_eq_true, ↓reduceIte]
  · have hcontains : id.tags.contains source = false := by
      rw [Tags.contains_eq, ← Id.tag?, htag]
      rfl
    simp only [map, hcontains, Bool.and_false, Bool.false_eq_true, ↓reduceIte]

/-- Renaming moves the value of a tag to the new key and leaves all else as it
is.  Where the new key is there already, the later one of the two keys keeps
its value: the value that is moved gets lost if the new key comes after the
old one.  Identities without the tag, or of another name, stay as they are,
and renaming again changes nothing. -/
theorem renameTag_moves_value (hne : source ≠ target) :
    let rename := (renameTag start source target).map
    (∀ (id : Id) (value : String), id.nameStartsWith start = true →
      id.tag? source = some value →
      (rename id).tag? source = none ∧
      (rename id).tag? target =
        (if source < target then some ((id.tag? target).getD value)
        else some value) ∧
      (∀ key, key ≠ source → key ≠ target →
        (rename id).tag? key = id.tag? key) ∧
      rename id = id.withTags (rename id).tags) ∧
    (∀ id : Id, id.nameStartsWith start = false ∨ id.tag? source = none →
      rename id = id) ∧
    ∀ id : Id, rename (rename id) = rename id := by
  intro rename
  have happlies (id : Id) (value : String)
      (hname : id.nameStartsWith start = true)
      (htag : id.tag? source = some value) :
      rename id = id.withTags (renamedTags id.tags source target) :=
    map_renameTag_of_applies hname htag
  have hgone (id : Id) (value : String)
      (hname : id.nameStartsWith start = true)
      (htag : id.tag? source = some value) :
      (rename id).tag? source = none := by
    rw [happlies id value hname htag]
    simp only [Id.tag?, Id.withTags, renamedTags_eq, Tags.get?_ofList,
      lastValue?_map_source hne]
  refine ⟨?_, fun id => map_renameTag_of_not_applies, ?_⟩
  · intro id value hname htag
    refine ⟨hgone id value hname htag, ?_, ?_, ?_⟩
    · have hsource : firstValue? id.tags.toList source = some value := htag
      rw [happlies id value hname htag]
      simp only [Id.tag?, Id.withTags, renamedTags_eq, Tags.get?_ofList,
        lastValue?_map_target hne id.tags.ascending, hsource, ← Tags.get?_eq]
      split
      · cases id.tags.get? target <;> rfl
      · rfl
    · intro key hkey hother
      rw [happlies id value hname htag]
      simp only [Id.tag?, Id.withTags, renamedTags_eq, Tags.get?_ofList,
        lastValue?_map_other hkey hother, Tags.lastValue?_toList]
    · rw [happlies id value hname htag]
      rfl
  · intro id
    by_cases hnot : id.nameStartsWith start = false ∨ id.tag? source = none
    · rw [show rename id = id from map_renameTag_of_not_applies hnot]
      exact map_renameTag_of_not_applies hnot
    · obtain ⟨hname, htag⟩ := not_or.mp hnot
      obtain ⟨value, hvalue⟩ := Option.ne_none_iff_exists'.mp htag
      exact map_renameTag_of_not_applies
        (.inr (hgone id value (eq_true_of_ne_false hname) hvalue))

/-- The status of a request moves to a key of its own. -/
theorem renameTag_moves_value_of_status :
    let id := Id.named "http.requests" [⟨"status", "200"⟩, ⟨"uri", "/"⟩]
    let renamed := (renameTag "http" "status" "code").map id
    ("status" : String) ≠ "code" ∧ id.nameStartsWith "http" = true ∧
      id.tag? "status" = some "200" ∧ renamed.tag? "status" = none ∧
      renamed.tag? "code" = some "200" ∧ renamed.tag? "uri" = some "/" := by
  intro id renamed
  have hne : ("status" : String) ≠ "code" := by decide
  have hname : id.nameStartsWith "http" = true := by decide
  have htag : id.tag? "status" = some "200" := by decide
  obtain ⟨hrenamed, _⟩ := renameTag_moves_value hne
  obtain ⟨hgone, hmoved, hothers, _⟩ := hrenamed id "200" hname htag
  exact ⟨hne, hname, htag, hgone, hmoved.trans (by decide),
    (hothers "uri" (by decide) (by decide)).trans (by decide)⟩

/-- A status that is there already wins over a code that is renamed to it,
since it comes after the code, and the code is lost; the other way round the
status wins as well. -/
theorem exists_value_lost_by_order :
    ∃ id : Id, id.nameStartsWith "http" = true ∧
      id.tag? "code" = some "200" ∧ id.tag? "status" = some "ok" ∧
      ((renameTag "http" "code" "status").map id).tag? "status" =
        some "ok" ∧
      ((renameTag "http" "status" "code").map id).tag? "code" =
        some "ok" := by
  refine ⟨.named "http.requests" [⟨"code", "200"⟩, ⟨"status", "ok"⟩], ?_⟩
  decide

end Filter

end WindowedMetrics
