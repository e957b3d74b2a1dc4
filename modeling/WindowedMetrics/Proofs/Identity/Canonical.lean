/-
Tags are canonical.  For each key they have the last value that was given,
and tags that agree on every key are equal, so that the order in which pairs
were given and the way in which they were put together leave no trace.  Tags
may be sorted by the bytes of their keys, keeping the last of each key, and
looked up by halving: it comes to the same.
-/
import WindowedMetrics.Proofs.Text.ByteOrder
import WindowedMetrics.Registry.Filter

namespace WindowedMetrics

/-! ### Values of keys in lists -/

/-- The value of the first tag with a key. -/
def firstValue? (tags : List Tag) (key : String) : Option String :=
  (tags.find? fun tag => decide (tag.key = key)).map Tag.value

/-- The value of the last tag with a key. -/
def lastValue? (tags : List Tag) (key : String) : Option String :=
  firstValue? tags.reverse key

theorem firstValue?_cons (tag : Tag) (tags : List Tag) (key : String) :
    firstValue? (tag :: tags) key =
      if tag.key = key then some tag.value else firstValue? tags key := by
  by_cases hkey : tag.key = key <;> simp [firstValue?, hkey]

theorem firstValue?_append (tags more : List Tag) (key : String) :
    firstValue? (tags ++ more) key =
      (firstValue? tags key).or (firstValue? more key) := by
  induction tags with
  | nil => rfl
  | cons tag rest ih =>
      rw [List.cons_append, firstValue?_cons, firstValue?_cons, ih]
      split <;> rfl

theorem lastValue?_append (tags more : List Tag) (key : String) :
    lastValue? (tags ++ more) key =
      (lastValue? more key).or (lastValue? tags key) := by
  rw [lastValue?, List.reverse_append, firstValue?_append]
  rfl

theorem lastValue?_cons (tag : Tag) (tags : List Tag) (key : String) :
    lastValue? (tag :: tags) key =
      (lastValue? tags key).or
        (if tag.key = key then some tag.value else none) := by
  rw [← List.singleton_append, lastValue?_append]
  congr 1
  exact firstValue?_cons tag [] key

theorem firstValue?_eq_none {tags : List Tag} {key : String}
    (h : ∀ tag ∈ tags, tag.key ≠ key) : firstValue? tags key = none := by
  simpa [firstValue?] using h

theorem Tags.get?_eq (tags : Tags) (key : String) :
    tags.get? key = firstValue? tags.toList key := rfl

/-! ### Ascending lists -/

namespace AscendingKeys

theorem of_cons {head : Tag} {rest : List Tag}
    (h : AscendingKeys (head :: rest)) :
    (∀ tag ∈ rest, head.key < tag.key) ∧ AscendingKeys rest :=
  List.pairwise_cons.mp h

/-- In an ascending list no key comes a second time. -/
theorem mem_iff {tags : List Tag} (h : AscendingKeys tags) (tag : Tag) :
    tag ∈ tags ↔ firstValue? tags tag.key = some tag.value := by
  induction tags with
  | nil => simp [firstValue?]
  | cons head rest ih =>
      obtain ⟨hfirst, hrest⟩ := h.of_cons
      rw [List.mem_cons, firstValue?_cons, ih hrest]
      by_cases hkey : head.key = tag.key
      · have hnone : firstValue? rest tag.key = none :=
          firstValue?_eq_none fun other hother heq =>
            String.lt_irrefl _ (hkey ▸ heq ▸ hfirst other hother)
        rw [if_pos hkey, hnone]
        constructor
        · rintro (rfl | hmem)
          · rfl
          · cases hmem
        · intro hvalue
          left
          cases tag
          cases head
          simp_all
      · rw [if_neg hkey]
        constructor
        · rintro (rfl | hmem)
          · exact absurd rfl hkey
          · exact hmem
        · exact .inr

theorem nodup {tags : List Tag} (h : AscendingKeys tags) : tags.Nodup := by
  refine List.Pairwise.imp ?_ h
  rintro a b hlt rfl
  exact String.lt_irrefl _ hlt

/-- Ascending lists that agree on every key are equal. -/
theorem ext {tags others : List Tag} (h : AscendingKeys tags)
    (hothers : AscendingKeys others)
    (hagree : ∀ key, firstValue? tags key = firstValue? others key) :
    tags = others := by
  have hperm : tags.Perm others := by
    rw [List.perm_ext_iff_of_nodup h.nodup hothers.nodup]
    intro tag
    rw [h.mem_iff, hothers.mem_iff, hagree]
  refine hperm.eq_of_pairwise ?_ h hothers
  intro a b _ _ hab hba
  exact absurd (String.lt_trans hab hba) (String.lt_irrefl _)

theorem lastValue?_eq {tags : List Tag} (h : AscendingKeys tags)
    (key : String) : lastValue? tags key = firstValue? tags key := by
  induction tags with
  | nil => rfl
  | cons head rest ih =>
      obtain ⟨hfirst, hrest⟩ := h.of_cons
      rw [lastValue?_cons, firstValue?_cons, ih hrest]
      by_cases hkey : head.key = key
      · have hnone : firstValue? rest key = none :=
          firstValue?_eq_none fun other hother heq =>
            String.lt_irrefl _ (hkey ▸ heq ▸ hfirst other hother)
        rw [hnone, Option.none_or, if_pos hkey]
      · rw [if_neg hkey, if_neg hkey, Option.or_none]

end AscendingKeys

/-! ### Putting tags together -/

theorem firstValue?_insertTag (tag : Tag) (tags : List Tag) (key : String) :
    firstValue? (insertTag tag tags) key =
      if tag.key = key then some tag.value else firstValue? tags key := by
  induction tags with
  | nil => exact firstValue?_cons tag [] key
  | cons head rest ih =>
      unfold insertTag
      split
      · exact firstValue?_cons tag (head :: rest) key
      · split
        · rename_i heq
          rw [firstValue?_cons, firstValue?_cons, ← heq]
          split <;> rfl
        · rename_i hne
          rw [firstValue?_cons, firstValue?_cons, ih]
          by_cases hhead : head.key = key
          · rw [if_pos hhead, if_pos hhead, if_neg fun htag =>
              hne (htag.trans hhead.symm)]
          · rw [if_neg hhead, if_neg hhead]

namespace Tags

theorem get?_insert (tags : Tags) (tag : Tag) (key : String) :
    (tags.insert tag).get? key =
      if tag.key = key then some tag.value else tags.get? key :=
  firstValue?_insertTag tag tags.toList key

/-- Added tags come before those that were there, and the last before all
others. -/
theorem get?_and (tags : Tags) (more : List Tag) (key : String) :
    (tags.and more).get? key = (lastValue? more key).or (tags.get? key) := by
  induction more generalizing tags with
  | nil => rfl
  | cons tag rest ih =>
      have hfold : tags.and (tag :: rest) = (tags.insert tag).and rest := rfl
      rw [hfold, ih, get?_insert, lastValue?_cons, Option.or_assoc]
      congr 1
      split <;> rfl

@[simp] theorem get?_empty (key : String) : empty.get? key = none := rfl

@[simp] theorem get?_ofList (pairs : List Tag) (key : String) :
    (ofList pairs).get? key = lastValue? pairs key := by
  rw [ofList, get?_and, get?_empty, Option.or_none]

/-- Tags are told apart by their values alone. -/
theorem eq_iff_get?_eq {a b : Tags} :
    a = b ↔ ∀ key, a.get? key = b.get? key := by
  constructor
  · rintro rfl key
    rfl
  · intro hagree
    cases a
    cases b
    congr
    exact AscendingKeys.ext ‹_› ‹_› hagree

theorem lastValue?_toList (tags : Tags) (key : String) :
    lastValue? tags.toList key = tags.get? key :=
  tags.ascending.lastValue?_eq key

@[simp] theorem ofList_toList (tags : Tags) : ofList tags.toList = tags := by
  simp [eq_iff_get?_eq, lastValue?_toList]

theorem ofList_append (pairs more : List Tag) :
    ofList (pairs ++ more) = (ofList pairs).and more :=
  List.foldl_append

theorem and_assoc (a b c : Tags) :
    (a.and b.toList).and c.toList = a.and (b.and c.toList).toList := by
  simp [eq_iff_get?_eq, get?_and, lastValue?_toList, Option.or_assoc]

end Tags

/-- With distinct keys there is one value for each, wherever it is. -/
theorem lastValue?_eq_of_perm {pairs others : List Tag}
    (hperm : pairs.Perm others) (hdistinct : (pairs.map Tag.key).Nodup)
    (key : String) : lastValue? pairs key = lastValue? others key := by
  induction hperm with
  | nil => rfl
  | cons tag _ ih =>
      rw [lastValue?_cons, lastValue?_cons, ih (List.nodup_cons.mp hdistinct).2]
  | swap first second rest =>
      have hne : second.key ≠ first.key := by
        rintro heq
        simp [heq] at hdistinct
      simp only [lastValue?_cons, Option.or_assoc]
      congr 1
      by_cases hfirst : first.key = key
      · rw [if_pos hfirst, if_neg fun hsecond =>
          hne (hsecond.trans hfirst.symm)]
        rfl
      · rw [if_neg hfirst, Option.or_none, Option.none_or]
  | trans hleft _ ihleft ihright =>
      exact (ihleft hdistinct).trans
        (ihright ((hleft.map Tag.key).nodup_iff.mp hdistinct))

/-! ### Sorting -/

/-- Whether a key does not come after another, byte by byte. -/
def keyLe (a b : Tag) : Bool := decide (utf8Bytes a.key ≤ utf8Bytes b.key)

/-- Tags by their keys; those with the same key stay in their order. -/
def sortByKey (tags : List Tag) : List Tag := tags.mergeSort keyLe

/-- Adds a tag at the end, in place of the last one if that has the same
key. -/
def keepLast (kept : List Tag) (tag : Tag) : List Tag :=
  match kept.getLast? with
  | some last =>
      if last.key = tag.key then kept.dropLast ++ [tag] else kept ++ [tag]
  | none => kept ++ [tag]

/-- Keeps the last one of neighbours with the same key. -/
def compact (tags : List Tag) : List Tag := tags.foldl keepLast []

theorem keepLast_cons_cons (head next : Tag) (rest : List Tag) (tag : Tag) :
    keepLast (head :: next :: rest) tag =
      head :: keepLast (next :: rest) tag := by
  simp only [keepLast, List.getLast?_cons_cons]
  cases hlast : (next :: rest).getLast? with
  | none => simp at hlast
  | some last =>
      simp only [List.dropLast_cons_cons]
      split <;> rfl

/-- A tag that is not below any other is inserted at the end. -/
theorem keepLast_eq_insertTag {kept : List Tag} (h : AscendingKeys kept)
    {tag : Tag} (hle : ∀ other ∈ kept, other.key ≤ tag.key) :
    keepLast kept tag = insertTag tag kept := by
  induction kept with
  | nil => rfl
  | cons head rest ih =>
      obtain ⟨hfirst, hrest⟩ := h.of_cons
      have hnot : ¬ tag.key < head.key := hle head List.mem_cons_self
      have htail := fun other hother =>
        hle other (List.mem_cons_of_mem head hother)
      rw [insertTag, if_neg hnot]
      cases rest with
      | nil =>
          by_cases hkey : tag.key = head.key
          · simp [keepLast, hkey]
          · simp [keepLast, hkey, Ne.symm hkey, insertTag]
      | cons next rest =>
          have hne : tag.key ≠ head.key := fun heq =>
            htail next List.mem_cons_self
              (heq ▸ hfirst next List.mem_cons_self)
          rw [if_neg hne, keepLast_cons_cons, ih hrest htail]

/-- Among tags by their keys, keeping the last of each comes to inserting
them all. -/
theorem foldl_keepLast (tags : Tags) {sorted : List Tag}
    (hsorted : sorted.Pairwise fun a b => a.key ≤ b.key)
    (hle : ∀ tag ∈ tags.toList, ∀ later ∈ sorted, tag.key ≤ later.key) :
    sorted.foldl keepLast tags.toList = (tags.and sorted).toList := by
  induction sorted generalizing tags with
  | nil => rfl
  | cons tag rest ih =>
      obtain ⟨hfirst, hrest⟩ := List.pairwise_cons.mp hsorted
      have hkeep : keepLast tags.toList tag = (tags.insert tag).toList :=
        keepLast_eq_insertTag tags.ascending fun other hother =>
          hle other hother tag List.mem_cons_self
      rw [List.foldl_cons, hkeep]
      apply ih (tags.insert tag) hrest
      intro other hother later hlater
      rcases mem_of_mem_insertTag hother with rfl | hother
      · exact hfirst later hlater
      · exact hle other hother later (List.mem_cons_of_mem tag hlater)

theorem keyLe_iff (a b : Tag) : keyLe a b = true ↔ a.key ≤ b.key := by
  simp only [keyLe, decide_eq_true_eq, utf8Bytes_le_iff]

theorem keyLe_trans (a b c : Tag) (hab : keyLe a b = true)
    (hbc : keyLe b c = true) : keyLe a c = true := by
  rw [keyLe_iff] at hab hbc ⊢
  exact String.le_trans hab hbc

theorem keyLe_total (a b : Tag) : (keyLe a b || keyLe b a) = true := by
  rw [Bool.or_eq_true, keyLe_iff, keyLe_iff]
  exact String.le_total a.key b.key

theorem pairwise_sortByKey (pairs : List Tag) :
    (sortByKey pairs).Pairwise fun a b => a.key ≤ b.key :=
  (List.pairwise_mergeSort keyLe_trans keyLe_total pairs).imp
    fun hle => (keyLe_iff _ _).mp hle

/-- Sorting leaves the tags of one key in the order in which they were
given. -/
theorem filter_sortByKey (pairs : List Tag) (key : String) :
    (sortByKey pairs).filter (fun tag => decide (tag.key = key)) =
      pairs.filter fun tag => decide (tag.key = key) := by
  have hperm := List.mergeSort_perm pairs keyLe
  have hsame : (pairs.filter fun tag => decide (tag.key = key)).Pairwise
      fun a b => keyLe a b = true := by
    rw [List.pairwise_filter]
    refine List.pairwise_of_forall fun a b ha hb => (keyLe_iff a b).mpr ?_
    have hkeys : a.key = b.key :=
      (of_decide_eq_true ha).trans (of_decide_eq_true hb).symm
    exact hkeys ▸ String.le_refl a.key
  have hsublist := List.sublist_mergeSort keyLe_trans keyLe_total hsame
    List.filter_sublist
  have hfiltered := hsublist.filter fun tag => decide (tag.key = key)
  rw [List.filter_filter] at hfiltered
  simp only [Bool.and_self] at hfiltered
  exact (hfiltered.eq_of_length (hperm.filter _).length_eq.symm).symm

theorem lastValue?_eq_getLast? (tags : List Tag) (key : String) :
    lastValue? tags key =
      ((tags.filter fun tag => decide (tag.key = key)).getLast?).map
        Tag.value := by
  rw [List.getLast?_filter]
  rfl

/-- Sorting, and then keeping the last tag of each key, puts tags together as
adding one after the other does. -/
theorem compact_sortByKey (pairs : List Tag) :
    compact (sortByKey pairs) = (Tags.ofList pairs).toList := by
  have hcompact : compact (sortByKey pairs) =
      (Tags.ofList (sortByKey pairs)).toList :=
    foldl_keepLast .empty (pairwise_sortByKey pairs) (by simp [Tags.empty])
  have hsorted : Tags.ofList (sortByKey pairs) = Tags.ofList pairs := by
    simp only [Tags.eq_iff_get?_eq, Tags.get?_ofList, lastValue?_eq_getLast?,
      filter_sortByKey, implies_true]
  rw [hcompact, hsorted]

/-! ### Searching -/

/-- Looks a key up in the middle of a list, and then in the half where it can
be. -/
def searchByHalves? (tags : List Tag) (key : String) : Option String :=
  match hsplit : tags.drop (tags.length / 2) with
  | [] => none
  | middle :: above =>
      if utf8Bytes key < utf8Bytes middle.key then
        searchByHalves? (tags.take (tags.length / 2)) key
      else if key = middle.key then some middle.value
      else searchByHalves? above key
termination_by tags.length
decreasing_by
  all_goals
    have hlength := congrArg List.length hsplit
    simp only [List.length_drop, List.length_cons, List.length_take] at *
    omega

/-- A tag of an ascending list has the lower keys before it and the higher
ones after it. -/
theorem AscendingKeys.firstValue?_split {tags above : List Tag} {middle : Tag}
    {n : Nat} (h : AscendingKeys tags) (hsplit : tags.drop n = middle :: above)
    (key : String) :
    firstValue? tags key =
      if key < middle.key then firstValue? (tags.take n) key
      else if key = middle.key then some middle.value
      else firstValue? above key := by
  rw [← List.take_append_drop n tags, hsplit] at h
  obtain ⟨_, hupper, hbelow⟩ := List.pairwise_append.mp h
  have habove := (AscendingKeys.of_cons hupper).1
  have hcut : firstValue? tags key = (firstValue? (tags.take n) key).or
      (firstValue? (middle :: above) key) := by
    rw [← firstValue?_append, ← hsplit, List.take_append_drop]
  rw [hcut, firstValue?_cons]
  by_cases hlt : key < middle.key
  · have hmiddle : ¬ middle.key = key := fun heq =>
      String.lt_irrefl _ (heq ▸ hlt)
    have hnone : firstValue? above key = none :=
      firstValue?_eq_none fun tag htag heq =>
        String.lt_irrefl _ (String.lt_trans hlt (heq ▸ habove tag htag))
    rw [if_pos hlt, if_neg hmiddle, hnone, Option.or_none]
  · have hnone : firstValue? (tags.take n) key = none :=
      firstValue?_eq_none fun tag htag heq =>
        hlt (heq ▸ hbelow tag htag middle List.mem_cons_self)
    rw [if_neg hlt, hnone, Option.none_or]
    simp only [eq_comm]

/-- Halving finds what is there. -/
theorem searchByHalves?_eq {tags : List Tag} (h : AscendingKeys tags)
    (key : String) : searchByHalves? tags key = firstValue? tags key := by
  -- The induction is on the half that is left of the tags.
  fun_induction searchByHalves? tags key with
  | case1 tags hsplit =>
      have hempty : tags = [] := by
        rw [List.drop_eq_nil_iff] at hsplit
        exact List.eq_nil_of_length_eq_zero (by omega)
      rw [hempty]
      rfl
  | case2 tags middle above hsplit hlt ih =>
      rw [utf8Bytes_lt_iff] at hlt
      rw [h.firstValue?_split hsplit, if_pos hlt]
      exact ih (List.Pairwise.sublist (List.take_sublist _ tags) h)
  | case3 tags middle above hsplit hlt heq =>
      rw [utf8Bytes_lt_iff] at hlt
      rw [h.firstValue?_split hsplit, if_neg hlt, if_pos heq]
  | case4 tags middle above hsplit hlt hne ih =>
      rw [utf8Bytes_lt_iff] at hlt
      rw [h.firstValue?_split hsplit, if_neg hlt, if_neg hne]
      have hdrop : AscendingKeys (middle :: above) := by
        rw [← hsplit]
        exact List.Pairwise.sublist (List.drop_sublist _ tags) h
      exact ih hdrop.of_cons.2

/-! ### What tags were given by -/

/-- Tags that were put together from pairs, in the order in which these were
given. -/
inductive Tags.GivenBy : Tags → List Tag → Prop
  | ofList (pairs : List Tag) : GivenBy (ofList pairs) pairs
  | and {tags : Tags} {pairs : List Tag} (h : GivenBy tags pairs)
      (more : List Tag) : GivenBy (tags.and more) (pairs ++ more)

theorem Tags.GivenBy.eq_ofList {tags : Tags} {pairs : List Tag}
    (h : tags.GivenBy pairs) : tags = Tags.ofList pairs := by
  induction h with
  | ofList pairs => rfl
  | and _ more ih => rw [ih, Tags.ofList_append]

theorem Tags.givenBy_toList (tags : Tags) : tags.GivenBy tags.toList := by
  have h := GivenBy.ofList tags.toList
  rwa [ofList_toList] at h

/-- The pairs that a filter gives the tags of an identity by. -/
def Filter.pairs (f : Filter) (id : Id) : List Tag :=
  match f with
  | commonTags tags => tags.toList ++ id.tags.toList
  | renameTag start source target =>
      if id.nameStartsWith start && id.tags.contains source then
        id.tags.toList.map fun tag =>
          if tag.key = source then ⟨target, tag.value⟩ else tag
      else id.tags.toList
  | ignoreTags keys =>
      id.tags.toList.filter fun tag => !keys.contains tag.key
  | replaceTagValues key replacement exceptions =>
      match id.tag? key with
      | none => id.tags.toList
      | some value =>
          if exceptions.contains value then id.tags.toList
          else id.tags.toList ++ [⟨key, replacement value⟩]
  | edit change => change.tags.getD id.tags.toList
  | _ => id.tags.toList

theorem Filter.givenBy_pairs (f : Filter) (id : Id) :
    (f.map id).tags.GivenBy (f.pairs id) := by
  cases f with
  | commonTags tags => exact .and tags.givenBy_toList id.tags.toList
  | renameTag start source target =>
      simp only [map, pairs]
      split
      · exact .ofList _
      · exact id.tags.givenBy_toList
  | ignoreTags keys => exact .ofList _
  | replaceTagValues key replacement exceptions =>
      cases htag : id.tag? key with
      | none =>
          simp only [map, pairs, htag]
          exact id.tags.givenBy_toList
      | some value =>
          simp only [map, pairs, htag]
          split
          · exact id.tags.givenBy_toList
          · exact .and id.tags.givenBy_toList _
  | edit change =>
      simp only [map, pairs, IdEdit.apply]
      cases change.tags with
      | none => exact id.tags.givenBy_toList
      | some tags => exact .ofList tags
  | _ => exact id.tags.givenBy_toList

/-! ### Canonical tags -/

namespace Tags

/-- Tags that were put together from pairs, by a list, by additions or by the
last filter of a chain, have strictly ascending keys and for each key the
value that was given last.  They are what sorting and keeping the last of each
key gives, and halving finds their values.  As they are told apart by their
values alone, the order of distinct keys does not matter, and additions may
be grouped in any way. -/
theorem canonical_of_givenBy :
    (∀ (tags : Tags) (pairs : List Tag), tags.GivenBy pairs →
      tags.toList = compact (sortByKey pairs) ∧
      (tags.toList.Pairwise fun a b => utf8Bytes a.key < utf8Bytes b.key) ∧
      ∀ key, tags.get? key = lastValue? pairs key ∧
        searchByHalves? tags.toList key = lastValue? pairs key) ∧
    (∀ (tags : Tags) (more : List Tag) (key : String),
      (tags.and more).get? key = (lastValue? more key).or (tags.get? key)) ∧
    (∀ a b : Tags, a = b ↔ ∀ key, a.get? key = b.get? key) ∧
    (∀ (name : String) (pairs others : List Tag),
      (pairs.map Tag.key).Nodup → pairs.Perm others →
      Id.named name pairs = Id.named name others) ∧
    (∀ a b c : Tags,
      (a.and b.toList).and c.toList = a.and (b.and c.toList).toList) ∧
    (∀ a : Tags, empty.and a.toList = a ∧ a.and empty.toList = a) ∧
    (∀ (filters : List Filter) (last : Filter) (id : Id),
      (mapByAll (filters ++ [last]) id).tags.GivenBy
        (last.pairs (mapByAll filters id))) := by
  refine ⟨?_, get?_and, fun _ _ => eq_iff_get?_eq, ?_, and_assoc, ?_, ?_⟩
  · intro tags pairs hgiven
    obtain rfl := hgiven.eq_ofList
    refine ⟨(compact_sortByKey pairs).symm, ?_, ?_⟩
    · exact (ofList pairs).ascending.imp fun hlt => utf8Bytes_lt hlt
    · intro key
      rw [searchByHalves?_eq (ofList pairs).ascending, ← get?_eq, get?_ofList]
      exact ⟨rfl, rfl⟩
  · intro name pairs others hdistinct hperm
    have htags : ofList pairs = ofList others := by
      simp only [eq_iff_get?_eq, get?_ofList,
        lastValue?_eq_of_perm hperm hdistinct, implies_true]
    rw [Id.named, Id.named, htags]
  · intro a
    exact ⟨ofList_toList a, rfl⟩
  · intro filters last id
    rw [mapByAll, List.foldl_append]
    exact last.givenBy_pairs _

/-- Of two values for a key the second one stays, and the same tags are given
by their pairs in another order. -/
theorem canonical_of_givenBy_repeated :
    let pairs : List Tag := [⟨"b", "1"⟩, ⟨"a", "1"⟩, ⟨"b", "2"⟩]
    let distinct : List Tag := [⟨"b", "2"⟩, ⟨"a", "1"⟩]
    (ofList pairs).GivenBy pairs ∧
      (ofList pairs).toList = compact (sortByKey pairs) ∧
      (ofList pairs).get? "b" = some "2" ∧
      (distinct.map Tag.key).Nodup ∧ distinct.Perm distinct.reverse ∧
      Id.named "meter" distinct = Id.named "meter" distinct.reverse := by
  intro pairs distinct
  obtain ⟨hgiven, _, _, hnamed, _⟩ := canonical_of_givenBy
  obtain ⟨hcompact, _, hvalues⟩ := hgiven _ pairs (.ofList pairs)
  have hdistinct : (distinct.map Tag.key).Nodup := by decide
  have hperm : distinct.Perm distinct.reverse :=
    (List.reverse_perm distinct).symm
  refine ⟨.ofList pairs, hcompact, (hvalues "b").1.trans rfl, hdistinct, hperm,
    hnamed "meter" _ _ hdistinct hperm⟩

end Tags

end WindowedMetrics
