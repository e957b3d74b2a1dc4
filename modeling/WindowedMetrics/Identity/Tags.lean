/-
Tags of a meter: keys with values, each key once, in ascending order.  Giving
a key again replaces its value, so equal tags are equal lists however they
were put together.
-/

namespace WindowedMetrics

/-- A key with its value. -/
structure Tag where
  key : String
  value : String
deriving Repr, DecidableEq

/-- A list of tags in strictly ascending order of keys. -/
def AscendingKeys (tags : List Tag) : Prop :=
  tags.Pairwise fun a b => a.key < b.key

/-- Puts a tag into an ascending list, in place of a tag with the same key. -/
def insertTag (tag : Tag) : List Tag → List Tag
  | [] => [tag]
  | head :: rest =>
      if tag.key < head.key then tag :: head :: rest
      else if tag.key = head.key then tag :: rest
      else head :: insertTag tag rest

theorem mem_of_mem_insertTag {t tag : Tag} {tags : List Tag}
    (h : t ∈ insertTag tag tags) : t = tag ∨ t ∈ tags := by
  induction tags with
  | nil => simpa [insertTag] using h
  | cons head rest ih =>
      unfold insertTag at h
      split at h
      · simpa using h
      · split at h
        · rcases List.mem_cons.mp h with h | h
          · exact Or.inl h
          · exact Or.inr (List.mem_cons_of_mem head h)
        · rcases List.mem_cons.mp h with h | h
          · exact Or.inr (h ▸ List.mem_cons_self)
          · exact (ih h).imp_right (List.mem_cons_of_mem head)

theorem key_lt_of_not_lt {a b : String} (hlt : ¬ a < b) (hne : a ≠ b) :
    b < a := by
  apply Decidable.byContradiction
  intro hnot
  exact hne (String.le_antisymm hnot hlt)

theorem AscendingKeys.insertTag {tags : List Tag} (h : AscendingKeys tags)
    (tag : Tag) : AscendingKeys (insertTag tag tags) := by
  induction tags with
  | nil => simp [AscendingKeys, WindowedMetrics.insertTag]
  | cons head rest ih =>
      have hrest := List.pairwise_cons.mp h
      unfold WindowedMetrics.insertTag
      split
      · rename_i hlt
        refine List.pairwise_cons.mpr ⟨?_, h⟩
        intro t ht
        rcases List.mem_cons.mp ht with rfl | ht
        · exact hlt
        · exact String.lt_trans hlt (hrest.1 t ht)
      · split
        · rename_i heq
          refine List.pairwise_cons.mpr ⟨?_, hrest.2⟩
          intro t ht
          exact heq ▸ hrest.1 t ht
        · rename_i hlt hne
          refine List.pairwise_cons.mpr ⟨?_, ih hrest.2⟩
          intro t ht
          rcases mem_of_mem_insertTag ht with rfl | ht
          · exact key_lt_of_not_lt hlt hne
          · exact hrest.1 t ht

/-- Tags by ascending key. -/
structure Tags where
  toList : List Tag
  ascending : AscendingKeys toList
deriving DecidableEq

namespace Tags

/-- No tags. -/
def empty : Tags := ⟨[], List.Pairwise.nil⟩

instance : EmptyCollection Tags := ⟨empty⟩

/-- Adds a tag; a tag with the same key is replaced. -/
def insert (tags : Tags) (tag : Tag) : Tags :=
  ⟨insertTag tag tags.toList, tags.ascending.insertTag tag⟩

/-- Adds tags in order; of two with the same key the last one wins. -/
def and (tags : Tags) (more : List Tag) : Tags :=
  more.foldl insert tags

/-- The tags of a list in any order; of two with the same key the last one
wins. -/
def ofList (tags : List Tag) : Tags :=
  empty.and tags

/-- The value of a key. -/
def get? (tags : Tags) (key : String) : Option String :=
  (tags.toList.find? fun tag => decide (tag.key = key)).map Tag.value

/-- Whether a key is present. -/
def contains (tags : Tags) (key : String) : Bool :=
  (tags.get? key).isSome

/-- The number of tags. -/
def size (tags : Tags) : Nat := tags.toList.length

def isEmpty (tags : Tags) : Bool := tags.toList.isEmpty

/-- The tags as pairs. -/
def toPairs (tags : Tags) : List (String × String) :=
  tags.toList.map fun tag => (tag.key, tag.value)

end Tags

end WindowedMetrics
