/-
Blanks at the ends of texts, and the pieces between separators.  A text is
what is left after trimming with blanks on both sides, and what is left
begins and ends with no blank.  Blanks at the ends of a text are blanks at the
ends of its outer pieces, so that pieces which are trimmed are the same
whether the whole is trimmed or not.
-/
import Mathlib.Data.List.Basic
import Mathlib.Data.List.TakeWhile
import WindowedMetrics.Text.Blank

namespace WindowedMetrics

/-! ### Blanks -/

/-- Nothing but blanks. -/
def AllBlank (text : List Char) : Prop :=
  ∀ c ∈ text, isBlank c = true

instance (text : List Char) : Decidable (AllBlank text) :=
  decidable_of_iff (text.all isBlank = true) List.all_eq_true

/-- A text that neither begins nor ends with a blank. -/
structure Trimmed (text : List Char) : Prop where
  head : ∀ c ∈ text.head?, isBlank c = false
  last : ∀ c ∈ text.getLast?, isBlank c = false

namespace AllBlank

theorem append {text more : List Char} (h : AllBlank text)
    (hmore : AllBlank more) : AllBlank (text ++ more) :=
  List.forall_mem_append.mpr ⟨h, hmore⟩

theorem reverse {text : List Char} (h : AllBlank text) :
    AllBlank text.reverse :=
  fun c hc => h c (List.mem_reverse.mp hc)

theorem takeWhile (text : List Char) : AllBlank (text.takeWhile isBlank) :=
  fun _ hc => List.mem_takeWhile_imp hc

/-- What is no blank does not occur among blanks. -/
theorem not_mem {text : List Char} (h : AllBlank text) {c : Char}
    (hc : isBlank c = false) : c ∉ text := by
  intro hmem
  rw [h c hmem] at hc
  cases hc

end AllBlank

/-! ### Trimming -/

theorem dropWhile_isBlank_of_head {text : List Char}
    (h : ∀ c ∈ text.head?, isBlank c = false) :
    text.dropWhile isBlank = text := by
  cases text with
  | nil => rfl
  | cons c rest => rw [List.dropWhile_cons, h c rfl, if_neg Bool.false_ne_true]

theorem head_dropWhile_isBlank (text : List Char) :
    ∀ c ∈ (text.dropWhile isBlank).head?, isBlank c = false := by
  intro c hc
  have hnot := List.head?_dropWhile_not isBlank text
  rw [Option.mem_def.mp hc] at hnot
  exact hnot

/-- Blanks at the ends of a text make no difference. -/
theorem trimChars_padded {before after : List Char} (hbefore : AllBlank before)
    (text : List Char) (hafter : AllBlank after) :
    trimChars (before ++ text ++ after) = trimChars text := by
  have hstart : (before ++ text ++ after).dropWhile isBlank =
      (text ++ after).dropWhile isBlank := by
    rw [List.append_assoc, List.dropWhile_append_of_pos hbefore]
  have hend : after.dropWhile isBlank = [] :=
    List.dropWhile_eq_nil_iff.mpr hafter
  unfold trimChars
  rw [hstart, List.dropWhile_append, hend]
  cases hrest : text.dropWhile isBlank with
  | nil => rfl
  | cons c rest =>
      rw [List.isEmpty_cons, if_neg Bool.false_ne_true, List.reverse_append,
        List.dropWhile_append_of_pos hafter.reverse]

theorem trimChars_append_left {before : List Char} (h : AllBlank before)
    (text : List Char) : trimChars (before ++ text) = trimChars text := by
  rw [← trimChars_padded h text (List.forall_mem_nil _), List.append_nil]

theorem trimChars_append_right (text : List Char) {after : List Char}
    (h : AllBlank after) : trimChars (text ++ after) = trimChars text := by
  rw [← trimChars_padded (List.forall_mem_nil _) text h, List.nil_append]

theorem Trimmed.trimChars_eq {text : List Char} (h : Trimmed text) :
    trimChars text = text := by
  have hlast : ∀ c ∈ text.reverse.head?, isBlank c = false := by
    rw [List.head?_reverse]
    exact h.last
  rw [trimChars, dropWhile_isBlank_of_head h.head,
    dropWhile_isBlank_of_head hlast, List.reverse_reverse]

theorem exists_dropWhile_isBlank (text : List Char) :
    ∃ after, AllBlank after ∧
      text.dropWhile isBlank = trimChars text ++ after := by
  let rest := text.dropWhile isBlank
  refine ⟨(rest.reverse.takeWhile isBlank).reverse,
    (AllBlank.takeWhile rest.reverse).reverse, ?_⟩
  rw [trimChars, ← List.reverse_append, List.takeWhile_append_dropWhile,
    List.reverse_reverse]

/-- What trimming takes away are blanks at the two ends. -/
theorem exists_trimChars (text : List Char) :
    ∃ before after, AllBlank before ∧ AllBlank after ∧
      text = before ++ trimChars text ++ after := by
  obtain ⟨after, hafter, hrest⟩ := exists_dropWhile_isBlank text
  refine ⟨text.takeWhile isBlank, after, .takeWhile text, hafter, ?_⟩
  rw [List.append_assoc, ← hrest, List.takeWhile_append_dropWhile]

theorem trimmed_trimChars (text : List Char) : Trimmed (trimChars text) where
  head := by
    obtain ⟨after, -, hrest⟩ := exists_dropWhile_isBlank text
    intro c hc
    apply head_dropWhile_isBlank text
    rw [hrest, List.head?_append, Option.mem_def.mp hc]
    rfl
  last := by
    rw [trimChars, List.getLast?_reverse]
    exact head_dropWhile_isBlank _

instance (text : List Char) : Decidable (Trimmed text) :=
  decidable_of_iff (trimChars text = text)
    ⟨fun h => h ▸ trimmed_trimChars text, Trimmed.trimChars_eq⟩

theorem mem_of_mem_trimChars {text : List Char} {c : Char}
    (h : c ∈ trimChars text) : c ∈ text := by
  obtain ⟨before, after, -, -, htext⟩ := exists_trimChars text
  rw [htext]
  exact List.mem_append_left after (List.mem_append_right before h)

/-- What is not blank throughout is not trimmed away. -/
theorem trimChars_ne_nil {text : List Char} {c : Char} (hmem : c ∈ text)
    (hc : isBlank c = false) : trimChars text ≠ [] := by
  intro hnil
  obtain ⟨before, after, hbefore, hafter, htext⟩ := exists_trimChars text
  rw [hnil, List.append_nil] at htext
  exact (hbefore.append hafter).not_mem hc (htext ▸ hmem)

/-- Two texts without blanks at their ends may have anything between them. -/
theorem Trimmed.append {text more between : List Char} (h : Trimmed text)
    (hsome : text ≠ []) (hmore : Trimmed more) (hmoreSome : more ≠ []) :
    Trimmed (text ++ between ++ more) where
  head := by
    rw [List.append_assoc, List.head?_append_of_ne_nil _ hsome]
    exact h.head
  last := by
    rw [List.getLast?_append_of_ne_nil _ hmoreSome]
    exact hmore.last

theorem Trimmed.of_forall {text : List Char}
    (h : ∀ c ∈ text, isBlank c = false) : Trimmed text :=
  ⟨fun c hc => h c (List.mem_of_mem_head? hc),
    fun c hc => h c (List.mem_of_mem_getLast? hc)⟩

/-! ### Pieces -/

section Pieces

variable {separator : Char}

theorem splitChars_eq_splitOn (text : List Char) :
    splitChars separator text = text.splitOn separator := by
  induction text with
  | nil => exact (List.splitOn_nil separator).symm
  | cons c rest ih =>
      rw [splitChars, ih, List.splitOn_cons_eq_if_modifyHead]
      by_cases hc : c = separator
      · rw [if_pos hc, if_pos (beq_iff_eq.mpr hc)]
      · obtain ⟨first, others, hrest⟩ :=
          List.exists_cons_of_ne_nil (List.splitOn_ne_nil separator rest)
        rw [if_neg hc, if_neg (mt beq_iff_eq.mp hc), hrest]
        rfl

theorem not_mem_of_mem_splitOn {text piece : List Char}
    (h : piece ∈ text.splitOn separator) : separator ∉ piece := by
  induction text generalizing piece with
  | nil =>
      obtain rfl : piece = [] := by simpa using h
      exact List.not_mem_nil
  | cons c rest ih =>
      obtain ⟨first, others, hrest⟩ :=
        List.exists_cons_of_ne_nil (List.splitOn_ne_nil separator rest)
      rw [List.splitOn_cons_eq_if_modifyHead, hrest] at h
      rw [hrest] at ih
      split at h
      · rcases List.mem_cons.mp h with rfl | h
        · exact List.not_mem_nil
        · exact ih h
      · rename_i hc
        rcases List.mem_cons.mp h with rfl | h
        · refine List.not_mem_cons_of_ne_of_not_mem ?_ (ih List.mem_cons_self)
          exact fun heq => hc (beq_iff_eq.mpr heq.symm)
        · exact ih (List.mem_cons_of_mem first h)

/-- Blanks before a text are blanks before its first piece. -/
theorem map_trimChars_splitOn_before (hseparator : isBlank separator = false)
    {before : List Char} (hbefore : AllBlank before) (text : List Char) :
    ((before ++ text).splitOn separator).map trimChars =
      (text.splitOn separator).map trimChars := by
  have hfree : separator ∉ before := hbefore.not_mem hseparator
  by_cases hmem : separator ∈ text
  · obtain ⟨first, rest, rfl, hfirst⟩ := List.eq_append_cons_of_mem hmem
    have hlonger : separator ∉ before ++ first := by
      simp [hfree, hfirst]
    rw [← List.append_assoc,
      List.splitOn_append_cons_self_of_not_mem hlonger,
      List.splitOn_append_cons_self_of_not_mem hfirst, List.map_cons,
      List.map_cons, trimChars_append_left hbefore]
  · have hlonger : separator ∉ before ++ text := by
      simp [hfree, hmem]
    rw [List.splitOn_eq_singleton hlonger, List.splitOn_eq_singleton hmem,
      List.map_singleton, List.map_singleton, trimChars_append_left hbefore]

/-- Blanks after a text are blanks after its last piece. -/
theorem map_trimChars_splitOn_after (hseparator : isBlank separator = false)
    {after : List Char} (hafter : AllBlank after) (text : List Char) :
    ((text ++ after).splitOn separator).map trimChars =
      (text.splitOn separator).map trimChars := by
  have hfree : separator ∉ after := hafter.not_mem hseparator
  have honly (piece : List Char) (hpiece : separator ∉ piece) :
      ((piece ++ after).splitOn separator).map trimChars =
        (piece.splitOn separator).map trimChars := by
    have hlonger : separator ∉ piece ++ after := by
      simp [hfree, hpiece]
    rw [List.splitOn_eq_singleton hlonger, List.splitOn_eq_singleton hpiece,
      List.map_singleton, List.map_singleton,
      trimChars_append_right piece hafter]
  by_cases hmem : separator ∈ text
  · -- The last piece begins after the last separator, which is the first one
    -- from the end.
    obtain ⟨last, rest, hreverse, hlast⟩ :=
      List.eq_append_cons_of_mem (List.mem_reverse.mpr hmem)
    have htext : text = rest.reverse ++ separator :: last.reverse := by
      rw [← List.reverse_reverse text, hreverse]
      simp
    rw [htext, List.append_assoc, List.cons_append,
      List.splitOn_append_cons_self, List.splitOn_append_cons_self,
      List.map_append, List.map_append,
      honly last.reverse (mt List.mem_reverse.mp hlast)]
  · exact honly text hmem

/-- Pieces that are trimmed are the same whether the whole is trimmed or
not. -/
theorem map_trimChars_splitOn_trimChars (hseparator : isBlank separator = false)
    (text : List Char) :
    ((trimChars text).splitOn separator).map trimChars =
      (text.splitOn separator).map trimChars := by
  obtain ⟨before, after, hbefore, hafter, htext⟩ := exists_trimChars text
  calc ((trimChars text).splitOn separator).map trimChars
      = ((before ++ trimChars text).splitOn separator).map trimChars :=
        (map_trimChars_splitOn_before hseparator hbefore _).symm
    _ = ((before ++ trimChars text ++ after).splitOn separator).map
          trimChars :=
        (map_trimChars_splitOn_after hseparator hafter _).symm
    _ = (text.splitOn separator).map trimChars := by rw [← htext]

end Pieces

end WindowedMetrics
