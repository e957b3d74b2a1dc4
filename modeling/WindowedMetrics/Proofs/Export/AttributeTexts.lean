/-
Attributes that are read from texts.  Pairs that are written with an equals
sign between key and value and commas between pairs are read as they were
written, whatever blanks stand around pairs, keys and values: each key once,
in the order of first occurrences, with its last value.  Of any other text as
well, only clean pairs are read.
-/
import Mathlib.Data.List.Induction
import WindowedMetrics.Export.Properties
import WindowedMetrics.Proofs.Export.Grouping
import WindowedMetrics.Proofs.Text.Trimming

namespace WindowedMetrics

/-! ### Setting attributes -/

section Setting

variable {key value : String}

theorem lookup_cons_eq (head : String × String) (rest : Attributes)
    (other : String) : (head :: rest).lookup other =
      if other = head.1 then some head.2 else rest.lookup other := by
  rw [List.lookup_cons]
  by_cases hkey : other = head.1
  · rw [beq_iff_eq.mpr hkey, if_pos hkey]
  · rw [beq_eq_false_iff_ne.mpr hkey, if_neg hkey]

theorem keys_setAttribute (attributes : Attributes) :
    (setAttribute attributes key value).map Prod.fst =
      if key ∈ attributes.map Prod.fst then attributes.map Prod.fst
      else attributes.map Prod.fst ++ [key] := by
  induction attributes with
  | nil => rfl
  | cons head rest ih =>
      by_cases hhead : head.1 = key
      · simp [setAttribute, hhead]
      · simp only [setAttribute, if_neg hhead, List.map_cons, ih,
          List.mem_cons, Ne.symm hhead, false_or]
        split <;> rfl

theorem lookup_setAttribute (attributes : Attributes) (other : String) :
    (setAttribute attributes key value).lookup other =
      if other = key then some value else attributes.lookup other := by
  induction attributes with
  | nil => exact lookup_cons_eq (key, value) [] other
  | cons head rest ih =>
      rw [setAttribute, lookup_cons_eq head rest]
      by_cases hhead : head.1 = key
      · rw [if_pos hhead, lookup_cons_eq, hhead]
        split <;> rfl
      · rw [if_neg hhead, lookup_cons_eq, ih]
        by_cases hkey : other = key
        · rw [if_neg (fun heq => hhead (heq.symm.trans hkey)), if_pos hkey,
            if_pos hkey]
        · rw [if_neg hkey, if_neg hkey]

theorem mem_of_mem_setAttribute {attributes : Attributes}
    {pair : String × String} (h : pair ∈ setAttribute attributes key value) :
    pair = (key, value) ∨ pair ∈ attributes := by
  induction attributes with
  | nil => exact .inl (List.mem_singleton.mp h)
  | cons head rest ih =>
      by_cases hhead : head.1 = key
      · rw [setAttribute, if_pos hhead] at h
        exact (List.mem_cons.mp h).imp_right (List.mem_cons_of_mem head)
      · rw [setAttribute, if_neg hhead] at h
        rcases List.mem_cons.mp h with rfl | h
        · exact .inr List.mem_cons_self
        · exact (ih h).imp_right (List.mem_cons_of_mem head)

/-- Attributes that are set one after another. -/
def setAll (pairs : List (String × String)) : Attributes :=
  pairs.foldl (fun attributes pair => setAttribute attributes pair.1 pair.2) []

theorem setAll_append_singleton (pairs : List (String × String))
    (pair : String × String) :
    setAll (pairs ++ [pair]) = setAttribute (setAll pairs) pair.1 pair.2 := by
  rw [setAll, List.foldl_append]
  rfl

/-- Keys are in the order in which they were set first. -/
theorem keys_setAll (pairs : List (String × String)) :
    (setAll pairs).map Prod.fst = (pairs.map Prod.fst).eraseDups := by
  induction pairs using List.reverseRecOn with
  | nil => rfl
  | append_singleton pairs pair ih =>
      rw [setAll_append_singleton, keys_setAttribute, ih, List.map_append,
        List.map_singleton, eraseDups_append_singleton]
      simp only [List.mem_eraseDups]

/-- A key has the value that it was given last. -/
theorem lookup_setAll (pairs : List (String × String)) (key : String) :
    (setAll pairs).lookup key = pairs.reverse.lookup key := by
  induction pairs using List.reverseRecOn with
  | nil => rfl
  | append_singleton pairs pair ih =>
      rw [setAll_append_singleton, lookup_setAttribute, ih,
        List.reverse_append, List.reverse_singleton, List.singleton_append,
        lookup_cons_eq]

theorem mem_of_mem_setAll {pairs : List (String × String)}
    {pair : String × String} (h : pair ∈ setAll pairs) : pair ∈ pairs := by
  induction pairs using List.reverseRecOn with
  | nil => exact h
  | append_singleton pairs last ih =>
      rw [setAll_append_singleton] at h
      rcases mem_of_mem_setAttribute h with rfl | h
      · exact List.mem_append_right pairs List.mem_cons_self
      · exact List.mem_append_left _ (ih h)

theorem nodup_keys_setAll (pairs : List (String × String)) :
    ((setAll pairs).map Prod.fst).Nodup := by
  rw [keys_setAll]
  exact nodup_eraseDups _

end Setting

/-! ### Reading a pair -/

/-- A text is cut in two at the first separator, if it has one. -/
theorem splitOnce?_eq_some_iff {separator : Char}
    {text first rest : List Char} :
    splitOnce? separator text = some (first, rest) ↔
      text = first ++ separator :: rest ∧ separator ∉ first := by
  let other : Char → Bool := fun c => decide (c ≠ separator)
  constructor
  · intro h
    unfold splitOnce? at h
    cases hdrop : text.dropWhile other with
    | nil =>
        rw [hdrop] at h
        cases h
    | cons c after =>
        rw [hdrop] at h
        cases h
        have hc : c = separator := by
          have hnot := List.head?_dropWhile_not other text
          rw [hdrop] at hnot
          simpa [other] using hnot
        have htext := List.takeWhile_append_dropWhile (p := other) (l := text)
        rw [hdrop, hc] at htext
        refine ⟨htext.symm, fun hmem => ?_⟩
        simpa using List.mem_takeWhile_imp hmem
  · rintro ⟨rfl, hfree⟩
    have hfirst : ∀ c ∈ first, other c = true := by
      intro c hc
      simp only [other, decide_eq_true_eq]
      rintro rfl
      exact hfree hc
    have hstop : ¬ other separator = true := by simp [other]
    unfold splitOnce?
    rw [List.dropWhile_append_of_pos hfirst,
      List.takeWhile_append_of_pos hfirst, List.dropWhile_cons_of_neg hstop,
      List.takeWhile_cons_of_neg hstop]
    simp

/-- What is read as a pair has a key before its first equals sign and more
than two bytes. -/
theorem attributeOf?_eq_some_iff {pair : List Char} {key value : String} :
    attributeOf? pair = some (key, value) ↔
      2 < (String.ofList pair).utf8ByteSize ∧
        ∃ name content, name ≠ [] ∧ '=' ∉ name ∧
          pair = name ++ '=' :: content ∧
          key = String.ofList (trimChars name) ∧
          value = String.ofList (trimChars content) := by
  unfold attributeOf?
  by_cases hsize : (String.ofList pair).utf8ByteSize ≤ 2
  · rw [if_pos hsize]
    exact ⟨nofun, fun h => absurd h.1 (Nat.not_lt.mpr hsize)⟩
  · rw [if_neg hsize]
    constructor
    · intro h
      refine ⟨Nat.lt_of_not_le hsize, ?_⟩
      split at h
      · rename_i c name content hsplit
        obtain ⟨hpair, hfree⟩ := splitOnce?_eq_some_iff.mp hsplit
        cases h
        exact ⟨c :: name, content, List.cons_ne_nil c name, hfree, hpair, rfl,
          rfl⟩
      · cases h
    · rintro ⟨-, name, content, hsome, hfree, hpair, rfl, rfl⟩
      obtain ⟨c, rest, rfl⟩ := List.exists_cons_of_ne_nil hsome
      rw [splitOnce?_eq_some_iff.mpr ⟨hpair, hfree⟩]

/-! ### Written pairs -/

/-- A pair with a key, which has neither a comma nor an equals sign, and a
value without comma, both without blanks at their ends. -/
structure CleanAttribute (pair : String × String) : Prop where
  key_ne : pair.1 ≠ ""
  key_comma : ',' ∉ pair.1.toList
  key_equals : '=' ∉ pair.1.toList
  key_trimmed : Trimmed pair.1.toList
  value_comma : ',' ∉ pair.2.toList
  value_trimmed : Trimmed pair.2.toList

/-- A clean pair that is long enough to be read: key and value have at least
two bytes together. -/
structure Writable (pair : String × String) : Prop
    extends CleanAttribute pair where
  size : 2 ≤ pair.1.utf8ByteSize + pair.2.utf8ByteSize

/-- A key, an equals sign and a value, with blanks before and after the key
and the value. -/
inductive WritesPair : List Char → String × String → Prop
  | intro (before afterKey beforeValue after : List Char)
      (key value : String) (hbefore : AllBlank before)
      (hafterKey : AllBlank afterKey) (hbeforeValue : AllBlank beforeValue)
      (hafter : AllBlank after) :
      WritesPair (before ++ key.toList ++ afterKey ++
        '=' :: (beforeValue ++ value.toList ++ after)) (key, value)

/-- Pairs between commas. -/
def WritesPairs (text : String) (pairs : List (String × String)) : Prop :=
  ∃ pieces, List.Forall₂ WritesPair pieces pairs ∧
    text.toList = [','].intercalate pieces

theorem utf8ByteSize_trimChars_le (text : List Char) :
    (String.ofList (trimChars text)).utf8ByteSize ≤
      (String.ofList text).utf8ByteSize := by
  obtain ⟨before, after, -, -, htext⟩ := exists_trimChars text
  conv_rhs => rw [htext]
  rw [String.ofList_append, String.ofList_append, String.utf8ByteSize_append,
    String.utf8ByteSize_append]
  omega

/-- A written pair begins with its key when it is trimmed, and ends with its
value or, if that is empty, with the equals sign. -/
theorem WritesPair.exists_trimChars_eq {piece : List Char}
    {pair : String × String} (h : WritesPair piece pair)
    (hpair : Writable pair) :
    ∃ gap content, AllBlank gap ∧
      trimChars piece = pair.1.toList ++ gap ++ '=' :: content ∧
      trimChars content = pair.2.toList := by
  cases h with
  | intro before gap blanks after key value hbefore hgap hblanks hafter =>
      have hkey : key.toList ≠ [] :=
        mt String.toList_eq_nil_iff.mp hpair.key_ne
      by_cases hvalue : value.toList = []
      · have hends : Trimmed ['='] := .of_forall (by simp [isBlank])
        have hcore : Trimmed (key.toList ++ gap ++ ['=']) :=
          hpair.key_trimmed.append hkey hends (List.cons_ne_nil _ _)
        refine ⟨gap, [], hgap, ?_, ?_⟩
        · calc trimChars (before ++ key.toList ++ gap ++
                '=' :: (blanks ++ value.toList ++ after))
              = trimChars (before ++ (key.toList ++ gap ++ ['=']) ++
                  (blanks ++ after)) := by simp [hvalue]
            _ = key.toList ++ gap ++ ['='] := by
              rw [trimChars_padded hbefore _ (hblanks.append hafter),
                hcore.trimChars_eq]
        · rw [hvalue]
          rfl
      · have hcore : Trimmed (key.toList ++ (gap ++ '=' :: blanks) ++
            value.toList) :=
          hpair.key_trimmed.append hkey hpair.value_trimmed hvalue
        refine ⟨gap, blanks ++ value.toList, hgap, ?_, ?_⟩
        · calc trimChars (before ++ key.toList ++ gap ++
                '=' :: (blanks ++ value.toList ++ after))
              = trimChars (before ++ (key.toList ++ (gap ++ '=' :: blanks) ++
                  value.toList) ++ after) := by simp
            _ = key.toList ++ (gap ++ '=' :: blanks) ++ value.toList := by
              rw [trimChars_padded hbefore _ hafter, hcore.trimChars_eq]
            _ = key.toList ++ gap ++ '=' :: (blanks ++ value.toList) := by
              simp
        · rw [trimChars_append_left hblanks, hpair.value_trimmed.trimChars_eq]

theorem WritesPair.attributeOf?_eq {piece : List Char}
    {pair : String × String} (h : WritesPair piece pair)
    (hpair : Writable pair) : attributeOf? (trimChars piece) = some pair := by
  obtain ⟨gap, content, hgap, hpiece, hcontent⟩ :=
    h.exists_trimChars_eq hpair
  have hkey : pair.1.toList ≠ [] :=
    mt String.toList_eq_nil_iff.mp hpair.key_ne
  have hfree : '=' ∉ pair.1.toList ++ gap := by
    simp [hpair.key_equals, hgap.not_mem (by decide : isBlank '=' = false)]
  refine attributeOf?_eq_some_iff.mpr ⟨?_, pair.1.toList ++ gap, content,
    List.append_ne_nil_of_left_ne_nil hkey gap, hfree, hpiece, ?_, ?_⟩
  · have hvalue := utf8ByteSize_trimChars_le content
    rw [hcontent, String.ofList_toList] at hvalue
    have hequals : (String.ofList ['=']).utf8ByteSize = 1 := by decide
    have hsize := hpair.size
    rw [hpiece, ← List.singleton_append, String.ofList_append,
      String.ofList_append, String.ofList_append, String.utf8ByteSize_append,
      String.utf8ByteSize_append, String.utf8ByteSize_append,
      String.ofList_toList, hequals]
    omega
  · rw [trimChars_append_right _ hgap, hpair.key_trimmed.trimChars_eq,
      String.ofList_toList]
  · rw [hcontent, String.ofList_toList]

theorem WritesPair.comma_not_mem {piece : List Char}
    {pair : String × String} (h : WritesPair piece pair)
    (hpair : Writable pair) : ',' ∉ piece := by
  have hcomma : isBlank ',' = false := by decide
  cases h with
  | intro before gap blanks after key value hbefore hgap hblanks hafter =>
      have hkey : ',' ∉ key.toList := hpair.key_comma
      have hvalue : ',' ∉ value.toList := hpair.value_comma
      simp [hkey, hvalue, hbefore.not_mem hcomma, hgap.not_mem hcomma,
        hblanks.not_mem hcomma, hafter.not_mem hcomma]

/-! ### Reading attributes -/

theorem readAttributes_eq (text : String) :
    readAttributes text = setAll (((text.toList.splitOn ',').map
      trimChars).filterMap attributeOf?) := by
  rw [readAttributes, splitChars_eq_splitOn,
    map_trimChars_splitOn_trimChars (by decide)]
  rfl

section Written

variable {pieces : List (List Char)} {pairs : List (String × String)}

theorem comma_not_mem_of_writes (hwrites : List.Forall₂ WritesPair pieces pairs)
    (hpairs : ∀ pair ∈ pairs, Writable pair) :
    ∀ piece ∈ pieces, ',' ∉ piece := by
  induction hwrites with
  | nil => exact List.forall_mem_nil _
  | cons hwrite _ ih =>
      obtain ⟨hpair, hothers⟩ := List.forall_mem_cons.mp hpairs
      exact List.forall_mem_cons.mpr ⟨hwrite.comma_not_mem hpair, ih hothers⟩

theorem filterMap_attributeOf?_of_writes
    (hwrites : List.Forall₂ WritesPair pieces pairs)
    (hpairs : ∀ pair ∈ pairs, Writable pair) :
    (pieces.map trimChars).filterMap attributeOf? = pairs := by
  induction hwrites with
  | nil => rfl
  | cons hwrite _ ih =>
      obtain ⟨hpair, hothers⟩ := List.forall_mem_cons.mp hpairs
      rw [List.map_cons, List.filterMap_cons_some
        (hwrite.attributeOf?_eq hpair), ih hothers]

/-- Written pairs are read one by one. -/
theorem readAttributes_of_writes {text : String}
    (htext : WritesPairs text pairs)
    (hpairs : ∀ pair ∈ pairs, Writable pair) :
    readAttributes text = setAll pairs := by
  obtain ⟨pieces, hwrites, htext⟩ := htext
  rw [readAttributes_eq, htext]
  by_cases hnone : pieces = []
  · subst hnone
    cases hwrites
    rfl
  · rw [List.splitOn_intercalate ',' (comma_not_mem_of_writes hwrites hpairs)
      hnone, filterMap_attributeOf?_of_writes hwrites hpairs]

end Written

/-- Only clean pairs are read from the pieces of a text. -/
theorem clean_of_attributeOf? {piece : List Char} (hcomma : ',' ∉ piece)
    {pair : String × String} (h : attributeOf? (trimChars piece) = some pair) :
    CleanAttribute pair := by
  obtain ⟨key, value⟩ := pair
  obtain ⟨-, name, content, hsome, hequals, hpiece, rfl, rfl⟩ :=
    attributeOf?_eq_some_iff.mp h
  have hfree : ',' ∉ name ++ '=' :: content := by
    rw [← hpiece]
    exact mt mem_of_mem_trimChars hcomma
  have hname : ',' ∉ name := fun hmem =>
    hfree (List.mem_append_left _ hmem)
  have hcontent : ',' ∉ content := fun hmem =>
    hfree (List.mem_append_right _ (List.mem_cons_of_mem _ hmem))
  -- The key begins where the trimmed piece does, which is with no blank.
  have hkey : trimChars name ≠ [] := by
    obtain ⟨c, rest, rfl⟩ := List.exists_cons_of_ne_nil hsome
    apply trimChars_ne_nil List.mem_cons_self
    apply (trimmed_trimChars piece).head
    rw [hpiece]
    rfl
  constructor <;> simp only [String.toList_ofList]
  · exact mt String.ofList_eq_empty_iff.mp hkey
  · exact mt mem_of_mem_trimChars hname
  · exact mt mem_of_mem_trimChars hequals
  · exact trimmed_trimChars name
  · exact mt mem_of_mem_trimChars hcontent
  · exact trimmed_trimChars content

/-- Clean pairs that are written with equals signs, with commas between them
and with any blanks around pairs, keys and values, are read back: each key
once, in the order of first occurrences, with its last value.  From any text
at all only clean pairs are read, and no key twice. -/
theorem attributes_read_as_written :
    (∀ (text : String) (pairs : List (String × String)),
      (∀ pair ∈ pairs, Writable pair) → WritesPairs text pairs →
      (readAttributes text).map Prod.fst =
        (pairs.map Prod.fst).eraseDups ∧
      ∀ key, (readAttributes text).lookup key = pairs.reverse.lookup key) ∧
    ∀ text : String, ((readAttributes text).map Prod.fst).Nodup ∧
      ∀ pair ∈ readAttributes text, CleanAttribute pair := by
  refine ⟨fun text pairs hpairs htext => ?_, fun text => ?_⟩
  · rw [readAttributes_of_writes htext hpairs]
    exact ⟨keys_setAll pairs, lookup_setAll pairs⟩
  · rw [readAttributes_eq]
    refine ⟨nodup_keys_setAll _, fun pair hpair => ?_⟩
    obtain ⟨trimmed, hmem, hread⟩ :=
      List.mem_filterMap.mp (mem_of_mem_setAll hpair)
    obtain ⟨piece, hpiece, rfl⟩ := List.mem_map.mp hmem
    exact clean_of_attributeOf? (not_mem_of_mem_splitOn hpiece) hread

/-- A key of two bytes with an empty value first and another one later, and a
value with an equals sign, among blanks of several kinds. -/
theorem attributes_read_as_written_twice :
    let text := " é = \u3000,region=a=b,\té=2\u00a0"
    let pairs := [("é", ""), ("region", "a=b"), ("é", "2")]
    (∀ pair ∈ pairs, Writable pair) ∧ WritesPairs text pairs ∧
      (readAttributes text).map Prod.fst = ["é", "region"] ∧
      (readAttributes text).lookup "é" = some "2" ∧
      (readAttributes text).lookup "region" = some "a=b" := by
  intro text pairs
  have hpairs : ∀ pair ∈ pairs, Writable pair := by
    simp only [pairs, List.forall_mem_cons]
    refine ⟨⟨⟨?_, ?_, ?_, ?_, ?_, ?_⟩, ?_⟩, ⟨⟨?_, ?_, ?_, ?_, ?_, ?_⟩, ?_⟩,
      ⟨⟨?_, ?_, ?_, ?_, ?_, ?_⟩, ?_⟩, List.forall_mem_nil _⟩
    all_goals decide +kernel
  have htext : WritesPairs text pairs := by
    have hfirst := WritesPair.intro [' '] [' '] [' ', '\u3000'] [] "é" ""
      (by decide) (by decide) (by decide) (by decide)
    have hsecond := WritesPair.intro [] [] [] [] "region" "a=b"
      (by decide) (by decide) (by decide) (by decide)
    have hthird := WritesPair.intro ['\t'] [] [] ['\u00a0'] "é" "2"
      (by decide) (by decide) (by decide) (by decide)
    exact ⟨_, .cons hfirst (.cons hsecond (.cons hthird .nil)),
      by decide +kernel⟩
  obtain ⟨hwritten, -⟩ := attributes_read_as_written
  obtain ⟨hkeys, hvalues⟩ := hwritten text pairs hpairs htext
  refine ⟨hpairs, htext, hkeys.trans ?_, (hvalues "é").trans ?_,
    (hvalues "region").trans ?_⟩
  all_goals decide +kernel

end WindowedMetrics
