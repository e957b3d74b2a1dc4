/-
Which texts the readers of single values accept, and what they read: truth
values, temporalities, units of time, digits of precision, numbers, whole
numbers above zero, and lists of numbers between commas.
-/
import Mathlib.Data.List.Forall2
import WindowedMetrics.Export.Properties
import WindowedMetrics.Proofs.Number.Reader
import WindowedMetrics.Proofs.Text.Trimming

namespace WindowedMetrics

/-! ### Readings in steps -/

section Steps

variable {A B ε : Type}

/-- A step of a reading succeeds if both of its halves do. -/
theorem bind_eq_ok_iff {x : Except ε A} {f : A → Except ε B} {b : B} :
    (x >>= f) = .ok b ↔ ∃ a, x = .ok a ∧ f a = .ok b := by
  cases x with
  | error e => simp [bind, Except.bind]
  | ok a => simp [bind, Except.bind]

/-- A list is read if each of its items is. -/
theorem mapM_eq_ok_iff {f : A → Except ε B} {items : List A}
    {values : List B} :
    items.mapM f = .ok values ↔
      List.Forall₂ (fun item value => f item = .ok value) items values := by
  induction items generalizing values with
  | nil => simp [pure, Except.pure, eq_comm]
  | cons item rest ih =>
      simp only [List.mapM_cons, bind_eq_ok_iff, ih, List.forall₂_cons_left_iff]
      constructor
      · rintro ⟨value, hvalue, others, hothers, h⟩
        cases h
        exact ⟨value, others, hvalue, hothers, rfl⟩
      · rintro ⟨value, others, hvalue, hothers, rfl⟩
        exact ⟨value, hvalue, others, hothers, rfl⟩

end Steps

/-! ### Single values -/

variable {text : String}

/-- A truth value is read from its name in any letter case. -/
theorem readBool_eq_ok_iff {b : Bool} :
    readBool text = .ok b ↔
      text.toList.map Char.toLower = (toString b).toList := by
  rw [← toList_lowerAscii, String.toList_inj]
  unfold readBool
  generalize lowerAscii text = name
  constructor
  · intro h
    split at h <;> cases h <;> rfl
  · rintro rfl
    cases b <;> rfl

/-- A temporality is read from its name in any letter case. -/
theorem readTemporality_eq_ok_iff {temporality : Temporality} :
    Temporality.read text = .ok temporality ↔
      (trimChars text.toList).map Char.toLower = temporality.text.toList := by
  rw [← lowerAscii_ofList_eq_iff, ← trim]
  unfold Temporality.read
  generalize lowerAscii (trim text) = name
  constructor
  · intro h
    split at h <;> cases h <;> rfl
  · rintro rfl
    cases temporality <;> rfl

/-- A unit is read from its symbol or its name in any letter case. -/
theorem readTimeUnit_eq_ok_iff {unit : TimeUnit} :
    TimeUnit.read text = .ok unit ↔
      (trimChars text.toList).map Char.toLower = unit.symbol.toList ∨
        (trimChars text.toList).map Char.toLower =
          unit.name.toList.map Char.toLower := by
  have hnames : lowerAscii TimeUnit.nanoseconds.name = "nanoseconds" ∧
      lowerAscii TimeUnit.microseconds.name = "microseconds" ∧
      lowerAscii TimeUnit.milliseconds.name = "milliseconds" ∧
      lowerAscii TimeUnit.seconds.name = "seconds" := by
    decide +kernel
  rw [← toList_lowerAscii, ← lowerAscii_ofList_eq_iff,
    ← lowerAscii_ofList_eq_iff, ← trim]
  unfold TimeUnit.read
  generalize lowerAscii (trim text) = name
  constructor
  · intro h
    split at h <;> cases h <;>
      first | exact .inl rfl | exact .inr (by simp only [hnames])
  · rintro (rfl | rfl)
    · cases unit <;> rfl
    · cases unit <;> simp only [hnames]

/-- Digits of precision are at most five. -/
theorem readPrecision_eq_ok_iff {digits : Nat} :
    readPrecision text = .ok digits ↔
      WritesUnsigned text.toList digits ∧ digits ≤ 5 := by
  constructor
  · intro h
    unfold readPrecision at h
    split at h
    · rename_i hread
      split at h
      · rename_i hfew
        cases h
        exact ⟨(readUnsigned?_eq_some_iff.mp hread).1, hfew⟩
      · cases h
    · cases h
  · rintro ⟨hwrites, hfew⟩
    have hread : readUnsigned? 256 text = some digits :=
      readUnsigned?_eq_some_iff.mpr ⟨hwrites, by omega⟩
    simp only [readPrecision, hread, if_pos hfew]

/-- Of whole numbers that fit 64 bits only zero is refused. -/
theorem readPositive_eq_ok_iff {n : Nat} :
    readPositive text = .ok n ↔
      WritesUnsigned text.toList n ∧ 0 < n ∧ n < UInt64.size := by
  constructor
  · intro h
    unfold readPositive at h
    split at h
    · rename_i hread
      cases h
      obtain ⟨hwrites, hfits⟩ := readUnsigned?_eq_some_iff.mp hread
      exact ⟨hwrites, Nat.succ_pos _, hfits⟩
    · cases h
  · rintro ⟨hwrites, hpos, hfits⟩
    obtain ⟨k, rfl⟩ := Nat.exists_eq_succ_of_ne_zero hpos.ne'
    have hread : readUnsigned? UInt64.size text = some (k + 1) :=
      readUnsigned?_eq_some_iff.mpr ⟨hwrites, hfits⟩
    simp only [readPositive, hread]

/-- Every float is read but NaN. -/
theorem readNumber_eq_ok_iff {x : Float} :
    readNumber text = .ok x ↔
      WritesFloat text.toList x ∧ x.isNaN = false := by
  rw [← readFloat?_eq_some_iff]
  constructor
  · intro h
    unfold readNumber at h
    split at h
    · rename_i hread
      split at h
      · cases h
      · rename_i hnumber
        cases h
        exact ⟨hread, Bool.eq_false_iff.mpr hnumber⟩
    · cases h
  · rintro ⟨hread, hnumber⟩
    simp only [readNumber, hread, hnumber, Bool.false_eq_true, ↓reduceIte]

/-- Of a list the items between commas are read, without the blanks around
them; empty ones are left out. -/
theorem readNumbers_eq_ok_iff {numbers : List Float} :
    readNumbers text = .ok numbers ↔
      List.Forall₂ (fun item x => WritesFloat item x ∧ x.isNaN = false)
        (((text.toList.splitOn ',').map trimChars).filter fun item =>
          decide (item ≠ [])) numbers := by
  have hempty : (fun item : List Char => !item.isEmpty) =
      fun item => decide (item ≠ []) := by
    funext item
    cases item <;> rfl
  simp only [readNumbers, splitChars_eq_splitOn, hempty, mapM_eq_ok_iff,
    readNumber_eq_ok_iff, String.toList_ofList]

/-- A point without digits after it, an exponent, a name, and an empty
item. -/
example : (readNumbers "2., 5e-1,,-Inf").toOption =
    some [2.0, 0.5, -1.0 / 0.0] := by
  decide +kernel

end WindowedMetrics
