/-
Letters and digits of ASCII text.  Letter case is dropped character by
character, and neither letters nor digits are blanks.
-/
import WindowedMetrics.Text.Ascii
import WindowedMetrics.Text.Blank

namespace WindowedMetrics

/-! ### Letter case -/

theorem toNat_ofNat_of_lt {n : Nat} (h : n < 0xD800) :
    (Char.ofNat n).toNat = n := by
  rw [Char.ofNat, dif_pos (.inl h)]
  rfl

theorem toLower_eq (c : Char) : c.toLower =
    if 'A' ≤ c ∧ c ≤ 'Z' then Char.ofNat (c.toNat + 32) else c := by
  unfold Char.toLower
  split
  · rename_i h
    have hupper : 'A' ≤ c ∧ c ≤ 'Z' := h
    have hhigh : c.toNat ≤ 90 := UInt32.le_iff_toNat_le.mp h.2
    rw [if_pos hupper]
    apply Char.toNat_inj.mp
    rw [toNat_ofNat_of_lt (by omega), ← Char.toNat_val, UInt32.toNat_add,
      Char.toNat_val]
    exact Nat.mod_eq_of_lt (by omega : c.toNat + 32 < 2 ^ 32)
  · rename_i h
    have hother : ¬ ('A' ≤ c ∧ c ≤ 'Z') := h
    rw [if_neg hother]

theorem toList_lowerAscii (text : String) :
    (lowerAscii text).toList = text.toList.map Char.toLower := by
  rw [lowerAscii, String.toList_map]
  exact List.map_congr_left fun c _ => (toLower_eq c).symm

/-- What a text is in any letter case. -/
theorem lowerAscii_ofList_eq_iff {chars : List Char} {name : String} :
    lowerAscii (String.ofList chars) = name ↔
      chars.map Char.toLower = name.toList := by
  rw [← String.toList_inj, toList_lowerAscii, String.toList_ofList]

/-- Only letters have lower case letters. -/
theorem isAlpha_of_isAlpha_toLower {c : Char}
    (h : c.toLower.isAlpha = true) : c.isAlpha = true := by
  by_cases hupper : c.isUpper = true
  · exact Bool.or_eq_true_iff.mpr (.inl hupper)
  · have hother : ¬ ('A' ≤ c ∧ c ≤ 'Z') := mt decide_eq_true hupper
    rwa [toLower_eq, if_neg hother] at h

/-! ### No blanks -/

/-- Visible characters of ASCII text are no blanks. -/
theorem isBlank_of_visible {c : Char} (hlow : 33 ≤ c.toNat)
    (hhigh : c.toNat ≤ 126) : isBlank c = false := by
  simp only [isBlank, Bool.or_eq_false_iff, Bool.and_eq_false_iff,
    decide_eq_false_iff_not, beq_eq_false_iff_ne]
  omega

theorem isBlank_of_isDigit {c : Char} (h : c.isDigit = true) :
    isBlank c = false := by
  obtain ⟨hlow, hhigh⟩ := Char.isDigit_iff_toNat.mp h
  have hzero : '0'.toNat = 48 := rfl
  have hnine : '9'.toNat = 57 := rfl
  exact isBlank_of_visible (by omega) (by omega)

theorem isDigit_of_isBlank {c : Char} (h : isBlank c = true) :
    c.isDigit = false := by
  rw [Bool.eq_false_iff]
  intro hdigit
  rw [isBlank_of_isDigit hdigit] at h
  cases h

/-- Letters are no blanks and no digits. -/
theorem of_isAlpha {c : Char} (h : c.isAlpha = true) :
    isBlank c = false ∧ c.isDigit = false := by
  have hletter : 65 ≤ c.toNat ∧ c.toNat ≤ 90 ∨
      97 ≤ c.toNat ∧ c.toNat ≤ 122 := by
    unfold Char.isAlpha Char.isUpper Char.isLower at h
    simpa [UInt32.le_iff_toNat_le] using h
  refine ⟨isBlank_of_visible (by omega) (by omega), ?_⟩
  rw [Bool.eq_false_iff, Ne, Char.isDigit_iff_toNat]
  have hnine : '9'.toNat = 57 := rfl
  omega

end WindowedMetrics
