/-
The order of texts by their bytes.  In UTF-8 a later character has later
bytes, and no character begins with the bytes of another, so that texts have
the same order by bytes as by characters.
-/
import WindowedMetrics.Identity.Tags

namespace WindowedMetrics

/-- The bytes of a text. -/
def utf8Bytes (text : String) : List UInt8 := text.toUTF8.data.toList

theorem utf8Bytes_eq (text : String) :
    utf8Bytes text = text.toList.flatMap String.utf8EncodeChar := by
  calc utf8Bytes text
      = (String.ofList text.toList).toByteArray.data.toList := by
        rw [String.ofList_toList]
        rfl
    _ = text.toList.flatMap String.utf8EncodeChar := by
        rw [String.toByteArray_ofList, List.utf8Encode, List.data_toByteArray]

/-- Bytes compare as the numbers they are made of, and the first difference
decides. -/
theorem cons_ofNat_lt {a b : Nat} (hb : b < 256) {xs ys : List UInt8}
    (h : a < b ∨ a = b ∧ xs < ys) :
    UInt8.ofNat a :: xs < UInt8.ofNat b :: ys := by
  rw [List.cons_lt_cons_iff]
  obtain hlt | ⟨rfl, hrest⟩ := h
  · left
    rw [UInt8.lt_iff_toNat_lt, UInt8.toNat_ofNat', UInt8.toNat_ofNat']
    omega
  · exact .inr ⟨rfl, hrest⟩

/-! ### Six bits at a time -/

section Digits

variable {m n : Nat} (hlt : m < n) {xs ys : List UInt8}

include hlt

theorem lastByte_lt (hhigh : m / 64 = n / 64) :
    UInt8.ofNat (m % 64 + 128) :: xs < UInt8.ofNat (n % 64 + 128) :: ys :=
  cons_ofNat_lt (by omega) (.inl (by omega))

theorem lastTwoBytes_lt (hhigh : m / 4096 = n / 4096) :
    UInt8.ofNat (m / 64 % 64 + 128) :: UInt8.ofNat (m % 64 + 128) :: xs <
      UInt8.ofNat (n / 64 % 64 + 128) :: UInt8.ofNat (n % 64 + 128) :: ys := by
  apply cons_ofNat_lt (by omega)
  by_cases hdigit : m / 64 < n / 64
  · exact .inl (by omega)
  · exact .inr ⟨by omega, lastByte_lt hlt (by omega)⟩

theorem lastThreeBytes_lt (hhigh : m / 262144 = n / 262144) :
    UInt8.ofNat (m / 4096 % 64 + 128) :: UInt8.ofNat (m / 64 % 64 + 128) ::
        UInt8.ofNat (m % 64 + 128) :: xs <
      UInt8.ofNat (n / 4096 % 64 + 128) :: UInt8.ofNat (n / 64 % 64 + 128) ::
        UInt8.ofNat (n % 64 + 128) :: ys := by
  apply cons_ofNat_lt (by omega)
  by_cases hdigit : m / 4096 < n / 4096
  · exact .inl (by omega)
  · exact .inr ⟨by omega, lastTwoBytes_lt hlt (by omega)⟩

end Digits

/-! ### Characters -/

/-- The bytes of a character are below those of any later one, whatever
follows them. -/
theorem utf8EncodeChar_append_lt {c d : Char} (h : c < d)
    (xs ys : List UInt8) :
    String.utf8EncodeChar c ++ xs < String.utf8EncodeChar d ++ ys := by
  have hlt : c.val.toNat < d.val.toNat := h
  have hbound : d.val.toNat < 1114112 := by
    obtain hsmall | hlarge := d.valid
    · exact Nat.lt_trans hsmall (by decide)
    · exact hlarge.2
  unfold String.utf8EncodeChar
  generalize c.val.toNat = m at hlt ⊢
  generalize d.val.toNat = n at hlt hbound ⊢
  -- A character of more bytes has a later first byte; among those of one
  -- width the highest digits decide that differ.
  by_cases hone : n ≤ 127
  · rw [if_pos (by omega), if_pos hone]
    exact cons_ofNat_lt (by omega) (.inl hlt)
  by_cases hfirst : m ≤ 127
  · rw [if_pos hfirst, if_neg hone]
    split
    · exact cons_ofNat_lt (by omega) (.inl (by omega))
    · split <;> exact cons_ofNat_lt (by omega) (.inl (by omega))
  rw [if_neg hfirst, if_neg hone]
  by_cases htwo : n ≤ 2047
  · rw [if_pos (by omega), if_pos htwo]
    apply cons_ofNat_lt (by omega)
    by_cases hdigit : m / 64 < n / 64
    · exact .inl (by omega)
    · exact .inr ⟨by omega, lastByte_lt hlt (by omega)⟩
  by_cases hsecond : m ≤ 2047
  · rw [if_pos hsecond, if_neg htwo]
    split <;> exact cons_ofNat_lt (by omega) (.inl (by omega))
  rw [if_neg hsecond, if_neg htwo]
  by_cases hthree : n ≤ 65535
  · rw [if_pos (by omega), if_pos hthree]
    apply cons_ofNat_lt (by omega)
    by_cases hdigit : m / 4096 < n / 4096
    · exact .inl (by omega)
    · exact .inr ⟨by omega, lastTwoBytes_lt hlt (by omega)⟩
  rw [if_neg hthree]
  split
  · exact cons_ofNat_lt (by omega) (.inl (by omega))
  · apply cons_ofNat_lt (by omega)
    by_cases hdigit : m / 262144 < n / 262144
    · exact .inl (by omega)
    · exact .inr ⟨by omega, lastThreeBytes_lt hlt (by omega)⟩

/-! ### Texts -/

theorem flatMap_utf8EncodeChar_lt {cs ds : List Char} (h : cs < ds) :
    cs.flatMap String.utf8EncodeChar < ds.flatMap String.utf8EncodeChar := by
  induction cs generalizing ds with
  | nil =>
      cases ds with
      | nil => exact absurd h (List.lt_irrefl [])
      | cons d ds =>
          rw [List.flatMap_cons]
          cases hbytes : String.utf8EncodeChar d with
          | nil => exact absurd hbytes String.utf8EncodeChar_ne_nil
          | cons byte bytes => exact List.nil_lt_cons byte _
  | cons c cs ih =>
      cases ds with
      | nil => exact absurd h (List.not_lt_nil _)
      | cons d ds =>
          rw [List.flatMap_cons, List.flatMap_cons]
          obtain hlt | ⟨rfl, hrest⟩ := List.cons_lt_cons_iff.mp h
          · exact utf8EncodeChar_append_lt hlt _ _
          · exact List.append_left_lt (ih hrest)

theorem utf8Bytes_lt {a b : String} (h : a < b) :
    utf8Bytes a < utf8Bytes b := by
  rw [utf8Bytes_eq, utf8Bytes_eq]
  exact flatMap_utf8EncodeChar_lt (String.lt_iff.mp h)

/-- Texts have the same order by bytes as by characters. -/
theorem utf8Bytes_lt_iff (a b : String) :
    utf8Bytes a < utf8Bytes b ↔ a < b := by
  refine ⟨fun hbytes => ?_, utf8Bytes_lt⟩
  by_cases hlt : a < b
  · exact hlt
  by_cases heq : a = b
  · subst heq
    exact absurd hbytes (List.lt_irrefl _)
  · exact absurd hbytes
      (List.lt_asymm (utf8Bytes_lt (key_lt_of_not_lt hlt heq)))

theorem utf8Bytes_le_iff (a b : String) :
    utf8Bytes a ≤ utf8Bytes b ↔ a ≤ b :=
  not_congr (utf8Bytes_lt_iff b a)

end WindowedMetrics
