/-
Words as floats.  Counts above `2^53` are rounded, and rounding keeps their
order: the larger of two words has the larger key, in which floats are sorted.
-/
import WindowedMetrics.Proofs.Number.TotalOrder

namespace WindowedMetrics

open Float.Model Float.Model.UnpackedFloat

namespace Binary64

/-! ### Rounding keeps the order -/

/-- A mantissa with what is left of the bits below it, as one number. -/
def extendedKey (em : ExtendedMantissa) : Nat :=
  4 * em.mantissa + 2 * em.roundBit.toNat + em.stickyBit.toNat

theorem extendedKey_shiftRightOne {a b : ExtendedMantissa}
    (hle : extendedKey a ≤ extendedKey b) :
    extendedKey a.shiftRightOne ≤ extendedKey b.shiftRightOne := by
  have hhalf : ∀ em : ExtendedMantissa, extendedKey em.shiftRightOne =
      2 * em.mantissa + (em.roundBit || em.stickyBit).toNat := by
    rintro ⟨m, r, s⟩
    have hodd : (m % 2 != 0).toNat = m % 2 := by
      rcases Nat.mod_two_eq_zero_or_one m with hm | hm <;> simp [hm]
    simp only [extendedKey, ExtendedMantissa.shiftRightOne, hodd]
    omega
  rw [hhalf, hhalf]
  rcases a with ⟨m, _ | _, _ | _⟩ <;> rcases b with ⟨n, _ | _, _ | _⟩ <;>
    simp [extendedKey] at hle ⊢ <;> omega

theorem extendedKey_shiftRight {a b : ExtendedMantissa}
    (hle : extendedKey a ≤ extendedKey b) (k : Nat) :
    extendedKey (a >>> k) ≤ extendedKey (b >>> k) := by
  induction k with
  | zero => exact hle
  | succ k ih => exact extendedKey_shiftRightOne ih

theorem roundedMantissa_mono {a b : ExtendedMantissa}
    (hle : extendedKey a ≤ extendedKey b) :
    a.roundedMantissa ≤ b.roundedMantissa := by
  rcases a with ⟨m, _ | _, _ | _⟩ <;> rcases b with ⟨n, _ | _, _ | _⟩ <;>
    simp [extendedKey, ExtendedMantissa.roundedMantissa,
      ExtendedMantissa.accuracy, Accuracy.roundToNearestEven] at hle ⊢ <;>
    omega

theorem rounded_mono {m n : Nat} (hle : m ≤ n) (k : Nat) :
    rounded m k ≤ rounded n k := by
  apply roundedMantissa_mono
  apply extendedKey_shiftRight
  simpa [extendedKey, whole] using hle

/-! ### The significand of a word -/

/-- The 53 bits that are kept of a count, or `2^53` if rounding carries. -/
def significand (n : Nat) : Nat :=
  rounded (n <<< (52 - n.log2)) (n.log2 - 52)

section Significand

variable {n : Nat} (hpos : 0 < n)

include hpos

theorem log2_mul_two_pow (k : Nat) : (n * 2 ^ k).log2 = n.log2 + k := by
  have hshifted : n * 2 ^ k ≠ 0 := (Nat.mul_pos hpos (Nat.two_pow_pos k)).ne'
  rw [Nat.log2_eq_iff hshifted, Nat.add_right_comm, Nat.pow_add, Nat.pow_add]
  exact ⟨Nat.mul_le_mul_right _ (Nat.log2_self_le hpos.ne'),
    Nat.mul_lt_mul_of_pos_right Nat.lt_log2_self (Nat.two_pow_pos k)⟩

/-- Short counts are moved to the left until they fill the 53 bits. -/
theorem log2_shiftLeft_sub : (n <<< (52 - n.log2)).log2 = max n.log2 52 := by
  rw [Nat.shiftLeft_eq, log2_mul_two_pow hpos]
  omega

theorem dropped_shiftLeft :
    dropped (n <<< (52 - n.log2)) (-(52 - n.log2 : Nat)) = n.log2 - 52 := by
  rw [dropped, log2_shiftLeft_sub hpos]
  omega

theorem significand_le : significand n ≤ 2 ^ 53 := by
  have hle := rounded_le_two_pow (n <<< (52 - n.log2)) (-(52 - n.log2 : Nat))
  rw [dropped_shiftLeft hpos] at hle
  exact hle

theorem le_significand : 2 ^ 52 ≤ significand n := by
  refine le_trans ?_ (div_le_rounded _ _)
  rw [Nat.le_div_iff_mul_le (Nat.two_pow_pos _), ← Nat.pow_add,
    Nat.shiftLeft_eq]
  have hlow := Nat.log2_self_le hpos.ne'
  rcases le_total n.log2 52 with hshort | hlong
  · rw [Nat.sub_eq_zero_of_le hshort, Nat.add_zero]
    calc 2 ^ 52 = 2 ^ n.log2 * 2 ^ (52 - n.log2) := by
          rw [← Nat.pow_add, Nat.add_sub_cancel' hshort]
      _ ≤ n * 2 ^ (52 - n.log2) := Nat.mul_le_mul_right _ hlow
  · rw [Nat.sub_eq_zero_of_le hlong, Nat.add_sub_cancel' hlong, Nat.pow_zero,
      Nat.mul_one]
    exact hlow

end Significand

/-- Counts of one length are in the order of their significands. -/
theorem significand_mono {m n : Nat} (hle : m ≤ n)
    (hlog : m.log2 = n.log2) : significand m ≤ significand n := by
  unfold significand
  rw [hlog]
  apply rounded_mono
  rw [Nat.shiftLeft_eq, Nat.shiftLeft_eq]
  exact Nat.mul_le_mul_right _ hle

/-- A word is rounded to its length and its significand, in one number. -/
theorem exists_unpacked_of_word {n : Nat} (hpos : 0 < n)
    (hword : n < 2 ^ 64) :
    ∃ m e hm, UnpackedFloat.ofNat .binary64 n = .finite .positive m e hm ∧
      Canonical m e ∧ 2 ^ 52 ≤ m ∧ -52 ≤ e ∧
      (e + 1074) * 2 ^ 52 + m = (n.log2 + 1022) * 2 ^ 52 + significand n := by
  have hlog : n.log2 < 64 := (Nat.log2_lt hpos.ne').mpr hword
  have hround : UnpackedFloat.ofNat .binary64 n =
      roundWithAccuracy .binary64 .positive (n <<< (52 - n.log2))
        (-(52 - n.log2 : Nat)) .exact := by
    have hgt : compare (n : Int) 0 = .gt := by
      rw [Int.compare_eq_gt]
      omega
    have hshift : (-max ((n.log2 : Int) + 0 - 52) (-1074)).toNat =
        52 - n.log2 := by omega
    change UnpackedFloat.normalize .binary64 n 0 .positive = _
    simp only [UnpackedFloat.normalize, hgt, UnpackedFloat.round,
      targetExponent_eq, decreaseExponent, Int.toNat_natCast, Int.zero_sub,
      hshift]
  have hlow := le_significand hpos
  have hhigh := significand_le hpos
  rw [hround, roundWithAccuracy_eq, dropped_shiftLeft hpos]
  change 2 ^ 52 ≤ rounded _ _ at hlow
  change rounded _ _ ≤ 2 ^ 53 at hhigh
  rw [dif_neg (by omega)]
  by_cases hcarry : rounded (n <<< (52 - n.log2)) (n.log2 - 52) < 2 ^ 53
  · rw [if_pos hcarry]
    refine ⟨_, _, _, rfl, ⟨hcarry, ?_, ?_, .inl hlow⟩, hlow, ?_, ?_⟩
    · omega
    · omega
    · omega
    · unfold significand
      omega
  · rw [if_neg hcarry]
    refine ⟨_, _, _, rfl, ⟨by decide, ?_, ?_, .inl le_rfl⟩, le_rfl, ?_, ?_⟩
    · omega
    · omega
    · omega
    · unfold significand
      omega

/-! ### Division by one -/

theorem unpack_one : (1.0 : Float).toModel.unpack =
    .finite .positive (2 ^ 52) (-52) (by decide) := rfl

/-- A number of full length divided by one is what it was. -/
theorem div_one {m : Nat} {e : Int} (hm : 0 < m) (hc : Canonical m e)
    (hfull : 2 ^ 52 ≤ m) (he : -52 ≤ e) :
    UnpackedFloat.div .binary64 (.finite .positive m e hm)
      (.finite .positive (2 ^ 52) (-52) (by decide)) =
      .finite .positive m e hm := by
  have hlog : m.log2 = 52 := (Nat.log2_eq_iff hm.ne').mpr ⟨hfull, hc.lt⟩
  have htarget : Format.binary64.targetExponent
      (totalExponent m e - totalExponent (2 ^ 52) (-52)) = e - 1 := by
    have hbits : Format.binary64.mantissaBits = 53 := rfl
    simp only [Format.targetExponent, totalExponent, hbits,
      Format.minExponent, hlog, Nat.log2_two_pow]
    norm_num
    omega
  have hcore : divCore .binary64 m e (2 ^ 52) (-52) =
      (m * 2, e - 1, .exact) := by
    have hshift : (e - -52 - (e - 1)).toNat = 53 := by omega
    simp only [divCore, htarget]
    rw [min_eq_right (by omega), hshift, Nat.shiftLeft_eq]
    have hsplit : m * 2 ^ 53 = m * 2 * 2 ^ 52 := by ring
    rw [hsplit, Nat.mul_div_cancel _ (by decide), Nat.mul_mod_left]
    rfl
  have hdropped : dropped (m * 2) (e - 1) = 1 := by
    have hdouble : (m * 2).log2 = 53 := by
      rw [Nat.mul_comm, Nat.log2_two_mul hm.ne', hlog]
    rw [dropped, hdouble]
    omega
  have hrounded : rounded (m * 2) 1 = m := by
    have heven : 2 ^ 1 ∣ m * 2 := Nat.dvd_mul_left 2 m
    rw [rounded, shiftRight_of_dvd heven]
    exact Nat.mul_div_cancel m (by decide)
  have hdivided : UnpackedFloat.div .binary64 (.finite .positive m e hm)
      (.finite .positive (2 ^ 52) (-52) (by decide)) =
      roundWithAccuracy .binary64 .positive
        (divCore .binary64 m e (2 ^ 52) (-52)).1
        (divCore .binary64 m e (2 ^ 52) (-52)).2.1
        (divCore .binary64 m e (2 ^ 52) (-52)).2.2 := rfl
  rw [hdivided, hcore]
  dsimp only
  rw [roundWithAccuracy_eq, hdropped, hrounded, dif_neg hm.ne',
    if_pos hc.lt]
  exact finite_congr rfl rfl (by omega) hm

end Binary64

/-! ### Words as floats -/

section Words

open Binary64

variable {a b n : Nat}

theorem countToFloat_eq_of_word (hn : n < 2 ^ 64) :
    countToFloat n = .ofModel (.pack (UnpackedFloat.ofNat .binary64 n)) := by
  have hword : n.toUInt64.toNat = n := by
    rw [Nat.toUInt64_eq, UInt64.toNat_ofNat']
    exact Nat.mod_eq_of_lt hn
  change Float.ofModel (.pack (UnpackedFloat.ofNat .binary64
    n.toUInt64.toNat)) = _
  rw [hword]

/-- A word above zero is a number of full length. -/
theorem exists_unpack_countToFloat (hpos : 0 < n) (hn : n < 2 ^ 64) :
    ∃ m e hm, (countToFloat n).toModel.unpack = .finite .positive m e hm ∧
      Canonical m e ∧ 2 ^ 52 ≤ m ∧ -52 ≤ e ∧
      (e + 1074) * 2 ^ 52 + m = (n.log2 + 1022) * 2 ^ 52 + significand n := by
  obtain ⟨m, e, hm, heq, hc, hrest⟩ := exists_unpacked_of_word hpos hn
  refine ⟨m, e, hm, ?_, hc, hrest⟩
  rw [countToFloat_eq_of_word hn, heq]
  exact unpack_pack .positive hm hc

theorem isFinite_countToFloat (n : Nat) :
    (countToFloat n).isFinite = true := by
  obtain ⟨k, hk, heq⟩ : ∃ k < 2 ^ 64, countToFloat n = countToFloat k := by
    refine ⟨n.toUInt64.toNat, n.toUInt64.toNat_lt, ?_⟩
    rw [countToFloat, countToFloat, Nat.toUInt64_eq, Nat.toUInt64_eq,
      UInt64.ofNat_toNat]
  rw [heq]
  rcases Nat.eq_zero_or_pos k with rfl | hpos
  · decide +kernel
  · obtain ⟨m, e, hm, hunpack, -⟩ := exists_unpack_countToFloat hpos hk
    change (countToFloat k).toModel.unpack.isFinite = true
    rw [hunpack]
    rfl

theorem totalKey_countToFloat (hpos : 0 < n) (hn : n < 2 ^ 64) :
    totalKey (countToFloat n) =
      (n.log2 + 1022) * 2 ^ 52 + significand n := by
  obtain ⟨m, e, hm, hunpack, -, -, -, hkey⟩ :=
    exists_unpack_countToFloat hpos hn
  have hparts : Dyadic.ofFloat? (countToFloat n) = some ⟨false, m, e⟩ := by
    rw [Dyadic.ofFloat?_eq, hunpack]
    rfl
  rw [totalKey_eq hparts, ← hkey]
  simp only [Dyadic.key]
  norm_num

/-- The larger of two words has the larger key. -/
theorem totalKey_countToFloat_mono (hle : a ≤ b) (hb : b < 2 ^ 64) :
    totalKey (countToFloat a) ≤ totalKey (countToFloat b) := by
  rcases Nat.eq_zero_or_pos a with rfl | ha
  · have hzero : totalKey (countToFloat 0) = 0 := by decide +kernel
    rw [hzero]
    rcases Nat.eq_zero_or_pos b with rfl | hpos
    · exact hzero.ge
    · rw [totalKey_countToFloat hpos hb]
      positivity
  · have hpos : 0 < b := ha.trans_le hle
    rw [totalKey_countToFloat ha (hle.trans_lt hb),
      totalKey_countToFloat hpos hb]
    have hlog : a.log2 ≤ b.log2 :=
      (Nat.le_log2 hpos.ne').mpr ((Nat.log2_self_le ha.ne').trans hle)
    rcases hlog.eq_or_lt with hsame | hless
    · have hmono := significand_mono hle hsame
      omega
    · -- a carry of the shorter one is not above the longer one
      have hhigh := significand_le ha
      have hlow := le_significand hpos
      omega

/-- A word divided by one is what it was. -/
theorem countToFloat_div_one (hn : n < 2 ^ 64) :
    countToFloat n / 1.0 = countToFloat n := by
  rcases Nat.eq_zero_or_pos n with rfl | hpos
  · decide +kernel
  · obtain ⟨m, e, hm, heq, hc, hfull, he, -⟩ :=
      exists_unpacked_of_word hpos hn
    have hunpack : (countToFloat n).toModel.unpack =
        .finite .positive m e hm := by
      rw [countToFloat_eq_of_word hn, heq]
      exact unpack_pack .positive hm hc
    change Float.ofModel (.pack (UnpackedFloat.div .binary64
      (countToFloat n).toModel.unpack (1.0 : Float).toModel.unpack)) = _
    rw [hunpack, unpack_one, div_one hm hc hfull he,
      countToFloat_eq_of_word hn, heq]

end Words

/-- Two floats of one key are the same. -/
theorem totalKey_injective : Function.Injective totalKey := by
  intro x y heq
  have hx : x.toBits.toNat < 2 ^ 64 := x.toBits.toNat_lt
  have hy : y.toBits.toNat < 2 ^ 64 := y.toBits.toNat_lt
  have hbits : x.toBits.toNat = y.toBits.toNat := by
    unfold totalKey at heq
    simp only [Nat.one_shiftLeft] at heq
    split at heq <;> split at heq <;> omega
  have hword : x.toBits = y.toBits := UInt64.toNat_inj.mp hbits
  obtain ⟨⟨bits, hvalid⟩⟩ := x
  obtain ⟨⟨bits', hvalid'⟩⟩ := y
  cases hword
  rfl

theorem totalLe_antisymm {x y : Float} (hxy : totalLe x y = true)
    (hyx : totalLe y x = true) : x = y := by
  rw [totalLe, decide_eq_true_eq] at hxy hyx
  exact totalKey_injective (Int.le_antisymm hxy hyx)

end WindowedMetrics
