/-
Rounding to the nearest float.  Whatever is rounded stays on its side of every
number of at most 53 bits, so that such numbers themselves are exact.  Packed
numbers of full length unpack to what they were.
-/
import WindowedMetrics.Number.Dyadic
import Mathlib.Algebra.Order.Field.Power
import Mathlib.Data.Nat.Log
import Mathlib.Tactic.Linarith
import Mathlib.Tactic.Positivity
import Mathlib.Tactic.Ring

namespace WindowedMetrics

open Float.Model Float.Model.UnpackedFloat

namespace Binary64

/-! ### Dropping bits -/

/-- The mantissa with nothing cut off yet. -/
def whole (m : Nat) : ExtendedMantissa := ⟨m, false, false⟩

theorem mantissa_shiftRight (em : ExtendedMantissa) (k : Nat) :
    (em >>> k).mantissa = em.mantissa / 2 ^ k := by
  induction k with
  | zero => simp [HShiftRight.hShiftRight, Nat.repeat]
  | succ k ih =>
      change (em >>> k).mantissa / 2 = _
      rw [ih, Nat.div_div_eq_div_mul, Nat.pow_succ]

/-- Only zeros are cut off a multiple of the power of two. -/
theorem shiftRight_of_dvd {m k : Nat} (hdvd : 2 ^ k ∣ m) :
    whole m >>> k = whole (m / 2 ^ k) := by
  induction k with
  | zero => simp [whole, HShiftRight.hShiftRight, Nat.repeat]
  | succ k ih =>
      have hfew : 2 ^ k ∣ m := (Nat.pow_dvd_pow 2 (Nat.le_succ k)).trans hdvd
      have heven : m / 2 ^ k % 2 = 0 := by
        rw [← Nat.dvd_iff_mod_eq_zero, Nat.dvd_div_iff_mul_dvd hfew]
        exact hdvd
      change (whole m >>> k).shiftRightOne = _
      rw [ih hfew, Nat.pow_succ, ← Nat.div_div_eq_div_mul]
      simp [ExtendedMantissa.shiftRightOne, whole, heven]

theorem mantissa_le_roundedMantissa (em : ExtendedMantissa) :
    em.mantissa ≤ em.roundedMantissa := by
  rcases em with ⟨m, _ | _, _ | _⟩ <;>
    simp [ExtendedMantissa.roundedMantissa, ExtendedMantissa.accuracy,
      Accuracy.roundToNearestEven]

theorem roundedMantissa_le (em : ExtendedMantissa) :
    em.roundedMantissa ≤ em.mantissa + 1 := by
  rcases em with ⟨m, _ | _, _ | _⟩ <;>
    simp [ExtendedMantissa.roundedMantissa, ExtendedMantissa.accuracy,
      Accuracy.roundToNearestEven]
  omega

/-- What is left of a mantissa without its last bits, to nearest even. -/
def rounded (m k : Nat) : Nat := (whole m >>> k).roundedMantissa

theorem div_le_rounded (m k : Nat) : m / 2 ^ k ≤ rounded m k := by
  have hfloor := mantissa_shiftRight (whole m) k
  have hle := mantissa_le_roundedMantissa (whole m >>> k)
  rw [hfloor] at hle
  exact hle

theorem rounded_le {m k bound : Nat} (hle : m ≤ bound * 2 ^ k) :
    rounded m k ≤ bound := by
  have hfloor := mantissa_shiftRight (whole m) k
  have hceil := roundedMantissa_le (whole m >>> k)
  rw [hfloor] at hceil
  have hdiv : m / 2 ^ k ≤ bound := Nat.div_le_of_le_mul (by rwa [Nat.mul_comm])
  rcases Nat.lt_or_eq_of_le hdiv with hlt | heq
  · exact hceil.trans hlt
  · -- nothing but zeros is cut off
    have hfull : m = bound * 2 ^ k := by
      apply Nat.le_antisymm hle
      rw [← heq]
      exact Nat.div_mul_le_self m _
    rw [rounded, shiftRight_of_dvd (hfull ▸ Nat.dvd_mul_left _ _), heq]
    exact Nat.le_refl _

/-! ### Rounding in closed form -/

/-- The number of bits that rounding drops. -/
def dropped (m : Nat) (e : Int) : Nat :=
  (max ((m.log2 : Int) + e - 52) (-1074) - e).toNat

theorem targetExponent_eq (m : Nat) (e : Int) :
    Format.binary64.targetExponent (totalExponent m e) =
      max ((m.log2 : Int) + e - 52) (-1074) := by
  have hbits : Format.binary64.mantissaBits = 53 := rfl
  simp only [Format.targetExponent, totalExponent, hbits, Format.minExponent]
  norm_num
  omega

theorem shiftToTargetExponent_eq (m : Nat) (e : Int) :
    shiftToTargetExponent .binary64 m e .exact =
      (whole m >>> dropped m e, e + dropped m e) := by
  simp only [shiftToTargetExponent, targetExponent_eq]
  rfl

theorem dropped_spec (m : Nat) (e : Int) :
    -1074 ≤ e + dropped m e ∧ m.log2 ≤ 52 + dropped m e := by
  unfold dropped
  omega

/-- Above the least exponent, only bits past the 53 that are kept are
dropped. -/
theorem two_pow_le_of_dropped {m : Nat} {e : Int} (hpos : 0 < dropped m e)
    (hnormal : -1074 < e + dropped m e) : 2 ^ 52 * 2 ^ dropped m e ≤ m := by
  have hlog : m.log2 = 52 + dropped m e := by
    unfold dropped at hpos hnormal ⊢
    omega
  have hne : m ≠ 0 := by
    rintro rfl
    rw [Nat.log2_zero] at hlog
    omega
  rw [← Nat.pow_add, ← hlog]
  exact Nat.log2_self_le hne

theorem rounded_le_two_pow (m : Nat) (e : Int) :
    rounded m (dropped m e) ≤ 2 ^ 53 := by
  apply rounded_le
  have hlog := Nat.lt_log2_self (n := m)
  have hpow : 2 ^ (m.log2 + 1) ≤ 2 ^ (53 + dropped m e) :=
    Nat.pow_le_pow_right (by omega) (by have := dropped_spec m e; omega)
  rw [← Nat.pow_add]
  omega

theorem dropped_eq_zero {m : Nat} {e : Int} (hm : m < 2 ^ 53)
    (he : -1074 ≤ e) : dropped m e = 0 := by
  have hlog : m.log2 ≤ 52 := by
    rcases Nat.eq_zero_or_pos m with rfl | hpos
    · simp
    · have := (Nat.log2_lt hpos.ne').mpr hm
      omega
  unfold dropped
  omega

/-- The first rounding decides; a mantissa that has grown by a bit gives up its
last one, which is zero. -/
theorem roundWithAccuracy_eq (s : Sign) (m : Nat) (e : Int) :
    roundWithAccuracy .binary64 s m e .exact =
      if h : rounded m (dropped m e) = 0 then .zero s
      else if rounded m (dropped m e) < 2 ^ 53 then
        .finite s (rounded m (dropped m e)) (e + dropped m e)
          (Nat.pos_of_ne_zero h)
      else .finite s (2 ^ 52) (e + dropped m e + 1) (by decide) := by
  have hspec := dropped_spec m e
  have hmax := rounded_le_two_pow m e
  have hsecond : ∀ r : Nat, ∀ e' : Int, r < 2 ^ 53 → -1074 ≤ e' →
      shiftToTargetExponent .binary64 r e' .exact = (whole r, e') := by
    intro r e' hr he'
    rw [shiftToTargetExponent_eq, dropped_eq_zero hr he']
    simp [HShiftRight.hShiftRight, Nat.repeat]
  unfold roundWithAccuracy
  rw [shiftToTargetExponent_eq]
  unfold rounded at hmax ⊢
  dsimp only
  generalize (whole m >>> dropped m e).roundedMantissa = r at hmax
  generalize e + (dropped m e : Int) = e' at hspec
  rcases Nat.lt_or_eq_of_le hmax with hlt | rfl
  · rw [hsecond r e' hlt hspec.1]
    by_cases hzero : r = 0
    · rw [dif_pos hzero]
      exact dif_pos hzero
    · rw [dif_neg hzero, if_pos hlt]
      exact dif_neg hzero
  · have hone : dropped (2 ^ 53) e' = 1 := by
      unfold dropped
      rw [Nat.log2_two_pow]
      omega
    rw [shiftToTargetExponent_eq, hone]
    rfl

/-! ### Values -/

/-- What a mantissa and an exponent stand for. -/
def magnitude (m : Nat) (e : Int) : ℚ := m * 2 ^ e

theorem magnitude_pos {m : Nat} (hpos : 0 < m) (e : Int) :
    0 < magnitude m e := by
  unfold magnitude
  positivity

theorem magnitude_mul_two_pow (m k : Nat) (e : Int) :
    magnitude (m * 2 ^ k) e = magnitude m (e + k) := by
  unfold magnitude
  rw [zpow_add₀ (by norm_num), zpow_natCast]
  push_cast
  ring

theorem magnitude_mul (m n : Nat) (e f : Int) :
    magnitude (m * n) (e + f) = magnitude m e * magnitude n f := by
  unfold magnitude
  rw [zpow_add₀ (by norm_num), Nat.cast_mul]
  ring

theorem magnitude_le_magnitude {m n : Nat} (e : Int) :
    magnitude m e ≤ magnitude n e ↔ m ≤ n := by
  unfold magnitude
  rw [mul_le_mul_iff_left₀ (by positivity), Nat.cast_le]

/-- A number of at most 53 bits can be given at any lower exponent, and is
not above the numbers of full length at any higher one. -/
theorem magnitude_at {b : Nat} (hb : b ≤ 2 ^ 53) (low e : Int) :
    (∃ n, magnitude b low = magnitude n e) ∨
      low < e ∧ magnitude b low ≤ magnitude (2 ^ 52) e := by
  rcases le_or_gt e low with hle | hlt
  · obtain ⟨k, rfl⟩ : ∃ k : Nat, low = e + k := ⟨(low - e).toNat, by omega⟩
    exact Or.inl ⟨b * 2 ^ k, (magnitude_mul_two_pow b k e).symm⟩
  · refine Or.inr ⟨hlt, ?_⟩
    obtain ⟨k, rfl⟩ : ∃ k : Nat, e = low + (k + 1 : Nat) :=
      ⟨(e - low - 1).toNat, by omega⟩
    rw [← magnitude_mul_two_pow, magnitude_le_magnitude]
    calc b ≤ 2 ^ 52 * 2 ^ 1 := hb
      _ ≤ 2 ^ 52 * 2 ^ (k + 1) :=
        Nat.mul_le_mul_left _ (Nat.pow_le_pow_right (by omega) (by omega))

section Passing

variable {m b : Nat} {e low : Int}

/-- Rounding does not pass a number of at most 53 bits upwards. -/
theorem magnitude_rounded_le (hb : b ≤ 2 ^ 53) (hlow : -1074 ≤ low)
    (hle : magnitude m e ≤ magnitude b low) :
    magnitude (rounded m (dropped m e)) (e + dropped m e) ≤
      magnitude b low := by
  rcases magnitude_at hb low (e + dropped m e) with ⟨n, hn⟩ | ⟨hlt, hfull⟩
  · rw [hn] at hle ⊢
    rw [← magnitude_mul_two_pow, magnitude_le_magnitude] at hle
    rw [magnitude_le_magnitude]
    exact rounded_le hle
  · rcases Nat.eq_zero_or_pos (dropped m e) with hzero | hpos
    · rw [hzero, Nat.cast_zero, Int.add_zero]
      refine le_trans ?_ hle
      rw [magnitude_le_magnitude]
      exact rounded_le (by simp)
    · -- the mantissa is a power of two
      have hm := two_pow_le_of_dropped hpos (by omega)
      have hexact : m ≤ 2 ^ 52 * 2 ^ dropped m e := by
        rw [← magnitude_le_magnitude e, magnitude_mul_two_pow]
        exact hle.trans hfull
      rw [← magnitude_le_magnitude e, magnitude_mul_two_pow] at hm
      refine le_trans ?_ (hm.trans hle)
      rw [magnitude_le_magnitude]
      exact rounded_le hexact

/-- Rounding does not pass a number of at most 53 bits downwards. -/
theorem le_magnitude_rounded (hb : b ≤ 2 ^ 53) (hlow : -1074 ≤ low)
    (hle : magnitude b low ≤ magnitude m e) :
    magnitude b low ≤
      magnitude (rounded m (dropped m e)) (e + dropped m e) := by
  have hfloor := div_le_rounded m (dropped m e)
  rcases magnitude_at hb low (e + dropped m e) with ⟨n, hn⟩ | ⟨hlt, hfull⟩
  · rw [hn] at hle ⊢
    rw [← magnitude_mul_two_pow, magnitude_le_magnitude] at hle
    rw [magnitude_le_magnitude]
    exact ((Nat.le_div_iff_mul_le (Nat.two_pow_pos _)).mpr hle).trans hfloor
  · rcases Nat.eq_zero_or_pos (dropped m e) with hzero | hpos
    · rw [hzero, Nat.pow_zero, Nat.div_one] at hfloor
      rw [hzero, Nat.cast_zero, Int.add_zero]
      refine hle.trans ?_
      rw [magnitude_le_magnitude]
      exact hfloor
    · have hm := two_pow_le_of_dropped hpos (by omega)
      refine hfull.trans ?_
      rw [magnitude_le_magnitude]
      exact ((Nat.le_div_iff_mul_le (Nat.two_pow_pos _)).mpr hm).trans hfloor

end Passing

/-! ### Packing -/

/-- A finite number as it is packed: of 53 bits, or of fewer at the least
exponent. -/
structure Canonical (m : Nat) (e : Int) : Prop where
  lt : m < 2 ^ 53
  least_le : -1074 ≤ e
  le_greatest : e ≤ 971
  full : 2 ^ 52 ≤ m ∨ e = -1074

theorem sign_packComponents (s : Sign) (e : BitVec 11) (m : BitVec 52) :
    Sign.ofBitVec (unpackSign (packComponents .binary64 s e m)) = s := by
  have hstored : Format.binary64.mantissaBitsWithoutImplicit = 52 := rfl
  have hexponent : Format.binary64.exponentBits = 11 := rfl
  unfold unpackSign packComponents BitVec.extractLsb
  rw [BitVec.extractLsb'_append_eq_of_le (by omega),
    BitVec.extractLsb'_append_eq_of_le (by omega)]
  cases s <;> rfl

/-- The leading one above the stored bits. -/
theorem toNat_one_append (m : BitVec 52) :
    (1#1 ++ m).toNat = 2 ^ 52 + m.toNat := by
  have hor := Nat.two_pow_add_eq_or_of_lt m.isLt 1
  rw [BitVec.toNat_append, BitVec.toNat_ofNat, Nat.shiftLeft_eq,
    Nat.one_mod_eq_one.mpr (by decide), Nat.mul_comm, ← hor, Nat.mul_one]

theorem finite_congr {s s' : Sign} {m m' : Nat} {e e' : Int} (hs : s = s')
    (hm : m = m') (he : e = e') (hpos : 0 < m) :
    UnpackedFloat.finite s m e hpos = .finite s' m' e' (hm ▸ hpos) := by
  subst hs hm he
  rfl

/-- How a number is packed: by its exponent with a bias, which is zero for
those of fewer than 53 bits, and by the bits below the leading one. -/
theorem pack_finite (s : Sign) {m : Nat} {e : Int} (hpos : 0 < m) :
    UnpackedFloat.pack .binary64 (.finite s m e hpos) =
      if 2 ^ 11 ≤ (e + (1023 : Nat) + (52 : Nat)).toNat + 1 then
        packedInfinity .binary64 s
      else if m.log2 + 1 = 53 then
        packComponents .binary64 s
          (BitVec.ofNat 11 (e + (1023 : Nat) + (52 : Nat)).toNat)
          (BitVec.ofNat 52 m)
      else packComponents .binary64 s 0#11 (BitVec.ofNat 52 m) := rfl

/-- How 64 bits are read: by the exponent as it is stored, with a bias, and
the bits of the mantissa below the leading one. -/
theorem unpack_eq (b : BitVec Format.binary64.numBits) :
    UnpackedFloat.unpack .binary64 b =
      if (unpackExponent b).toNat = 2047 then
        if (unpackMantissa b).toNat = 0 then
          .infinity (Sign.ofBitVec (unpackSign b))
        else .notANumber
      else if (unpackExponent b).toNat = 0 then
        if h : (unpackMantissa b).toNat = 0 then
          .zero (Sign.ofBitVec (unpackSign b))
        else .finite (Sign.ofBitVec (unpackSign b)) (unpackMantissa b).toNat
          (-1074) (Nat.pos_of_ne_zero h)
      else .finite (Sign.ofBitVec (unpackSign b))
        (2 ^ 52 + (unpackMantissa b).toNat)
        ((unpackExponent b).toNat - 1075) (by omega) := by
  have hbias : Format.binary64.exponentBias = 1023 := rfl
  have hgreatest : unpackExponent b = -1#11 ↔
      (unpackExponent b).toNat = 2047 := BitVec.toNat_inj.symm
  have hleast : unpackExponent b = 0#11 ↔ (unpackExponent b).toNat = 0 :=
    BitVec.toNat_inj.symm
  have hempty : unpackMantissa b = 0#52 ↔ (unpackMantissa b).toNat = 0 :=
    BitVec.toNat_inj.symm
  unfold UnpackedFloat.unpack
  by_cases hexponent : (unpackExponent b).toNat = 2047
  · by_cases hmantissa : (unpackMantissa b).toNat = 0
    · rw [if_pos hexponent, if_pos hmantissa, if_pos (hgreatest.mpr hexponent),
        if_pos (hempty.mpr hmantissa)]
    · rw [if_pos hexponent, if_neg hmantissa, if_pos (hgreatest.mpr hexponent),
        if_neg (mt hempty.mp hmantissa)]
  · rw [if_neg hexponent, if_neg (mt hgreatest.mp hexponent)]
    by_cases hzero : (unpackExponent b).toNat = 0
    · rw [if_pos hzero, if_pos (hleast.mpr hzero)]
      by_cases hmantissa : (unpackMantissa b).toNat = 0
      · rw [dif_pos hmantissa, dif_pos (hempty.mpr hmantissa)]
      · rw [dif_neg hmantissa, dif_neg (mt hempty.mp hmantissa)]
        exact finite_congr rfl rfl (by rw [hzero, hbias]; rfl) _
    · rw [if_neg hzero, if_neg (mt hleast.mp hzero)]
      exact finite_congr rfl (toNat_one_append _) (by rw [hbias]; rfl) _

/-- A packed number is read as it was. -/
theorem unpack_pack {m : Nat} {e : Int} (s : Sign) (hpos : 0 < m)
    (h : Canonical m e) :
    (Float.Model.pack (.finite s m e hpos)).unpack = .finite s m e hpos := by
  obtain ⟨hlt, hleast, hgreatest, hfull⟩ := h
  obtain ⟨biased, rfl⟩ : ∃ biased : Nat, e = (biased : Int) - 1075 :=
    ⟨(e + 1075).toNat, by omega⟩
  have hbiased : ((biased : Int) - 1075 + (1023 : Nat) + (52 : Nat)).toNat =
      biased := by omega
  change UnpackedFloat.unpack .binary64
    (UnpackedFloat.pack .binary64 (.finite s m _ hpos)) = _
  rw [pack_finite, hbiased, if_neg (by omega)]
  rcases le_or_gt (2 ^ 52) m with hnormal | hsub
  · have hlog : m.log2 = 52 := (Nat.log2_eq_iff hpos.ne').mpr ⟨hnormal, hlt⟩
    have hexponent : (BitVec.ofNat 11 biased).toNat = biased := by
      rw [BitVec.toNat_ofNat]
      exact Nat.mod_eq_of_lt (by omega)
    have hmantissa : 2 ^ 52 + (BitVec.ofNat 52 m).toNat = m := by
      rw [BitVec.toNat_ofNat]
      omega
    rw [if_pos (by omega), unpack_eq, unpackExponent_packComponents,
      hexponent, if_neg (by omega), if_neg (by omega)]
    apply finite_congr (sign_packComponents s _ _)
    · rw [unpackMantissa_packComponents, hmantissa]
    · rfl
  · obtain rfl : biased = 1 := by omega
    have hlog : m.log2 < 52 := (Nat.log2_lt hpos.ne').mpr hsub
    have hmantissa : (BitVec.ofNat 52 m).toNat = m := by
      rw [BitVec.toNat_ofNat]
      exact Nat.mod_eq_of_lt hsub
    have hexponent : (0#11).toNat = 0 := rfl
    rw [if_neg (by omega), unpack_eq, unpackExponent_packComponents,
      hexponent, if_neg (by decide), if_pos rfl, dif_neg]
    · apply finite_congr (sign_packComponents s _ _)
      · rw [unpackMantissa_packComponents, hmantissa]
      · rfl
    · rw [unpackMantissa_packComponents, hmantissa]
      omega

/-- What is read from 64 bits is canonical. -/
theorem canonical_unpack {x : Float.Model} {s : Sign} {m : Nat} {e : Int}
    {hpos : 0 < m} (h : x.unpack = .finite s m e hpos) : Canonical m e := by
  obtain ⟨b, hb⟩ : ∃ b : BitVec Format.binary64.numBits,
      b = x.toBits.toBitVec := ⟨_, rfl⟩
  have hexponent : (unpackExponent b).toNat < 2048 := (unpackExponent b).isLt
  have hmantissa : (unpackMantissa b).toNat < 2 ^ 52 := (unpackMantissa b).isLt
  have hread : UnpackedFloat.unpack .binary64 b = .finite s m e hpos := by
    rw [hb]
    exact h
  rw [unpack_eq] at hread
  by_cases hgreatest : (unpackExponent b).toNat = 2047
  · rw [if_pos hgreatest] at hread
    by_cases hzero : (unpackMantissa b).toNat = 0
    · rw [if_pos hzero] at hread
      cases hread
    · rw [if_neg hzero] at hread
      cases hread
  · rw [if_neg hgreatest] at hread
    by_cases hleast : (unpackExponent b).toNat = 0
    · rw [if_pos hleast] at hread
      by_cases hzero : (unpackMantissa b).toNat = 0
      · rw [dif_pos hzero] at hread
        cases hread
      · rw [dif_neg hzero] at hread
        obtain ⟨-, rfl, rfl⟩ := UnpackedFloat.finite.inj hread
        exact ⟨by omega, by decide, by decide, Or.inr rfl⟩
    · rw [if_neg hleast] at hread
      obtain ⟨-, rfl, rfl⟩ := UnpackedFloat.finite.inj hread
      exact ⟨by omega, by omega, by omega, Or.inl (by omega)⟩

/-! ### Rounded numbers up to `2^53` -/

theorem magnitude_zero (n : Nat) : magnitude n 0 = n := by
  simp [magnitude]

/-- Numbers of full length compare like their exponents. -/
theorem exponent_le_of_full {m : Nat} {e bound : Int} (hfull : 2 ^ 52 ≤ m)
    (hle : magnitude m e ≤ magnitude (2 ^ 52) bound) : e ≤ bound := by
  rw [← magnitude_le_magnitude e] at hfull
  have hpow := hfull.trans hle
  unfold magnitude at hpow
  rw [mul_le_mul_iff_right₀ (by positivity),
    zpow_le_zpow_iff_right₀ (by norm_num)] at hpow
  exact hpow

/-- Rounding takes a mantissa of enough bits to zero or to a canonical
number. -/
theorem roundWithAccuracy_cases (s : Sign) {m n : Nat} {e : Int}
    (hlog : 52 ≤ m.log2) (hn : n ≤ 2 ^ 53) (hle : magnitude m e ≤ n) :
    (rounded m (dropped m e) = 0 ∧
      roundWithAccuracy .binary64 s m e .exact = .zero s) ∨
    ∃ m' e' hpos,
      roundWithAccuracy .binary64 s m e .exact = .finite s m' e' hpos ∧
      Canonical m' e' ∧
      magnitude m' e' =
        magnitude (rounded m (dropped m e)) (e + dropped m e) := by
  have hspec := dropped_spec m e
  have hmax := rounded_le_two_pow m e
  have hbound : magnitude (rounded m (dropped m e)) (e + dropped m e) ≤
      magnitude (2 ^ 52) 1 := by
    rw [← magnitude_zero] at hle
    refine (magnitude_rounded_le hn (by omega) hle).trans ?_
    have hdouble : magnitude (2 ^ 52) 1 = magnitude (2 ^ 52 * 2 ^ 1) 0 := by
      rw [magnitude_mul_two_pow]
      rfl
    rw [hdouble, magnitude_le_magnitude]
    exact hn
  have hfull : 2 ^ 52 ≤ rounded m (dropped m e) ∨ e + dropped m e = -1074 := by
    rcases eq_or_ne (e + dropped m e) (-1074) with hleast | hnormal
    · exact Or.inr hleast
    · left
      refine le_trans ?_ (div_le_rounded m _)
      rw [Nat.le_div_iff_mul_le (Nat.two_pow_pos _)]
      rcases Nat.eq_zero_or_pos (dropped m e) with hzero | hpos
      · rw [hzero, Nat.pow_zero, Nat.mul_one]
        exact (Nat.le_log2 (by rintro rfl; simp at hlog)).mp hlog
      · exact two_pow_le_of_dropped hpos (by omega)
  have heq := roundWithAccuracy_eq s m e
  generalize rounded m (dropped m e) = r at *
  generalize e + (dropped m e : Int) = e' at *
  have hgreatest : e' ≤ 1 := by
    rcases hfull with hfull | rfl
    · exact exponent_le_of_full hfull hbound
    · omega
  rcases Nat.eq_zero_or_pos r with rfl | hpos
  · exact Or.inl ⟨rfl, heq⟩
  · right
    rw [dif_neg hpos.ne'] at heq
    rcases Nat.lt_or_eq_of_le hmax with hlt | rfl
    · rw [if_pos hlt] at heq
      exact ⟨r, e', hpos, heq, ⟨hlt, by omega, by omega, hfull⟩, rfl⟩
    · rw [if_neg (lt_irrefl _)] at heq
      refine ⟨2 ^ 52, e' + 1, by decide, heq,
        ⟨by decide, by omega, by omega, Or.inl le_rfl⟩, ?_⟩
      exact (magnitude_mul_two_pow (2 ^ 52) 1 e').symm

end Binary64

end WindowedMetrics
