/-
Exact values.  The bits of a finite float spell its mantissa and exponent, so
roundings decided on the exact value are roundings of the float: counts are
what they are, and a share of a count is never rounded above the count.
-/
import WindowedMetrics.Proofs.Number.Whole

namespace WindowedMetrics

open Float.Model Float.Model.UnpackedFloat Binary64

namespace Dyadic

/-! ### The parts of a float -/

/-- Whether a sign stands for numbers below zero. -/
def isMinus : Sign → Bool
  | .negative => true
  | .positive => false

/-- The exact value of an unpacked number. -/
def ofUnpacked? : UnpackedFloat → Option Dyadic
  | .notANumber => none
  | .infinity _ => none
  | .zero s => some ⟨isMinus s, 0, -1074⟩
  | .finite s m e _ => some ⟨isMinus s, m, e⟩

theorem decide_two_pow_le (b : BitVec Format.binary64.numBits) :
    decide (1 <<< 63 ≤ b.toNat) = isMinus (Sign.ofBitVec (unpackSign b)) := by
  have hlt : b.toNat < 2 ^ 64 := b.isLt
  have hsign : (unpackSign b).toNat = b.toNat >>> 63 % 2 := rfl
  have hzero : unpackSign b = 0#1 ↔ (unpackSign b).toNat = 0 :=
    BitVec.toNat_inj.symm
  rw [Sign.ofBitVec]
  simp only [hzero, hsign, Nat.shiftRight_eq_div_pow, Nat.one_shiftLeft]
  by_cases hlarge : 2 ^ 63 ≤ b.toNat
  · rw [if_neg (by omega)]
    exact decide_eq_true hlarge
  · rw [if_pos (by omega)]
    exact decide_eq_false hlarge

theorem ofFloat?_eq (x : Float) : ofFloat? x = ofUnpacked? x.toModel.unpack := by
  obtain ⟨b, hb⟩ : ∃ b : BitVec Format.binary64.numBits,
      b = x.toBits.toBitVec := ⟨_, rfl⟩
  have hbits : x.toBits.toNat = b.toNat := by
    rw [hb]
    rfl
  have hmodel : x.toModel.unpack = UnpackedFloat.unpack .binary64 b := by
    rw [hb]
    rfl
  have hexponent : b.toNat >>> 52 % 2048 = (unpackExponent b).toNat := rfl
  have hmantissa : b.toNat % (1 <<< 52) = (unpackMantissa b).toNat := rfl
  rw [hmodel]
  simp only [ofFloat?, hbits, hexponent, hmantissa, decide_two_pow_le]
  rw [unpack_eq]
  by_cases hgreatest : (unpackExponent b).toNat = 2047
  · rw [if_pos hgreatest, if_pos hgreatest]
    by_cases hzero : (unpackMantissa b).toNat = 0
    · rw [if_pos hzero]
      rfl
    · rw [if_neg hzero]
      rfl
  · rw [if_neg hgreatest, if_neg hgreatest]
    by_cases hleast : (unpackExponent b).toNat = 0
    · rw [if_pos hleast, if_pos hleast]
      by_cases hzero : (unpackMantissa b).toNat = 0
      · rw [dif_pos hzero, hzero]
        rfl
      · rw [dif_neg hzero]
        rfl
    · rw [if_neg hleast, if_neg hleast, Nat.add_comm]
      rfl

/-! ### The least integer above a value -/

/-- For a value from zero on, the least integer that is not below it. -/
theorem ceil_le_iff (m n : Nat) (e : Int) :
    (ceil ⟨false, m, e⟩).toNat ≤ n ↔ magnitude m e ≤ n := by
  rcases le_or_gt 0 e with hwhole | hpart
  · obtain ⟨k, rfl⟩ := Int.eq_ofNat_of_zero_le hwhole
    have hvalue : magnitude m k = (m * 2 ^ k : Nat) := by
      rw [← magnitude_zero, magnitude_mul_two_pow, Int.zero_add]
    rw [hvalue, Nat.cast_le]
    have hceil : (ceil ⟨false, m, (k : Int)⟩).toNat = m * 2 ^ k := by
      simp only [ceil, decide_true, Int.natAbs_natCast, Nat.one_shiftLeft,
        Int.natCast_nonneg, Int.toNat_natCast]
    rw [hceil]
  · obtain ⟨k, rfl⟩ : ∃ k : Nat, e = -(k : Int) := ⟨(-e).toNat, by omega⟩
    have hceil : (ceil ⟨false, m, -(k : Int)⟩).toNat =
        (m + (2 ^ k - 1)) / 2 ^ k := by
      simp only [ceil, Int.natAbs_neg, Int.natAbs_natCast, Nat.one_shiftLeft,
        decide_eq_false hpart.not_ge, Int.toNat_natCast]
    have hvalue : (n : ℚ) = magnitude (n * 2 ^ k) (-(k : Int)) := by
      rw [magnitude_mul_two_pow, Int.add_left_neg, magnitude_zero]
    have hpos := Nat.two_pow_pos k
    rw [hceil, hvalue, magnitude_le_magnitude, ← Nat.lt_succ_iff,
      Nat.div_lt_iff_lt_mul hpos, Nat.succ_mul]
    omega

end Dyadic

/-! ### Counts -/

/-- The least integer above a value in the range of a count. -/
theorem ceilSaturating_le_iff {x : Float} {m n : Nat} {e : Int}
    (hparts : Dyadic.ofUnpacked? x.toModel.unpack = some ⟨false, m, e⟩)
    (hn : n ≤ 2 ^ 53) : ceilSaturating x ≤ n ↔ magnitude m e ≤ n := by
  have hmax : maxUInt64 = 2 ^ 64 - 1 := rfl
  rw [← Dyadic.ofFloat?_eq] at hparts
  rw [← Dyadic.ceil_le_iff]
  simp only [ceilSaturating, hparts, hmax]
  omega

theorem Binary64.IsWhole.exists_parts {u : UnpackedFloat} {n : Nat}
    (h : IsWhole u n) : ∃ m e, Dyadic.ofUnpacked? u = some ⟨false, m, e⟩ ∧
      magnitude m e = n := by
  rcases h with _ | ⟨hpos, hm, hvalue⟩
  · exact ⟨0, -1074, rfl, by simp [magnitude]⟩
  · exact ⟨_, _, rfl, hvalue⟩

/-- A count is its own least integer above. -/
theorem ceilSaturating_countToFloat {n : Nat} (hn : n ≤ 2 ^ 53) :
    ceilSaturating (countToFloat n) = n := by
  obtain ⟨m, e, hparts, hvalue⟩ := (isWhole_countToFloat hn).exists_parts
  have hle := ceilSaturating_le_iff hparts hn
  have hlow : ∀ k < n, ¬ ceilSaturating (countToFloat n) ≤ k := by
    intro k hk
    rw [ceilSaturating_le_iff hparts (by omega), hvalue, Nat.cast_le]
    omega
  have hbelow := hlow (n - 1)
  have habove := hle.mpr hvalue.le
  omega

theorem exists_positive {q : Float} (hpos : 0.0 < q) :
    q.toModel.unpack = .infinity .positive ∨
      ∃ m e hm, q.toModel.unpack = .finite .positive m e hm := by
  have hzero : (0.0 : Float).toModel.unpack = .zero .positive := rfl
  rw [float_lt_iff, lt_iff_rank, hzero] at hpos
  obtain ⟨x, y, hx, hy, hless⟩ := hpos
  cases hx
  rcases hq : q.toModel.unpack with ⟨_ | _⟩ | _ | _ | ⟨_ | _, m, e, hm⟩
  case infinity.positive => exact Or.inl rfl
  case finite.positive => exact Or.inr ⟨m, e, hm, rfl⟩
  all_goals
    rw [hq] at hy
    cases hy
  all_goals simp [RankLess] at hless

theorem beq_zero_of_pos {q : Float} (hpos : 0.0 < q) :
    (q == 0.0) = false := by
  have hbeq : (q == 0.0) =
      UnpackedFloat.beq q.toModel.unpack (0.0 : Float).toModel.unpack := rfl
  have hzero : (0.0 : Float).toModel.unpack = .zero .positive := rfl
  rw [hbeq, hzero]
  rcases exists_positive hpos with hq | ⟨m, e, hm, hq⟩
  · rw [hq]
    rfl
  · rw [hq]
    rfl

/-- The form of a share: a number above zero and at most one. -/
theorem exists_share {q : Float} (hpos : 0.0 < q) (hle : ¬ 1.0 < q) :
    ∃ m e hm, q.toModel.unpack = .finite .positive m e hm ∧
      magnitude m e ≤ 1 := by
  have hone : (1.0 : Float).toModel.unpack =
      .finite .positive (2 ^ 52) (-52) (by decide) := rfl
  rw [float_lt_iff, lt_iff_rank, hone] at hle
  rcases exists_positive hpos with hq | ⟨m, e, hm, hq⟩
  · rw [hq] at hle
    exact absurd ⟨_, _, rfl, rfl, Or.inl (by decide)⟩ hle
  · have hvalue : magnitude (2 ^ 52) (-52) = 1 :=
      (magnitude_mul_two_pow 1 52 (-52)).trans
        ((magnitude_zero 1).trans Nat.cast_one)
    have hcompare := magnitude_lt_iff (m := 2 ^ 52) (e := -52)
      ⟨by decide, by decide, by decide, Or.inl le_rfl⟩ (canonical_unpack hq)
    rw [hvalue] at hcompare
    refine ⟨m, e, hm, hq, ?_⟩
    by_contra hmore
    apply hle
    rw [hq]
    refine ⟨_, _, rfl, rfl, Or.inr ⟨rfl, ?_⟩⟩
    simpa using hcompare.mp (not_le.mp hmore)

/-- A share of a count is not rounded above the count. -/
theorem ceilSaturating_mul_le {q : Float} {n : Nat} (hpos : 0.0 < q)
    (hle : ¬ 1.0 < q) (hn : n ≤ 2 ^ 53) :
    ceilSaturating (q * countToFloat n) ≤ n := by
  obtain ⟨m, e, hm, hq, hshare⟩ := exists_share hpos hle
  have hunpack : (q * countToFloat n).toModel.unpack =
      (Float.Model.pack (UnpackedFloat.mul .binary64
        (.finite .positive m e hm)
        (countToFloat n).toModel.unpack)).unpack := by
    rw [← hq]
    rfl
  have hwhole := isWhole_countToFloat hn
  generalize (countToFloat n).toModel.unpack = v at hunpack hwhole
  have hnone : magnitude 0 (-1074) ≤ n := by
    rw [magnitude, Nat.cast_zero, zero_mul]
    exact Nat.cast_nonneg n
  rcases hwhole with _ | @⟨m', n, e', hm', hcanonical, hvalue⟩
  · have hmul : UnpackedFloat.mul .binary64 (.finite .positive m e hm)
        (.zero .positive) = .zero .positive := rfl
    refine (ceilSaturating_le_iff (m := 0) (e := -1074) ?_ hn).mpr hnone
    rw [hunpack, hmul]
    rfl
  · have hcount : 0 < n := by
      have habove := magnitude_pos hm' e'
      rw [hvalue] at habove
      exact_mod_cast habove
    have hproduct : magnitude (m * m') (e + e') ≤ n := by
      rw [magnitude_mul, hvalue]
      exact mul_le_of_le_one_left (Nat.cast_nonneg n) hshare
    have hlog : 52 ≤ (m * m').log2 := by
      rw [Nat.le_log2 (Nat.mul_pos hm hm').ne']
      exact (IsWhole.full hcanonical hcount hvalue).trans
        (Nat.le_mul_of_pos_left m' hm)
    have hmul : UnpackedFloat.mul .binary64 (.finite .positive m e hm)
        (.finite .positive m' e' hm') =
        roundWithAccuracy .binary64 .positive (m * m') (e + e') .exact := rfl
    rw [hmul] at hunpack
    rcases roundWithAccuracy_cases .positive hlog hn hproduct with
      ⟨-, heq⟩ | ⟨r, f, hr, heq, hround, hmagnitude⟩
    · refine (ceilSaturating_le_iff (m := 0) (e := -1074) ?_ hn).mpr hnone
      rw [hunpack, heq]
      rfl
    · rw [heq, unpack_pack .positive hr hround] at hunpack
      refine (ceilSaturating_le_iff (m := r) (e := f) ?_ hn).mpr ?_
      · rw [hunpack]
        rfl
      · rw [← magnitude_zero n] at hproduct ⊢
        rw [hmagnitude]
        exact magnitude_rounded_le hn (by decide) hproduct

end WindowedMetrics
