/-
Whole numbers as floats.  Up to `2^53` every count has a float of its own, on
which sums, differences and products of counts are exact and comparisons are
those of the counts.
-/
import WindowedMetrics.Proofs.Number.Order
import WindowedMetrics.Proofs.Number.Rounding

namespace WindowedMetrics

open Float.Model Float.Model.UnpackedFloat

namespace Binary64

/-! ### Numbers that stand for counts -/

/-- The form of a count: zero, or a canonical number of its magnitude. -/
inductive IsWhole : UnpackedFloat → Nat → Prop
  | zero : IsWhole (.zero .positive) 0
  | finite {m n : Nat} {e : Int} (hpos : 0 < m) (hcanonical : Canonical m e)
      (hvalue : magnitude m e = n) : IsWhole (.finite .positive m e hpos) n

/-- At a higher exponent, canonical numbers are larger. -/
theorem magnitude_lt_of_lt {m n : Nat} {e f : Int} (hm : Canonical m e)
    (hn : Canonical n f) (hlt : e < f) : magnitude m e < magnitude n f := by
  have hfull : 2 ^ 52 ≤ n := by
    have := hm.least_le
    exact hn.full.resolve_right (by omega)
  obtain ⟨k, rfl⟩ : ∃ k : Nat, f = e + (k + 1 : Nat) :=
    ⟨(f - e - 1).toNat, by omega⟩
  rw [← magnitude_mul_two_pow, ← not_le, magnitude_le_magnitude, not_le]
  calc m < 2 ^ 52 * 2 ^ 1 := hm.lt
    _ ≤ n * 2 ^ (k + 1) :=
      Nat.mul_le_mul hfull (Nat.pow_le_pow_right (by omega) (by omega))

/-- Canonical numbers compare by exponent, then by mantissa. -/
theorem magnitude_lt_iff {m n : Nat} {e f : Int} (hm : Canonical m e)
    (hn : Canonical n f) :
    magnitude m e < magnitude n f ↔ e < f ∨ e = f ∧ m < n := by
  rcases lt_trichotomy e f with hlt | rfl | hgt
  · exact iff_of_true (magnitude_lt_of_lt hm hn hlt) (Or.inl hlt)
  · rw [← not_le, magnitude_le_magnitude]
    omega
  · exact iff_of_false (magnitude_lt_of_lt hn hm hgt).not_gt (by omega)

namespace IsWhole

variable {u v : UnpackedFloat} {a b n : Nat}

theorem unique (hu : IsWhole u n) (hv : IsWhole v n) : u = v := by
  rcases hu with _ | ⟨hpos, hm, hvalue⟩
  · rcases hv with _ | ⟨hpos, hm, hvalue⟩
    · rfl
    · exact absurd hvalue (by simpa using (magnitude_pos hpos _).ne')
  · rcases hv with _ | ⟨hpos', hm', hvalue'⟩
    · exact absurd hvalue (by simpa using (magnitude_pos hpos _).ne')
    · have hless := (magnitude_lt_iff hm hm').not.mp
        (hvalue.trans hvalue'.symm).not_lt
      have hmore := (magnitude_lt_iff hm' hm).not.mp
        (hvalue'.trans hvalue.symm).not_lt
      congr 1 <;> omega

theorem unpack_pack (h : IsWhole u n) : (Float.Model.pack u).unpack = u := by
  rcases h with _ | ⟨hpos, hm, -⟩
  · rfl
  · exact Binary64.unpack_pack _ hpos hm

/-- A count above zero has a mantissa of full length. -/
theorem full {m : Nat} {e : Int} (hm : Canonical m e) (hn : 0 < n)
    (hvalue : magnitude m e = n) : 2 ^ 52 ≤ m := by
  rcases hm.full with hfull | rfl
  · exact hfull
  · have hone : magnitude (2 ^ 52) (-52) = (1 : Nat) :=
      (magnitude_mul_two_pow 1 52 (-52)).trans (magnitude_zero 1)
    have hlt := magnitude_lt_of_lt hm (n := 2 ^ 52) (f := -52)
      ⟨by decide, by decide, by decide, Or.inl le_rfl⟩ (by decide)
    rw [hvalue, hone, Nat.cast_lt] at hlt
    omega

end IsWhole

/-! ### Rounding counts -/

section Rounding

variable {m n : Nat} {e : Int} (hn : n ≤ 2 ^ 53)

include hn

theorem isWhole_roundWithAccuracy (hlog : 52 ≤ m.log2) (hpos : 0 < n)
    (hvalue : magnitude m e = n) :
    IsWhole (roundWithAccuracy .binary64 .positive m e .exact) n := by
  have hround : magnitude (rounded m (dropped m e)) (e + dropped m e) = n := by
    rw [← magnitude_zero] at hvalue ⊢
    exact le_antisymm (magnitude_rounded_le hn (by decide) hvalue.le)
      (le_magnitude_rounded hn (by decide) hvalue.ge)
  rcases roundWithAccuracy_cases .positive hlog hn hvalue.le with
    ⟨hzero, -⟩ | ⟨m', e', hpos', heq, hcanonical, hvalue'⟩
  · rw [hzero] at hround
    have hnone : (n : ℚ) = 0 := by
      rw [← hround]
      simp [magnitude]
    rw [Nat.cast_eq_zero] at hnone
    omega
  · rw [heq]
    exact .finite hpos' hcanonical (hvalue'.trans hround)

omit hn in
/-- The highest bit of a count is not behind the point. -/
theorem log2_add_nonneg (hpos : 0 < n) (hvalue : magnitude m e = n) :
    0 ≤ (m.log2 : Int) + e := by
  by_contra hneg
  have hbits : magnitude m e < magnitude (1 * 2 ^ (m.log2 + 1)) e := by
    rw [← not_le, magnitude_le_magnitude, not_le, Nat.one_mul]
    exact Nat.lt_log2_self
  have hone : magnitude 1 (e + (m.log2 + 1 : Nat)) ≤ 1 := by
    rw [magnitude, Nat.cast_one, one_mul]
    exact zpow_le_one_of_nonpos₀ (by norm_num) (by push_cast; omega)
  rw [magnitude_mul_two_pow, hvalue] at hbits
  have hlt : (n : ℚ) < 1 := hbits.trans_le hone
  rw [Nat.cast_lt_one] at hlt
  omega

theorem isWhole_round (hpos : 0 < n) (hvalue : magnitude m e = n) :
    IsWhole (UnpackedFloat.round .binary64 .positive m e) n := by
  have hbit := log2_add_nonneg hpos hvalue
  have hne : m ≠ 0 := by
    rintro rfl
    have hnone : (n : ℚ) = 0 := by
      rw [← hvalue]
      simp [magnitude]
    rw [Nat.cast_eq_zero] at hnone
    omega
  simp only [UnpackedFloat.round, targetExponent_eq, decreaseExponent]
  generalize hk : (e - max ((m.log2 : Int) + e - 52) (-1074)).toNat = k
  apply isWhole_roundWithAccuracy hn _ hpos
  · rw [Nat.shiftLeft_eq, magnitude_mul_two_pow, Int.sub_add_cancel]
    exact hvalue
  · have hlow := Nat.log2_self_le hne
    have hpow : 2 ^ 52 ≤ m * 2 ^ k := calc
      2 ^ 52 ≤ 2 ^ (m.log2 + k) := Nat.pow_le_pow_right (by omega) (by omega)
      _ ≤ m * 2 ^ k := by
        rw [Nat.pow_add]
        exact Nat.mul_le_mul_right _ hlow
    rw [Nat.shiftLeft_eq, Nat.le_log2 (by omega)]
    exact hpow

/-- Rounding leaves a count as it is, in whatever units it is given. -/
theorem isWhole_normalize {z : Int} (hvalue : (z : ℚ) * 2 ^ e = n) :
    IsWhole (UnpackedFloat.normalize .binary64 z e .positive) n := by
  have hunit : (0 : ℚ) < 2 ^ e := by positivity
  rcases lt_trichotomy z 0 with hneg | rfl | hpos
  · exfalso
    have hbelow : (z : ℚ) * 2 ^ e < 0 :=
      mul_neg_of_neg_of_pos (by exact_mod_cast hneg) hunit
    rw [hvalue] at hbelow
    exact absurd hbelow (by positivity : (0 : ℚ) ≤ n).not_gt
  · obtain rfl : n = 0 := by
      rw [Int.cast_zero, zero_mul] at hvalue
      exact_mod_cast hvalue.symm
    exact .zero
  · lift z to Nat using hpos.le
    have hgt : compare (z : Int) 0 = .gt := by
      rw [Int.compare_eq_gt]
      exact hpos
    have hcount : 0 < n := by
      have habove : (0 : ℚ) < ((z : Int) : ℚ) * 2 ^ e :=
        mul_pos (by exact_mod_cast hpos) hunit
      rw [hvalue] at habove
      exact_mod_cast habove
    simp only [UnpackedFloat.normalize, hgt]
    exact isWhole_round hn hcount (by simpa [magnitude] using hvalue)

end Rounding

/-! ### Arithmetic of counts -/

theorem isWhole_ofNat {n : Nat} (hn : n ≤ 2 ^ 53) :
    IsWhole (UnpackedFloat.ofNat .binary64 n) n :=
  isWhole_normalize hn (by simp)

/-- A mantissa moved to a lower exponent keeps its value. -/
theorem magnitude_shiftLeft (m : Nat) {e low : Int} (hle : low ≤ e) :
    ((m <<< (e - low).toNat : Nat) : ℚ) * 2 ^ low = magnitude m e := by
  change magnitude (m <<< (e - low).toNat) low = _
  rw [Nat.shiftLeft_eq, magnitude_mul_two_pow, Int.toNat_of_nonneg (by omega)]
  congr 1
  omega

namespace IsWhole

variable {u v : UnpackedFloat} {a b : Nat}

theorem add (hu : IsWhole u a) (hv : IsWhole v b) (hle : a + b ≤ 2 ^ 53) :
    IsWhole (UnpackedFloat.add .binary64 u v) (a + b) := by
  rcases hu with _ | @⟨m, a, e, hpos, hm, hvalue⟩
  · rcases hv with _ | ⟨hpos, hm, hvalue⟩
    · exact .zero
    · rw [Nat.zero_add]
      exact .finite hpos hm hvalue
  · rcases hv with _ | @⟨m', b, e', hpos', hm', hvalue'⟩
    · exact .finite hpos hm hvalue
    · apply isWhole_normalize hle
      simp only [Sign.apply, Int.cast_add, Int.cast_natCast, Nat.cast_add]
      rw [add_mul, magnitude_shiftLeft m (min_le_left e e'),
        magnitude_shiftLeft m' (min_le_right e e'), hvalue, hvalue']

theorem sub (hu : IsWhole u a) (hv : IsWhole v b) (hle : b ≤ a)
    (ha : a ≤ 2 ^ 53) :
    IsWhole (UnpackedFloat.sub .binary64 u v) (a - b) := by
  rcases hu with _ | @⟨m, a, e, hpos, hm, hvalue⟩
  · obtain rfl : b = 0 := by omega
    rcases hv with _ | ⟨hpos, hm, hvalue⟩
    · exact .zero
    · exact absurd hvalue (by simpa using (magnitude_pos hpos _).ne')
  · rcases hv with _ | @⟨m', b, e', hpos', hm', hvalue'⟩
    · exact .finite hpos hm hvalue
    · apply isWhole_normalize (by omega)
      simp only [Sign.apply, Int.cast_sub, Int.cast_natCast, Nat.cast_sub hle]
      rw [sub_mul, magnitude_shiftLeft m (min_le_left e e'),
        magnitude_shiftLeft m' (min_le_right e e'), hvalue, hvalue']

theorem mul (hu : IsWhole u a) (hv : IsWhole v b) (hle : a * b ≤ 2 ^ 53) :
    IsWhole (UnpackedFloat.mul .binary64 u v) (a * b) := by
  rcases hu with _ | @⟨m, a, e, hpos, hm, hvalue⟩
  · rw [Nat.zero_mul]
    rcases hv with _ | ⟨hpos, hm, hvalue⟩
    · exact .zero
    · exact .zero
  · rcases hv with _ | @⟨m', b, e', hpos', hm', hvalue'⟩
    · exact .zero
    · have ha : 0 < a := by
        have habove := magnitude_pos hpos e
        rw [hvalue] at habove
        exact_mod_cast habove
      have hb : 0 < b := by
        have habove := magnitude_pos hpos' e'
        rw [hvalue'] at habove
        exact_mod_cast habove
      have hfull := full hm ha hvalue
      apply isWhole_roundWithAccuracy hle _ (Nat.mul_pos ha hb)
      · rw [magnitude_mul, hvalue, hvalue', Nat.cast_mul]
      · rw [Nat.le_log2 (Nat.mul_pos hpos hpos').ne']
        exact hfull.trans (Nat.le_mul_of_pos_right m hpos')

theorem rank?_eq (hu : IsWhole u a) : ∃ x, rank? u = some x ∧
    ∀ {v b}, IsWhole v b → ∃ y, rank? v = some y ∧ (RankLess x y ↔ a < b) := by
  rcases hu with _ | @⟨m, a, e, hpos, hm, hvalue⟩
  · refine ⟨_, rfl, fun hv => ?_⟩
    rcases hv with _ | @⟨m', b, e', hpos', hm', hvalue'⟩
    · exact ⟨_, rfl, by simp [RankLess]⟩
    · have habove := magnitude_pos hpos' e'
      rw [hvalue', Nat.cast_pos] at habove
      exact ⟨_, rfl, by simp [RankLess, habove]⟩
  · refine ⟨_, rfl, fun hv => ?_⟩
    rcases hv with _ | @⟨m', b, e', hpos', hm', hvalue'⟩
    · exact ⟨_, rfl, by simp [RankLess]⟩
    · refine ⟨_, rfl, ?_⟩
      have hless := magnitude_lt_iff hm hm'
      rw [hvalue, hvalue', Nat.cast_lt] at hless
      simp [RankLess, hless]

/-- Counts compare as numbers. -/
theorem le_iff (hu : IsWhole u a) (hv : IsWhole v b) :
    u.le v = true ↔ a ≤ b := by
  obtain ⟨y, hy, hless⟩ := hv.rank?_eq
  obtain ⟨x, hx, hiff⟩ := hless hu
  rw [le_iff_rank, ← not_lt, ← hiff]
  simp [hx, hy]

end IsWhole

end Binary64

/-! ### Counts as floats -/

section Counts

open Binary64

variable {a b n : Nat}

theorem countToFloat_eq (hn : n ≤ 2 ^ 53) :
    countToFloat n = .ofModel (.pack (UnpackedFloat.ofNat .binary64 n)) := by
  have hword : n.toUInt64.toNat = n := by
    rw [Nat.toUInt64_eq, UInt64.toNat_ofNat']
    exact Nat.mod_eq_of_lt (by omega)
  change Float.ofModel (.pack (UnpackedFloat.ofNat .binary64
    n.toUInt64.toNat)) = _
  rw [hword]

/-- A count is the only float of its value. -/
theorem ofModel_eq_countToFloat {u : UnpackedFloat} (h : IsWhole u n)
    (hn : n ≤ 2 ^ 53) : Float.ofModel (.pack u) = countToFloat n := by
  rw [countToFloat_eq hn, h.unique (isWhole_ofNat hn)]

theorem isWhole_countToFloat (hn : n ≤ 2 ^ 53) :
    IsWhole (countToFloat n).toModel.unpack n := by
  have hwhole := isWhole_ofNat hn
  rw [countToFloat_eq hn]
  change IsWhole (Float.Model.pack _).unpack n
  rw [hwhole.unpack_pack]
  exact hwhole

theorem countToFloat_zero : countToFloat 0 = 0.0 := by
  decide +kernel

/-- Sums of counts are exact. -/
theorem countToFloat_add (hle : a + b ≤ 2 ^ 53) :
    countToFloat a + countToFloat b = countToFloat (a + b) :=
  ofModel_eq_countToFloat ((isWhole_countToFloat (by omega)).add
    (isWhole_countToFloat (by omega)) hle) hle

/-- Differences of counts are exact. -/
theorem countToFloat_sub (hle : b ≤ a) (ha : a ≤ 2 ^ 53) :
    countToFloat a - countToFloat b = countToFloat (a - b) :=
  ofModel_eq_countToFloat ((isWhole_countToFloat ha).sub
    (isWhole_countToFloat (by omega)) hle ha) (by omega)

/-- Products of counts are exact. -/
theorem countToFloat_mul (ha : a ≤ 2 ^ 53) (hb : b ≤ 2 ^ 53)
    (hle : a * b ≤ 2 ^ 53) :
    countToFloat a * countToFloat b = countToFloat (a * b) :=
  ofModel_eq_countToFloat ((isWhole_countToFloat ha).mul
    (isWhole_countToFloat hb) hle) hle

theorem countToFloat_le (ha : a ≤ 2 ^ 53) (hb : b ≤ 2 ^ 53) :
    countToFloat a ≤ countToFloat b ↔ a ≤ b :=
  float_le_iff.trans ((isWhole_countToFloat ha).le_iff (isWhole_countToFloat hb))

end Counts

end WindowedMetrics
