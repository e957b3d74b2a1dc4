/-
The signs of sums and differences.  Rounding and packing keep the sign of a
number, so a difference is below zero only if its numbers are in that order,
and adding to zero changes nothing but the sign of zero.
-/
import WindowedMetrics.Proofs.Number.Whole

namespace WindowedMetrics

open Float.Model Float.Model.UnpackedFloat

namespace Binary64

/-! ### Numbers that are not below zero -/

/-- A number, infinite or not, that is not below zero. -/
def Upright : UnpackedFloat → Prop
  | .notANumber => False
  | .infinity s => s = .positive
  | .zero _ => True
  | .finite s _ _ _ => s = .positive

/-- A finite number as it is packed. -/
def Proper : UnpackedFloat → Prop
  | .notANumber => False
  | .infinity _ => False
  | .zero _ => True
  | .finite _ m e _ => Canonical m e

theorem upright_iff_rank (u : UnpackedFloat) :
    Upright u ↔ ∃ x, rank? u = some x ∧ ¬ RankLess x (0, 0, 0) := by
  rcases u with ⟨_ | _⟩ | _ | s | ⟨_ | _, m, e, _⟩ <;>
    dsimp only [Upright, rank?] <;>
    simp [RankLess]

theorem upright_roundWithAccuracy (m : Nat) (e : Int) :
    Upright (roundWithAccuracy .binary64 .positive m e .exact) := by
  rw [roundWithAccuracy_eq]
  by_cases hzero : rounded m (dropped m e) = 0
  · rw [dif_pos hzero]
    trivial
  · rw [dif_neg hzero]
    by_cases hlt : rounded m (dropped m e) < 2 ^ 53
    · rw [if_pos hlt]
      rfl
    · rw [if_neg hlt]
      rfl

theorem upright_normalize {z : Int} (hz : 0 ≤ z) (e : Int) :
    Upright (UnpackedFloat.normalize .binary64 z e .positive) := by
  rcases Int.lt_or_eq_of_le hz with hpos | rfl
  · have hgt : compare z 0 = .gt := by
      rw [Int.compare_eq_gt]
      exact hpos
    simp only [UnpackedFloat.normalize, hgt]
    exact upright_roundWithAccuracy _ _
  · trivial

/-- Bits with no minus sign are read as a number that is not below zero. -/
theorem upright_unpack {b : BitVec Format.binary64.numBits}
    (hsign : Sign.ofBitVec (unpackSign b) = .positive)
    (hexponent : (unpackExponent b).toNat ≠ 2047) :
    Upright (UnpackedFloat.unpack .binary64 b) := by
  rw [unpack_eq, if_neg hexponent, hsign]
  by_cases hleast : (unpackExponent b).toNat = 0
  · rw [if_pos hleast]
    by_cases hzero : (unpackMantissa b).toNat = 0
    · rw [dif_pos hzero]
      trivial
    · rw [dif_neg hzero]
      rfl
  · rw [if_neg hleast]
    rfl

theorem upright_unpack_packComponents {e : BitVec 11} (he : e.toNat ≠ 2047)
    (m : BitVec 52) :
    Upright (UnpackedFloat.unpack .binary64
      (packComponents .binary64 .positive e m)) := by
  apply upright_unpack (sign_packComponents .positive e m)
  rw [unpackExponent_packComponents]
  exact he

/-- A number that is packed and read again is on the side of zero that it was
on. -/
theorem upright_unpack_pack {u : UnpackedFloat} (h : Upright u) :
    Upright (Float.Model.pack u).unpack := by
  rcases u with ⟨_ | _⟩ | _ | ⟨_ | _⟩ | ⟨_ | _, m, e, hpos⟩
  case infinity.positive => rfl
  case zero.positive => trivial
  case zero.negative => trivial
  case finite.positive =>
    change Upright (UnpackedFloat.unpack .binary64
      (UnpackedFloat.pack .binary64 (.finite .positive m e hpos)))
    rw [pack_finite]
    generalize (e + (1023 : Nat) + (52 : Nat)).toNat = biased
    by_cases hlarge : 2 ^ 11 ≤ biased + 1
    · rw [if_pos hlarge]
      rfl
    · rw [if_neg hlarge]
      by_cases hfull : m.log2 + 1 = 53
      · rw [if_pos hfull]
        apply upright_unpack_packComponents
        rw [BitVec.toNat_ofNat]
        omega
      · rw [if_neg hfull]
        exact upright_unpack_packComponents (by decide) _
  all_goals cases h

/-! ### Sums and differences -/

theorem upright_zero_add {u : UnpackedFloat} (h : Upright u) :
    Upright (UnpackedFloat.add .binary64 (.zero .positive) u) := by
  rcases u with ⟨_ | _⟩ | _ | ⟨_ | _⟩ | ⟨_ | _, m, e, hpos⟩
  all_goals trivial

/-- At a common exponent, mantissas compare as their numbers do. -/
theorem shiftLeft_le_iff {m n : Nat} {e f low : Int} (he : low ≤ e)
    (hf : low ≤ f) :
    m <<< (e - low).toNat ≤ n <<< (f - low).toNat ↔
      magnitude m e ≤ magnitude n f := by
  rw [← magnitude_shiftLeft m he, ← magnitude_shiftLeft n hf]
  exact (magnitude_le_magnitude low).symm

/-- So do mantissas with signs. -/
theorem apply_le_apply {s t : Sign} {m n : Nat} {e f : Int} {hm : 0 < m}
    {hn : 0 < n} (hu : Canonical m e) (hv : Canonical n f)
    (hle : (UnpackedFloat.finite t n f hn).le (.finite s m e hm) = true) :
    t.apply (n <<< (f - min e f).toNat : Nat) ≤
      s.apply (m <<< (e - min e f).toNat : Nat) := by
  have hmore : m <<< (e - min e f).toNat ≤ n <<< (f - min e f).toNat ↔
      ¬ (f < e ∨ f = e ∧ n < m) := by
    rw [shiftLeft_le_iff (min_le_left e f) (min_le_right e f), ← not_lt,
      magnitude_lt_iff hv hu]
  have hless : n <<< (f - min e f).toNat ≤ m <<< (e - min e f).toNat ↔
      ¬ (e < f ∨ e = f ∧ m < n) := by
    rw [shiftLeft_le_iff (min_le_right e f) (min_le_left e f), ← not_lt,
      magnitude_lt_iff hu hv]
  generalize m <<< (e - min e f).toNat = a at *
  generalize n <<< (f - min e f).toNat = b at *
  rw [le_iff_rank] at hle
  obtain ⟨x, y, hx, hy, hrank⟩ := hle
  -- below zero, ranks and mantissas both run the other way
  cases s <;> cases t <;> cases hx <;> cases hy <;>
    simp only [RankLess, Sign.apply, true_and] at * <;> omega

/-- A number less one that is not above it is not below zero. -/
theorem upright_sub {u v : UnpackedFloat} (hu : Proper u) (hv : Proper v)
    (hle : v.le u = true) : Upright (UnpackedFloat.sub .binary64 u v) := by
  rcases u with _ | _ | s | ⟨s, m, e, hpos⟩
  · cases hu
  · cases hu
  · rcases v with _ | _ | t | ⟨t, n, f, hpos'⟩
    · cases hv
    · cases hv
    · cases s <;> cases t <;> trivial
    · cases t with
      | negative => rfl
      | positive => cases hle
  · rcases v with _ | _ | t | ⟨t, n, f, hpos'⟩
    · cases hv
    · cases hv
    · cases s with
      | negative => cases hle
      | positive => rfl
    · -- at the lower exponent the sign is that of a difference of whole
      -- numbers
      apply upright_normalize
      exact Int.sub_nonneg_of_le (apply_le_apply hu hv hle)

/-- Added to zero, a number stays where it is. -/
theorem rank?_zero_add {u : UnpackedFloat} (h : Proper u) :
    rank? (Float.Model.pack
      (UnpackedFloat.add .binary64 (.zero .positive) u)).unpack = rank? u := by
  rcases u with _ | _ | s | ⟨s, m, e, hpos⟩
  · cases h
  · cases h
  · cases s <;> rfl
  · have hadd : UnpackedFloat.add .binary64 (.zero .positive)
        (.finite s m e hpos) = .finite s m e hpos := rfl
    rw [hadd, unpack_pack s hpos h]

end Binary64

/-! ### Floats -/

section Floats

open Binary64

variable {x y : Float}

theorem zero_le_iff_upright : 0.0 ≤ x ↔ Upright x.toModel.unpack := by
  have hzero : (0.0 : Float).toModel.unpack = .zero .positive := rfl
  rw [float_le_iff, le_iff_rank, upright_iff_rank, hzero]
  constructor
  · rintro ⟨_, y, hx, hy, hless⟩
    cases hx
    exact ⟨y, hy, hless⟩
  · rintro ⟨y, hy, hless⟩
    exact ⟨_, y, rfl, hy, hless⟩

theorem proper_of_isFinite (h : x.isFinite = true) :
    Proper x.toModel.unpack := by
  have hfinite : x.toModel.unpack.isFinite = true := h
  rcases hx : x.toModel.unpack with s | _ | s | ⟨s, m, e, hpos⟩
  · rw [hx] at hfinite
    cases hfinite
  · rw [hx] at hfinite
    cases hfinite
  · trivial
  · exact canonical_unpack hx

theorem exists_rank {u : UnpackedFloat} (h : Proper u) :
    ∃ r, rank? u = some r := by
  rcases u with _ | _ | s | ⟨_ | _, m, e, hpos⟩
  · cases h
  · cases h
  · exact ⟨_, rfl⟩
  · exact ⟨_, rfl⟩
  · exact ⟨_, rfl⟩

/-- Finite numbers are ordered. -/
theorem float_lt_of_not_le (hx : x.isFinite = true) (hy : y.isFinite = true)
    (hnot : ¬ x ≤ y) : y < x := by
  obtain ⟨r, hr⟩ := exists_rank (proper_of_isFinite hx)
  obtain ⟨q, hq⟩ := exists_rank (proper_of_isFinite hy)
  rw [float_le_iff, le_iff_rank] at hnot
  rw [float_lt_iff, lt_iff_rank]
  refine ⟨q, r, hq, hr, ?_⟩
  by_contra hless
  exact hnot ⟨r, q, hr, hq, hless⟩

theorem not_float_lt_of_le (hle : x ≤ y) : ¬ y < x := by
  rw [float_le_iff, le_iff_rank] at hle
  rw [float_lt_iff, lt_iff_rank]
  obtain ⟨r, q, hr, hq, hless⟩ := hle
  rintro ⟨q', r', hq', hr', hmore⟩
  rw [hr] at hr'
  rw [hq] at hq'
  cases hr'
  cases hq'
  exact hless hmore

/-- An increase is not below zero, and is not when it is added to nothing. -/
theorem zero_le_zero_add_sub (hx : x.isFinite = true)
    (hy : y.isFinite = true) (hle : x ≤ y) : 0.0 ≤ 0.0 + (y - x) := by
  rw [zero_le_iff_upright]
  exact upright_unpack_pack (upright_zero_add (upright_unpack_pack
    (upright_sub (proper_of_isFinite hy) (proper_of_isFinite hx)
      (float_le_iff.mp hle))))

theorem rank?_float_zero_add (hx : x.isFinite = true) :
    rank? (0.0 + x).toModel.unpack = rank? x.toModel.unpack :=
  rank?_zero_add (proper_of_isFinite hx)

/-- Added to zero, a float is below zero only if it was. -/
theorem zero_add_lt_zero_iff (hx : x.isFinite = true) :
    0.0 + x < 0.0 ↔ x < 0.0 := by
  rw [float_lt_iff, lt_iff_rank, float_lt_iff, lt_iff_rank,
    rank?_float_zero_add hx]

theorem zero_le_zero_add (hx : 0.0 ≤ x) : 0.0 ≤ 0.0 + x := by
  rw [zero_le_iff_upright] at hx ⊢
  exact upright_unpack_pack (upright_zero_add hx)

/-- Added to zero, a float equals what it was. -/
theorem zero_add_beq (hx : x.isFinite = true) : (0.0 + x == x) = true := by
  have hproper := proper_of_isFinite hx
  change UnpackedFloat.beq (Float.Model.pack (UnpackedFloat.add .binary64
    (.zero .positive) x.toModel.unpack)).unpack x.toModel.unpack = true
  generalize x.toModel.unpack = u at hproper ⊢
  rcases u with _ | _ | s | ⟨s, m, e, hpos⟩
  · cases hproper
  · cases hproper
  · cases s <;> rfl
  · have hadd : UnpackedFloat.add .binary64 (.zero .positive)
        (.finite s m e hpos) = .finite s m e hpos := rfl
    have hexponent : compare e e = .eq := Int.compare_eq_eq.mpr rfl
    have hmantissa : compare m m = .eq := Nat.compare_eq_eq.mpr rfl
    rw [hadd, Binary64.unpack_pack s hpos hproper]
    cases s with
    | negative =>
        change (some ((compare e e).then (compare m m)).swap ==
          some Ordering.eq) = true
        rw [hexponent, hmantissa]
        rfl
    | positive =>
        change (some ((compare e e).then (compare m m)) ==
          some Ordering.eq) = true
        rw [hexponent, hmantissa]
        rfl

end Floats

end WindowedMetrics
