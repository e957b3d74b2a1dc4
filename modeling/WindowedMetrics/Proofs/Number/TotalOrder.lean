/-
The order of floats that are numbers.  Any two of them compare, and the total
order of bit patterns is the same order wherever that tells two finite numbers
apart.
-/
import WindowedMetrics.Proofs.Number.Exact
import WindowedMetrics.Proofs.Number.Sign

namespace WindowedMetrics

open Float.Model Float.Model.UnpackedFloat Binary64

/-! ### Comparing numbers -/

section Comparing

variable {x y z : Float}

theorem isNaN_eq_false_iff :
    x.isNaN = false ↔ ∃ r, rank? x.toModel.unpack = some r := by
  change x.toModel.unpack.isNaN = false ↔ _
  rcases x.toModel.unpack with ⟨_ | _⟩ | _ | s | ⟨_ | _, m, e, hpos⟩
  case notANumber => exact iff_of_false (fun h => by cases h) (by rintro ⟨_, ⟨⟩⟩)
  all_goals exact iff_of_true rfl ⟨_, rfl⟩

theorem infinity_isNaN : (1.0 / 0.0 : Float).isNaN = false :=
  isNaN_eq_false_iff.mpr ⟨(2, 0, 0), rfl⟩

/-- Of two numbers, one is below the other or not above it. -/
theorem not_float_lt_iff (hx : x.isNaN = false) (hy : y.isNaN = false) :
    ¬ x < y ↔ y ≤ x := by
  obtain ⟨r, hr⟩ := isNaN_eq_false_iff.mp hx
  obtain ⟨q, hq⟩ := isNaN_eq_false_iff.mp hy
  rw [float_lt_iff, lt_iff_rank, float_le_iff, le_iff_rank, hr, hq]
  simp

theorem float_le_of_lt (hlt : x < y) : x ≤ y := by
  rw [float_lt_iff, lt_iff_rank] at hlt
  rw [float_le_iff, le_iff_rank]
  obtain ⟨r, q, hr, hq, hless⟩ := hlt
  refine ⟨r, q, hr, hq, ?_⟩
  unfold RankLess at hless ⊢
  omega

theorem float_le_trans (hxy : x ≤ y) (hyz : y ≤ z) : x ≤ z := by
  rw [float_le_iff, le_iff_rank] at hxy hyz ⊢
  obtain ⟨r, q, hr, hq, hless⟩ := hxy
  obtain ⟨q', p, hq', hp, hmore⟩ := hyz
  rw [hq] at hq'
  cases hq'
  refine ⟨r, p, hr, hp, ?_⟩
  unfold RankLess at hless hmore ⊢
  omega

theorem float_lt_trans (hxy : x < y) (hyz : y < z) : x < z :=
  float_lt_of_le_of_lt (float_le_of_lt hxy) hyz

theorem float_le_refl (hx : x.isNaN = false) : x ≤ x := by
  obtain ⟨r, hr⟩ := isNaN_eq_false_iff.mp hx
  rw [float_le_iff, le_iff_rank]
  refine ⟨r, r, hr, hr, ?_⟩
  unfold RankLess
  omega

theorem beq_iff_rank (a b : UnpackedFloat) :
    a.beq b = true ↔ ∃ r, rank? a = some r ∧ rank? b = some r := by
  unfold UnpackedFloat.beq
  rw [beq_iff_eq]
  rcases a with ⟨_ | _⟩ | _ | s | ⟨_ | _, m, e, _⟩ <;>
    rcases b with ⟨_ | _⟩ | _ | t | ⟨_ | _, n, f, _⟩ <;>
    dsimp only [UnpackedFloat.compare, rank?] <;>
    simp
  case finite.negative.finite.negative => omega
  case finite.positive.finite.positive => omega
  all_goals rfl

/-- A number that is at most another and does not equal it is below it. -/
theorem float_lt_of_le_of_bne (hle : x ≤ y) (hne : (x == y) = false) :
    x < y := by
  rw [float_le_iff, le_iff_rank] at hle
  obtain ⟨r, q, hr, hq, hless⟩ := hle
  have hneq : r ≠ q := by
    rintro rfl
    have hequal : (x == y) = true := (beq_iff_rank _ _).mpr ⟨r, hr, hq⟩
    rw [hne] at hequal
    cases hequal
  rw [float_lt_iff, lt_iff_rank]
  refine ⟨r, q, hr, hq, ?_⟩
  rw [Ne, Prod.ext_iff, Prod.ext_iff] at hneq
  unfold RankLess at hless ⊢
  omega

end Comparing

/-! ### Keys of finite numbers -/

namespace Dyadic

/-- The place of a number in the order of floats. -/
def rank (d : Dyadic) : Int × Int × Int :=
  if d.mantissa = 0 then (0, 0, 0)
  else if d.negative then (-1, -d.exponent, -d.mantissa)
  else (1, d.exponent, d.mantissa)

/-- The place of a number in the total order: exponent and mantissa in one
number, on its side of zero. -/
def key (d : Dyadic) : Int :=
  let size := (d.exponent + 1074) * 4503599627370496 + d.mantissa
  if d.negative then -size - 1 else size

/-- A number is of the form in which floats hold it. -/
def Packed (d : Dyadic) : Prop := Canonical d.mantissa d.exponent

/-- Of two numbers, the lower one has the lower key. -/
theorem key_lt_of_rankLess {c d : Dyadic} (hc : c.Packed) (hd : d.Packed)
    (hless : RankLess c.rank d.rank) : c.key < d.key := by
  obtain ⟨hsmall, hleast, -, hfull⟩ := hc
  obtain ⟨hsmall', hleast', -, hfull'⟩ := hd
  rcases c with ⟨s, m, e⟩
  rcases d with ⟨t, n, f⟩
  simp only [RankLess, rank, key] at *
  cases s <;> cases t <;> by_cases hm : m = 0 <;> by_cases hn : n = 0 <;>
    simp only [hm, hn, ↓reduceIte, Bool.false_eq_true] at hless ⊢ <;> omega

end Dyadic

/-- A finite float as an exact number. -/
theorem exists_dyadic {x : Float} (hx : x.isFinite = true) :
    ∃ d : Dyadic, Dyadic.ofFloat? x = some d ∧ d.Packed ∧
      rank? x.toModel.unpack = some d.rank := by
  have hproper := proper_of_isFinite hx
  rw [Dyadic.ofFloat?_eq]
  generalize x.toModel.unpack = u at hproper ⊢
  rcases u with _ | _ | s | ⟨s, m, e, hpos⟩
  · cases hproper
  · cases hproper
  · have hpacked : Canonical 0 (-1074) :=
      ⟨by decide, by decide, by decide, Or.inr rfl⟩
    exact ⟨_, rfl, hpacked, rfl⟩
  · refine ⟨_, rfl, hproper, ?_⟩
    have hne := hpos.ne'
    cases s <;> dsimp only [rank?, Dyadic.rank, Dyadic.isMinus] <;>
      simp only [hne, ↓reduceIte, Bool.false_eq_true]

/-- The bits of a finite float are its exponent and its mantissa, side by
side. -/
theorem totalKey_eq {x : Float} {d : Dyadic}
    (hparts : Dyadic.ofFloat? x = some d) : totalKey x = d.key := by
  have hword : x.toBits.toNat < 18446744073709551616 := x.toBits.toNat_lt
  unfold Dyadic.ofFloat? at hparts
  unfold totalKey
  generalize x.toBits.toNat = bits at hparts hword ⊢
  simp only [Nat.one_shiftLeft, Nat.shiftRight_eq_div_pow,
    Nat.reducePow] at hparts ⊢
  by_cases hgreatest : bits / 4503599627370496 % 2048 = 2047
  · rw [if_pos hgreatest] at hparts
    cases hparts
  · rw [if_neg hgreatest] at hparts
    by_cases hleast : bits / 4503599627370496 % 2048 = 0
    · rw [if_pos hleast] at hparts
      obtain rfl := Option.some.inj hparts
      simp only [Dyadic.key, decide_eq_true_eq]
      split <;> omega
    · rw [if_neg hleast] at hparts
      obtain rfl := Option.some.inj hparts
      simp only [Dyadic.key, decide_eq_true_eq]
      split <;> omega

/-- Of two finite floats, the lower one has the lower key. -/
theorem totalKey_lt_of_lt {x y : Float} (hx : x.isFinite = true)
    (hy : y.isFinite = true) (hlt : x < y) : totalKey x < totalKey y := by
  obtain ⟨c, hc, hpacked, hrank⟩ := exists_dyadic hx
  obtain ⟨d, hd, hpacked', hrank'⟩ := exists_dyadic hy
  rw [float_lt_iff, lt_iff_rank, hrank, hrank'] at hlt
  obtain ⟨_, _, ⟨⟩, ⟨⟩, hless⟩ := hlt
  rw [totalKey_eq hc, totalKey_eq hd]
  exact Dyadic.key_lt_of_rankLess hpacked hpacked' hless

/-- Finite floats in the total order are in order. -/
theorem float_le_of_totalLe {x y : Float} (hx : x.isFinite = true)
    (hy : y.isFinite = true) (hle : totalLe x y = true) : x ≤ y := by
  rw [totalLe, decide_eq_true_eq] at hle
  by_contra hnot
  have hlt := totalKey_lt_of_lt hy hx (float_lt_of_not_le hx hy hnot)
  omega

theorem totalLe_trans (x y z : Float) (hxy : totalLe x y = true)
    (hyz : totalLe y z = true) : totalLe x z = true := by
  simp only [totalLe, decide_eq_true_eq] at *
  omega

theorem totalLe_total (x y : Float) : (totalLe x y || totalLe y x) = true := by
  simp only [totalLe, Bool.or_eq_true, decide_eq_true_eq]
  omega

/-- Sorting finite floats by their keys puts them in order. -/
theorem pairwise_mergeSort_totalLe {xs : List Float}
    (hfinite : ∀ x ∈ xs, x.isFinite = true) :
    (xs.mergeSort totalLe).Pairwise (· ≤ ·) := by
  have hkeys := List.pairwise_mergeSort totalLe_trans totalLe_total xs
  refine hkeys.imp_of_mem ?_
  intro x y hx hy hle
  rw [List.mem_mergeSort] at hx hy
  exact float_le_of_totalLe (hfinite x hx) (hfinite y hy) hle

end WindowedMetrics
