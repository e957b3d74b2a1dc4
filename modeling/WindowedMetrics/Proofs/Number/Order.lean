/-
The order of floats.  Finite numbers compare by their side of zero, then by
exponent and mantissa, and nothing is ordered with NaN.
-/
import WindowedMetrics.Number.Dyadic

namespace WindowedMetrics

open Float.Model

/-- Where a number lies: its side of zero and whether it is infinite, then
exponent and mantissa, all growing with the number. -/
def rank? : UnpackedFloat → Option (Int × Int × Int)
  | .notANumber => none
  | .infinity .negative => some (-2, 0, 0)
  | .finite .negative mantissa exponent _ => some (-1, -exponent, -mantissa)
  | .zero _ => some (0, 0, 0)
  | .finite .positive mantissa exponent _ => some (1, exponent, mantissa)
  | .infinity .positive => some (2, 0, 0)

/-- Ranks compare by the first part in which they differ. -/
def RankLess (a b : Int × Int × Int) : Prop :=
  a.1 < b.1 ∨ a.1 = b.1 ∧ (a.2.1 < b.2.1 ∨ a.2.1 = b.2.1 ∧ a.2.2 < b.2.2)

theorem then_eq_lt_iff (e f : Int) (m n : Nat) :
    (compare e f).then (compare m n) = .lt ↔ e < f ∨ e = f ∧ m < n := by
  rw [Ordering.then_eq_lt, Int.compare_eq_lt, Int.compare_eq_eq,
    Nat.compare_eq_lt]

theorem then_eq_gt_iff (e f : Int) (m n : Nat) :
    (compare e f).then (compare m n) = .gt ↔ f < e ∨ e = f ∧ n < m := by
  rw [Ordering.then_eq_gt, Int.compare_eq_gt, Int.compare_eq_eq,
    Nat.compare_eq_gt]

theorem lt_iff_rank (a b : UnpackedFloat) :
    a.lt b = true ↔
      ∃ x y, rank? a = some x ∧ rank? b = some y ∧ RankLess x y := by
  unfold UnpackedFloat.lt
  rw [beq_iff_eq]
  rcases a with ⟨_ | _⟩ | _ | s | ⟨_ | _, m, e, _⟩ <;>
    rcases b with ⟨_ | _⟩ | _ | t | ⟨_ | _, n, f, _⟩ <;>
    dsimp only [UnpackedFloat.compare, rank?] <;>
    simp [RankLess, then_eq_lt_iff, then_eq_gt_iff]
  rfl

theorem then_isLE_iff (e f : Int) (m n : Nat) :
    ((compare e f).then (compare m n)).isLE = true ↔
      e ≤ f ∧ (e = f → m ≤ n) := by
  rw [← Ordering.ne_gt_iff_isLE, then_eq_gt_iff]
  omega

theorem then_isGE_iff (e f : Int) (m n : Nat) :
    ((compare e f).then (compare m n)).isGE = true ↔
      f ≤ e ∧ (f = e → n ≤ m) := by
  rw [← Ordering.ne_lt_iff_isGE, then_eq_lt_iff]
  omega

theorem le_iff_rank (a b : UnpackedFloat) :
    a.le b = true ↔
      ∃ x y, rank? a = some x ∧ rank? b = some y ∧ ¬ RankLess y x := by
  unfold UnpackedFloat.le
  rcases a with ⟨_ | _⟩ | _ | s | ⟨_ | _, m, e, _⟩ <;>
    rcases b with ⟨_ | _⟩ | _ | t | ⟨_ | _, n, f, _⟩ <;>
    dsimp only [UnpackedFloat.compare, rank?] <;>
    simp [RankLess, then_isLE_iff, then_isGE_iff]
  case finite.positive.finite.positive => omega
  all_goals rfl

theorem float_lt_iff {x y : Float} :
    x < y ↔ x.toModel.unpack.lt y.toModel.unpack = true :=
  decide_eq_true_iff

theorem float_le_iff {x y : Float} :
    x ≤ y ↔ x.toModel.unpack.le y.toModel.unpack = true :=
  decide_eq_true_iff

/-- What is at most a number that is below another is below it too; nothing
is ordered with NaN. -/
theorem float_lt_of_le_of_lt {a b c : Float} (hab : a ≤ b) (hbc : b < c) :
    a < c := by
  rw [float_le_iff, le_iff_rank] at hab
  rw [float_lt_iff, lt_iff_rank] at hbc ⊢
  obtain ⟨x, y, hx, hy, hxy⟩ := hab
  obtain ⟨y', z, hy', hz, hyz⟩ := hbc
  rw [hy] at hy'
  cases hy'
  refine ⟨x, z, hx, hz, ?_⟩
  unfold RankLess at hxy hyz ⊢
  omega

end WindowedMetrics
