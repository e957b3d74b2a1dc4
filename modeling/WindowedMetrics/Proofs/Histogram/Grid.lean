/-
The log-linear grid.  A counter lies on a level, the logarithm of its width,
and has a lead, the number of widths below its least value.  Above level zero
the leads run from `half` on, so that no counter is wide against its values.
The same shape computed in machine words never leaves their range.
-/
import WindowedMetrics.Histogram.LogLinear
import Mathlib.Data.Nat.Log
import Mathlib.Tactic.Ring

namespace WindowedMetrics

namespace LogLinearGrid

section Counters

variable (l : LogLinearGrid)

theorem half_eq : l.half = 2 ^ l.halfMagnitude := Nat.one_shiftLeft _

theorem half_pos : 0 < l.half := by
  rw [half_eq]
  exact Nat.two_pow_pos _

/-- A row of counters is long enough for the wanted digits. -/
theorem ten_pow_le_half : 10 ^ l.digits ≤ l.half := by
  have hlog := Nat.lt_log2_self (n := 2 * Nat.pow 10 l.digits - 1)
  have hpow : Nat.pow 10 l.digits = 10 ^ l.digits := rfl
  rw [half_eq, halfMagnitude]
  rw [Nat.pow_succ] at hlog
  omega

theorem clamp_pos (value : Nat) : 0 < l.clamp value := by
  unfold clamp
  omega

theorem clamp_le (value : Nat) : l.clamp value ≤ l.highest := by
  have := l.two_le_highest
  unfold clamp
  omega

theorem clamp_mono {value other : Nat} (hle : value ≤ other) :
    l.clamp value ≤ l.clamp other := by
  unfold clamp
  omega

theorem clamp_eq_self {value : Nat} (hpos : 1 ≤ value)
    (hle : value ≤ l.highest) : l.clamp value = value := by
  unfold clamp
  omega

/-- Numbers up to the highest value have at most 63 bits. -/
theorem log2_highest_le : l.highest.log2 ≤ 62 := by
  have hhighest := l.two_le_highest
  have hlt : l.highest.log2 < 63 := by
    rw [Nat.log2_lt (by omega)]
    exact l.highest_le.trans_lt (by decide)
  omega

/-- Five digits need no more than 18 bits. -/
theorem halfMagnitude_le : l.halfMagnitude ≤ 17 := by
  have hpow : Nat.pow 10 l.digits ≤ 10 ^ 5 :=
    Nat.pow_le_pow_right (by omega) l.digits_le
  have hlt : (2 * Nat.pow 10 l.digits - 1).log2 < 18 := by
    have hpos : 0 < Nat.pow 10 l.digits := Nat.pow_pos (by omega)
    rw [Nat.log2_lt (by omega)]
    omega
  unfold halfMagnitude
  omega

/-! ### Levels and leads -/

/-- The logarithm of the width of the counters around a value. -/
def level (value : Nat) : Nat := value.log2 - l.halfMagnitude

/-- The number of whole widths in a value. -/
def lead (value : Nat) : Nat := value / 2 ^ l.level value

theorem level_mono {value other : Nat} (hle : value ≤ other) :
    l.level value ≤ l.level other := by
  have hlog : value.log2 ≤ other.log2 := by
    rw [Nat.log2_eq_log_two, Nat.log2_eq_log_two]
    exact Nat.log_mono_right hle
  unfold level
  omega

theorem lead_mul_le (value : Nat) :
    l.lead value * 2 ^ l.level value ≤ value :=
  Nat.div_mul_le_self _ _

theorem lt_lead_succ_mul (value : Nat) :
    value < (l.lead value + 1) * 2 ^ l.level value := by
  rw [Nat.mul_comm]
  exact Nat.lt_mul_div_succ value (Nat.two_pow_pos _)

theorem lead_lt (value : Nat) : l.lead value < 2 * l.half := by
  have hlog := Nat.lt_log2_self (n := value)
  have hle : 2 ^ (value.log2 + 1) ≤ 2 ^ (l.level value + (l.halfMagnitude + 1)) :=
    Nat.pow_le_pow_right (by omega) (by unfold level; omega)
  rw [lead, Nat.div_lt_iff_lt_mul (Nat.two_pow_pos _), half_eq,
    ← Nat.pow_succ', ← Nat.pow_add, Nat.add_comm (l.halfMagnitude + 1)]
  omega

theorem half_le_lead {value : Nat} (hlevel : 0 < l.level value) :
    l.half ≤ l.lead value := by
  have hne : value ≠ 0 := by
    rintro rfl
    simp [level] at hlevel
  have hsum : l.halfMagnitude + l.level value = value.log2 := by
    unfold level at hlevel ⊢
    omega
  rw [lead, Nat.le_div_iff_mul_le (Nat.two_pow_pos _), half_eq,
    ← Nat.pow_add, hsum]
  exact Nat.log2_self_le hne

/-! ### Counters by level and lead -/

/-- The mask of a full row sets the bits that a small value lacks. -/
theorem log2_or_mask {value : Nat} (hpos : 0 < value) :
    (value ||| (2 * l.half - 1)).log2 = max value.log2 l.halfMagnitude := by
  have hmask : 2 * l.half = 2 ^ (l.halfMagnitude + 1) := by
    rw [half_eq, Nat.pow_succ']
  have hle : value ≤ value ||| (2 * l.half - 1) := Nat.left_le_or
  have hmaskLe : 2 * l.half - 1 ≤ value ||| (2 * l.half - 1) :=
    Nat.right_le_or
  rw [Nat.log2_eq_iff (by omega)]
  constructor
  · rcases Nat.le_total value.log2 l.halfMagnitude with hsmall | hlarge
    · rw [Nat.max_eq_right hsmall, ← half_eq]
      have := l.half_pos
      omega
    · rw [Nat.max_eq_left hlarge]
      exact (Nat.log2_self_le (by omega)).trans hle
  · apply Nat.or_lt_two_pow
    · exact Nat.lt_log2_self.trans_le
        (Nat.pow_le_pow_right (by omega) (by omega))
    · have hpow : 2 ^ (l.halfMagnitude + 1) ≤
          2 ^ (max value.log2 l.halfMagnitude + 1) :=
        Nat.pow_le_pow_right (by omega) (by omega)
      have := l.half_pos
      omega

theorem indexOf_eq (value : Nat) :
    l.indexOf value = l.level (l.clamp value) * l.half +
      l.lead (l.clamp value) := by
  have hwidth : max (l.clamp value).log2 l.halfMagnitude - l.halfMagnitude =
      l.level (l.clamp value) := by
    unfold level
    omega
  simp only [indexOf, log2_or_mask l (l.clamp_pos value), hwidth,
    Nat.shiftRight_eq_div_pow]
  rw [Nat.succ_mul, ← lead]
  omega

/-- The least value of a counter by its level and lead; a lead may also be
the first one past its row. -/
theorem valueAt_row {level lead : Nat} (hrow : level = 0 ∨ l.half ≤ lead)
    (hlead : lead ≤ 2 * l.half) :
    l.valueAt (level * l.half + lead) = lead * 2 ^ level := by
  have hpos := l.half_pos
  have hdiv : ∀ row column : Nat, column < l.half →
      level * l.half + lead = row * l.half + column →
      (level * l.half + lead) / l.half = row ∧
        (level * l.half + lead) % l.half = column := by
    intro row column hcolumn heq
    rw [heq, Nat.add_comm]
    exact ⟨by rw [Nat.add_mul_div_right _ _ hpos, Nat.div_eq_of_lt hcolumn,
      Nat.zero_add], by rw [Nat.add_mul_mod_self_right,
      Nat.mod_eq_of_lt hcolumn]⟩
  unfold valueAt
  rcases Nat.lt_or_ge lead l.half with hsmall | hlarge
  · obtain rfl : level = 0 := hrow.resolve_right (by omega)
    obtain ⟨hquot, hrem⟩ := hdiv 0 lead hsmall rfl
    simp only [hquot, hrem, ↓reduceIte, Nat.pow_zero, Nat.mul_one]
  · rcases Nat.lt_or_ge lead (2 * l.half) with hinner | hlast
    · obtain ⟨hquot, hrem⟩ := hdiv (level + 1) (lead - l.half) (by omega)
        (by rw [Nat.succ_mul]; omega)
      simp only [hquot, hrem, Nat.succ_ne_zero, ↓reduceIte,
        Nat.add_sub_cancel, Nat.sub_add_cancel hlarge, Nat.shiftLeft_eq]
    · obtain rfl : lead = 2 * l.half := by omega
      obtain ⟨hquot, hrem⟩ := hdiv (level + 2) 0 hpos
        (by rw [Nat.add_mul]; omega)
      simp only [hquot, hrem, Nat.succ_ne_zero, ↓reduceIte, Nat.zero_add,
        Nat.shiftLeft_eq]
      rw [Nat.add_sub_assoc (by omega), Nat.pow_succ]
      ring

/-- The least value of a counter lies on the counter's level. -/
theorem level_row {level lead : Nat} (hpos : 1 ≤ lead * 2 ^ level)
    (hrow : level = 0 ∨ l.half ≤ lead) (hlead : lead < 2 * l.half) :
    l.level (lead * 2 ^ level) = level := by
  have htop : lead < 2 ^ (l.halfMagnitude + 1) := by
    rw [Nat.pow_succ', ← half_eq]
    exact hlead
  rcases hrow with rfl | hlarge
  · rw [Nat.pow_zero, Nat.mul_one] at hpos ⊢
    have hlog := (Nat.log2_lt (by omega)).mpr htop
    unfold LogLinearGrid.level
    omega
  · have hlog : (lead * 2 ^ level).log2 = l.halfMagnitude + level := by
      rw [Nat.log2_eq_iff (by omega), Nat.add_right_comm, Nat.pow_add,
        Nat.pow_add, ← half_eq]
      exact ⟨Nat.mul_le_mul_right _ hlarge,
        Nat.mul_lt_mul_of_pos_right htop (Nat.two_pow_pos _)⟩
    unfold LogLinearGrid.level
    omega

/-- Every counter has a level and a lead. -/
theorem exists_row (index : Nat) : ∃ level lead,
    index = level * l.half + lead ∧ (level = 0 ∨ l.half ≤ lead) ∧
      lead < 2 * l.half := by
  have hpos := l.half_pos
  have hrem := Nat.mod_lt index hpos
  have hsplit := Nat.div_add_mod' index l.half
  rcases Nat.eq_zero_or_pos (index / l.half) with hzero | hrow
  · exact ⟨0, index, by omega, Or.inl rfl, by
      rw [hzero] at hsplit; omega⟩
  · obtain ⟨level, hlevel⟩ := Nat.exists_eq_succ_of_ne_zero hrow.ne'
    rw [hlevel, Nat.succ_mul] at hsplit
    exact ⟨level, index % l.half + l.half, by omega, Or.inr (by omega),
      by omega⟩

theorem row_of_value (value : Nat) :
    l.level value = 0 ∨ l.half ≤ l.lead value := by
  rcases Nat.eq_zero_or_pos (l.level value) with hzero | hpos
  · exact Or.inl hzero
  · exact Or.inr (l.half_le_lead hpos)

theorem valueAt_indexOf (value : Nat) :
    l.valueAt (l.indexOf value) =
      l.lead (l.clamp value) * 2 ^ l.level (l.clamp value) := by
  have hlead := l.lead_lt (l.clamp value)
  rw [indexOf_eq, valueAt_row l (l.row_of_value _) (by omega)]

theorem valueAt_indexOf_succ (value : Nat) :
    l.valueAt (l.indexOf value + 1) =
      (l.lead (l.clamp value) + 1) * 2 ^ l.level (l.clamp value) := by
  have hlead := l.lead_lt (l.clamp value)
  have hrow := l.row_of_value (l.clamp value)
  rw [indexOf_eq, Nat.add_assoc, valueAt_row l (by omega) (by omega)]

/-! ### Where values fall -/

theorem valueAt_indexOf_le (value : Nat) :
    l.valueAt (l.indexOf value) ≤ l.clamp value := by
  rw [valueAt_indexOf]
  exact l.lead_mul_le _

/-- Counters that values fall into do not start at zero. -/
theorem valueAt_indexOf_pos (value : Nat) :
    1 ≤ l.valueAt (l.indexOf value) := by
  have hpos := l.clamp_pos value
  have hwidth : 2 ^ l.level (l.clamp value) ≤ l.clamp value :=
    (Nat.pow_le_pow_right (by omega) (Nat.sub_le _ _)).trans
      (Nat.log2_self_le hpos.ne')
  have hlead : 0 < l.lead (l.clamp value) :=
    Nat.div_pos hwidth (Nat.two_pow_pos _)
  rw [valueAt_indexOf]
  exact Nat.mul_pos hlead (Nat.two_pow_pos _)

theorem lt_valueAt_indexOf_succ (value : Nat) :
    l.clamp value < l.valueAt (l.indexOf value + 1) := by
  rw [valueAt_indexOf_succ]
  exact l.lt_lead_succ_mul _

theorem indexOf_lt_size (value : Nat) : l.indexOf value < l.size := by
  have hlead := l.lead_lt (l.clamp value)
  have hlevel : l.level (l.clamp value) ≤ l.level l.highest :=
    l.level_mono (l.clamp_le value)
  have hrows : (l.level (l.clamp value) + 2) * l.half ≤
      (l.level l.highest + 2) * l.half :=
    Nat.mul_le_mul_right _ (by omega)
  have hsize : l.size = (l.level l.highest + 2) * l.half := rfl
  rw [indexOf_eq, hsize]
  rw [Nat.add_mul] at hrows
  omega

theorem indexOf_mono {value other : Nat} (hle : value ≤ other) :
    l.indexOf value ≤ l.indexOf other := by
  have hclamp := l.clamp_mono hle
  have hlead := l.lead_lt (l.clamp value)
  rw [indexOf_eq, indexOf_eq]
  generalize l.clamp value = c at hclamp hlead ⊢
  generalize l.clamp other = d at hclamp ⊢
  rcases Nat.eq_or_lt_of_le (l.level_mono hclamp) with heq | hlt
  · have hsame : l.lead c ≤ l.lead d := by
      unfold lead
      rw [heq]
      exact Nat.div_le_div_right hclamp
    rw [heq]
    omega
  · have hlarge := l.half_le_lead (Nat.zero_lt_of_lt hlt)
    have hrows : (l.level c + 1) * l.half ≤ l.level d * l.half :=
      Nat.mul_le_mul_right _ hlt
    rw [Nat.succ_mul] at hrows
    omega

theorem indexOf_valueAt {index : Nat} (hpos : 1 ≤ l.valueAt index)
    (hle : l.valueAt index ≤ l.highest) :
    l.indexOf (l.valueAt index) = index := by
  obtain ⟨level, lead, rfl, hrow, hlead⟩ := l.exists_row index
  rw [indexOf_eq, clamp_eq_self l hpos hle]
  rw [valueAt_row l hrow (by omega)] at hpos ⊢
  have hlevel : l.level (lead * 2 ^ level) = level :=
    l.level_row hpos hrow hlead
  rw [LogLinearGrid.lead, hlevel, Nat.mul_div_cancel _ (Nat.two_pow_pos _)]

/-- Values are found again by the least value of their counter. -/
theorem indexOf_valueAt_indexOf (value : Nat) :
    l.indexOf (l.valueAt (l.indexOf value)) = l.indexOf value :=
  l.indexOf_valueAt (l.valueAt_indexOf_pos value)
    ((l.valueAt_indexOf_le value).trans (l.clamp_le value))

/-- Counters ascend. -/
theorem valueAt_strictMono : StrictMono l.valueAt := by
  apply strictMono_nat_of_lt_succ
  intro index
  obtain ⟨level, lead, rfl, hrow, hlead⟩ := l.exists_row index
  rw [Nat.add_assoc, valueAt_row l hrow (by omega),
    valueAt_row l (by omega) (by omega)]
  exact Nat.mul_lt_mul_of_pos_right (by omega) (Nat.two_pow_pos _)

/-- A counter is narrow against the values that fall into it. -/
theorem width_mul_lt (value : Nat) :
    (l.valueAt (l.indexOf value + 1) - 1 - l.valueAt (l.indexOf value)) *
      10 ^ l.digits < l.clamp value := by
  have hwidth : l.valueAt (l.indexOf value + 1) - 1 -
      l.valueAt (l.indexOf value) = 2 ^ l.level (l.clamp value) - 1 := by
    rw [valueAt_indexOf, valueAt_indexOf_succ, Nat.succ_mul]
    omega
  have hpos := l.clamp_pos value
  rw [hwidth]
  rcases Nat.eq_zero_or_pos (l.level (l.clamp value)) with hzero | hlevel
  · simpa [hzero] using hpos
  · calc (2 ^ l.level (l.clamp value) - 1) * 10 ^ l.digits
        < 2 ^ l.level (l.clamp value) * 10 ^ l.digits := by
          apply Nat.mul_lt_mul_of_pos_right
          · have := Nat.two_pow_pos (l.level (l.clamp value))
            omega
          · exact Nat.pow_pos (by omega)
      _ ≤ l.lead (l.clamp value) * 2 ^ l.level (l.clamp value) := by
          rw [Nat.mul_comm]
          exact Nat.mul_le_mul_right _
            (l.ten_pow_le_half.trans (l.half_le_lead hlevel))
      _ ≤ l.clamp value := l.lead_mul_le _

/-- No counter of the grid starts past the words of 63 bits, not even the one
after the last. -/
theorem valueAt_le {index : Nat} (hle : index ≤ l.size) :
    l.valueAt index ≤ 2 ^ 63 := by
  have hmagnitude := l.halfMagnitude_le
  have hlog := l.log2_highest_le
  have hsize : l.size = (l.level l.highest + 2) * l.half := rfl
  have hmax : l.level l.highest + (l.halfMagnitude + 1) ≤ 63 := by
    unfold level
    omega
  obtain ⟨level, lead, rfl, hrow, hlead⟩ := l.exists_row index
  rw [valueAt_row l hrow (by omega)]
  have hlast : lead * 2 ^ level ≤ 2 * l.half * 2 ^ l.level l.highest := by
    rcases Nat.lt_or_ge (l.level l.highest) level with hpast | hinner
    · -- only the first counter of the next level is left
      have hhalf := hrow.resolve_left (by omega)
      have hrows : (l.level l.highest + 1) * l.half ≤ level * l.half :=
        Nat.mul_le_mul_right _ hpast
      rw [hsize, Nat.add_mul] at hle
      rw [Nat.succ_mul] at hrows
      have hlevel : level = l.level l.highest + 1 := by
        have hpos := l.half_pos
        by_contra hne
        have hmore : (l.level l.highest + 2) * l.half ≤ level * l.half :=
          Nat.mul_le_mul_right _ (by omega)
        rw [Nat.add_mul] at hmore
        omega
      subst hlevel
      rw [Nat.succ_mul] at hle
      obtain rfl : lead = l.half := by omega
      rw [Nat.pow_succ]
      exact (by ring : l.half * (2 ^ l.level l.highest * 2) =
        2 * l.half * 2 ^ l.level l.highest).le
    · exact Nat.mul_le_mul hlead.le (Nat.pow_le_pow_right (by omega) hinner)
  refine hlast.trans ?_
  rw [half_eq, ← Nat.pow_succ', ← Nat.pow_add, Nat.add_comm]
  exact Nat.pow_le_pow_right (by omega) hmax

end Counters

end LogLinearGrid

end WindowedMetrics
