/-
The log-linear grid in machine words.  Leading zeros, masks and shifts of
64-bit words, and a bound that is doubled until it passes the highest value,
give the same shape, counters and values, and no operation on the way leaves
the range of a word.
-/
import WindowedMetrics.Proofs.Histogram.Grid

namespace WindowedMetrics

/-! ### Words -/

/- Unsigned 64-bit words by their values.  An operation that would overflow,
fall below zero or shift by the whole width has no result. -/
namespace Word64

/-- A result that has to fit. -/
def fit? (n : Nat) : Option Nat :=
  if n < UInt64.size then some n else none

def sub? (a b : Nat) : Option Nat :=
  if b ≤ a then some (a - b) else none

/-- The bits that are shifted out are lost. -/
def shiftLeft? (a k : Nat) : Option Nat :=
  if k < 64 then some ((a <<< k) % UInt64.size) else none

def shiftRight? (a k : Nat) : Option Nat :=
  if k < 64 then some (a >>> k) else none

def leadingZeros (a : Nat) : Nat := (BitVec.ofNat 64 a).clz.toNat

theorem fit?_eq_some {n : Nat} (hlt : n < UInt64.size) :
    fit? n = some n := if_pos hlt

theorem sub?_eq_some {a b : Nat} (hle : b ≤ a) : sub? a b = some (a - b) :=
  if_pos hle

theorem shiftLeft?_eq_some {a k : Nat} (hk : k < 64)
    (hlt : a * 2 ^ k < UInt64.size) : shiftLeft? a k = some (a * 2 ^ k) := by
  rw [shiftLeft?, if_pos hk, Nat.shiftLeft_eq, Nat.mod_eq_of_lt hlt]

theorem shiftRight?_eq_some {a k : Nat} (hk : k < 64) :
    shiftRight? a k = some (a / 2 ^ k) := by
  rw [shiftRight?, if_pos hk, Nat.shiftRight_eq_div_pow]

/-- The leading zeros leave the bits up to the highest one that is set. -/
theorem leadingZeros_eq {a : Nat} (hpos : 0 < a) (hlt : a < UInt64.size) :
    leadingZeros a = 63 - a.log2 := by
  have hnat : (BitVec.ofNat 64 a).toNat = a := by
    rw [BitVec.toNat_ofNat]
    exact Nat.mod_eq_of_lt hlt
  have hne : BitVec.ofNat 64 a ≠ 0#64 := by
    intro hzero
    rw [hzero] at hnat
    exact hpos.ne hnat
  have hlow := BitVec.two_pow_sub_clz_le_toNat_of_ne_zero (by decide) hne
  have hhigh := BitVec.toNat_lt_two_pow_sub_clz (x := BitVec.ofNat 64 a)
  have hclz := BitVec.clz_lt_iff_ne_zero.mpr hne
  rw [hnat] at hlow hhigh
  have hlog : a.log2 = 64 - 1 - leadingZeros a := by
    rw [Nat.log2_eq_iff hpos.ne']
    refine ⟨hlow, hhigh.trans_le (Nat.pow_le_pow_right (by omega) ?_)⟩
    unfold leadingZeros
    omega
  have hfew : leadingZeros a < 64 := hclz
  omega

end Word64

/-! ### The grid in words -/

open Word64

/-- What a grid keeps in words: the range and the row, with the mask that
covers two rows. -/
structure GridWords where
  highest : Nat
  halfMagnitude : Nat
  half : Nat
  mask : Nat
  size : Nat

namespace GridWords

/-- Counts the rows by doubling a bound until it passes the highest value.  A
bound that loses its highest bit never gets there. -/
def rows? (highest bound rows : Nat) : Option Nat :=
  if highest < bound then some rows
  else if h : 0 < bound ∧ 2 * bound < UInt64.size then
    rows? highest (2 * bound) (rows + 1)
  else none
termination_by highest + 1 - bound

/-- The words of the grid for a wanted range and digits. -/
def of? (highest digits : Nat) : Option GridWords := do
  let digits := min digits 5
  let highest := max 2 (min highest (1 <<< 62))
  let unit ← fit? (2 * 10 ^ digits)
  let top ← sub? unit 1
  let magnitude ← sub? 64 (leadingZeros top)
  let halfMagnitude ← sub? (max magnitude 1) 1
  let count ← shiftLeft? 1 (halfMagnitude + 1)
  let mask ← sub? count 1
  let rows ← rows? highest count 1
  let size ← fit? ((rows + 1) * (count / 2))
  return ⟨highest, halfMagnitude, count / 2, mask, size⟩

/-- The counter of a value. -/
def indexOf? (g : GridWords) (value : Nat) : Option Nat := do
  let value := max 1 (min value g.highest)
  let ceiling ← sub? 64 (leadingZeros (value ||| g.mask))
  let width ← sub? ceiling (g.halfMagnitude + 1)
  let lead ← shiftRight? value width
  let row ← shiftLeft? (width + 1) g.halfMagnitude
  let sum ← fit? (row + lead)
  sub? sum g.half

/-- The least value of a counter. -/
def valueAt? (g : GridWords) (index : Nat) : Option Nat := do
  let row ← shiftRight? index g.halfMagnitude
  let column ← fit? ((index &&& (g.half - 1)) + g.half)
  if row = 0 then
    let column ← sub? column g.half
    shiftLeft? column 0
  else shiftLeft? column (row - 1)

/-- The words that hold a grid. -/
def ofGrid (l : LogLinearGrid) : GridWords :=
  ⟨l.highest, l.halfMagnitude, l.half, 2 * l.half - 1, l.size⟩

/-- Doubling from the first bound past a row, the number of rows is that of
the powers of two up to the highest value. -/
theorem rows?_two_pow {highest : Nat} (hpos : 0 < highest)
    (hle : highest ≤ 1 <<< 62) (k rows : Nat) :
    rows? highest (2 ^ k) rows = some (rows + (highest.log2 + 1 - k)) := by
  have hlog : highest.log2 < 63 := by
    rw [Nat.log2_lt hpos.ne']
    exact hle.trans_lt (by decide)
  generalize hleft : highest.log2 + 1 - k = left
  induction left generalizing k rows with
  | zero =>
      have hlt : highest < 2 ^ k := by
        rw [← Nat.log2_lt hpos.ne']
        omega
      rw [rows?, if_pos hlt, Nat.add_zero]
  | succ left ih =>
      have hk : k ≤ highest.log2 := by omega
      have hnot : ¬ highest < 2 ^ k := by
        rw [← Nat.log2_lt hpos.ne']
        omega
      have hfits : 2 * 2 ^ k < UInt64.size := by
        rw [← Nat.pow_succ']
        exact (Nat.pow_le_pow_right (by omega) (by omega : k + 1 ≤ 63)).trans_lt
          (by decide)
      rw [rows?, if_neg hnot, dif_pos ⟨Nat.two_pow_pos k, hfits⟩,
        ← Nat.pow_succ', ih (k + 1) (rows + 1) (by omega)]
      congr 1
      omega

/-- The shape computed in words is the grid's. -/
theorem of?_eq (highest digits : Nat) :
    of? highest digits = some (ofGrid (LogLinearGrid.of highest digits)) := by
  let l := LogLinearGrid.of highest digits
  have hhighest : max 2 (min highest (1 <<< 62)) = l.highest := rfl
  have hdigits : min digits 5 = l.digits := rfl
  have hpos : 0 < 10 ^ l.digits := Nat.pow_pos (by omega)
  have hpow : 10 ^ l.digits ≤ 10 ^ 5 :=
    Nat.pow_le_pow_right (by omega) l.digits_le
  have htop : (2 * 10 ^ l.digits - 1).log2 = l.halfMagnitude := rfl
  have hmagnitude := l.halfMagnitude_le
  have hlog := l.log2_highest_le
  have hunit : fit? (2 * 10 ^ l.digits) = some (2 * 10 ^ l.digits) := by
    apply fit?_eq_some
    unfold UInt64.size
    omega
  have hzeros : leadingZeros (2 * 10 ^ l.digits - 1) =
      63 - l.halfMagnitude := by
    rw [← htop]
    apply leadingZeros_eq (by omega)
    unfold UInt64.size
    omega
  have hceiling : sub? 64 (63 - l.halfMagnitude) =
      some (l.halfMagnitude + 1) := by
    rw [sub?_eq_some (by omega)]
    congr 1
    omega
  have hhalf : 2 ^ (l.halfMagnitude + 1) = 2 * l.half := by
    rw [Nat.pow_succ', l.half_eq]
  have hcount : shiftLeft? 1 (l.halfMagnitude + 1) = some (2 * l.half) := by
    rw [shiftLeft?_eq_some (by omega), Nat.one_mul, hhalf]
    rw [Nat.one_mul]
    exact (Nat.pow_le_pow_right (by omega)
      (by omega : l.halfMagnitude + 1 ≤ 18)).trans_lt (by decide)
  have hrows : rows? l.highest (2 * l.half) 1 =
      some (l.highest.log2 - l.halfMagnitude + 1) := by
    rw [← hhalf, rows?_two_pow (by have := l.two_le_highest; omega)
      l.highest_le]
    congr 1
    omega
  have hsize : fit? ((l.highest.log2 - l.halfMagnitude + 1 + 1) * l.half) =
      some l.size := by
    refine fit?_eq_some ?_
    have hfew : (l.highest.log2 - l.halfMagnitude + 1 + 1) * l.half ≤
        64 * 2 ^ 17 := by
      rw [l.half_eq]
      exact Nat.mul_le_mul (by omega)
        (Nat.pow_le_pow_right (by omega) hmagnitude)
    unfold UInt64.size
    omega
  have hmask : sub? (2 * l.half) 1 = some (2 * l.half - 1) :=
    sub?_eq_some (by have := l.half_pos; omega)
  have hmag : sub? (max (l.halfMagnitude + 1) 1) 1 = some l.halfMagnitude := by
    rw [sub?_eq_some (by omega)]
    congr 1
    omega
  have hdiv : 2 * l.half / 2 = l.half := Nat.mul_div_cancel_left _ (by omega)
  simp only [of?, hhighest, hdigits, hunit, Option.bind_eq_bind,
    Option.bind_some, sub?_eq_some (show 1 ≤ 2 * 10 ^ l.digits by omega),
    hzeros, hceiling, hmag, hcount, hmask, hrows, hdiv, hsize]
  rfl

section Words

variable (l : LogLinearGrid)

/-- The words find the grid's counter for every value. -/
theorem indexOf?_ofGrid (value : Nat) :
    (ofGrid l).indexOf? value = some (l.indexOf value) := by
  have hclamp : max 1 (min value l.highest) = l.clamp value := rfl
  have hpos := l.clamp_pos value
  have hlog := l.log2_highest_le
  have hmagnitude := l.halfMagnitude_le
  have hlevel : l.level (l.clamp value) ≤ l.level l.highest :=
    l.level_mono (l.clamp_le value)
  have hbits := l.log2_or_mask hpos
  have hclampLog : (l.clamp value).log2 ≤ l.highest.log2 := by
    rw [Nat.log2_eq_log_two, Nat.log2_eq_log_two]
    exact Nat.log_mono_right (l.clamp_le value)
  have hor : 0 < l.clamp value ||| (2 * l.half - 1) :=
    hpos.trans_le Nat.left_le_or
  have hzeros : leadingZeros (l.clamp value ||| (2 * l.half - 1)) =
      63 - max (l.clamp value).log2 l.halfMagnitude := by
    rw [← hbits]
    apply leadingZeros_eq hor
    have hlt : l.clamp value ||| (2 * l.half - 1) < 2 ^ 64 := by
      rw [← Nat.log2_lt hor.ne', hbits]
      omega
    exact hlt
  have hceiling : sub? 64 (63 - max (l.clamp value).log2 l.halfMagnitude) =
      some (max (l.clamp value).log2 l.halfMagnitude + 1) := by
    rw [sub?_eq_some (by omega)]
    congr 1
    omega
  have hwidth : sub? (max (l.clamp value).log2 l.halfMagnitude + 1)
      (l.halfMagnitude + 1) = some (l.level (l.clamp value)) := by
    rw [sub?_eq_some (by omega)]
    congr 1
    unfold LogLinearGrid.level
    omega
  have hsmall : l.level (l.clamp value) < 64 := by
    unfold LogLinearGrid.level
    omega
  have hlead : shiftRight? (l.clamp value) (l.level (l.clamp value)) =
      some (l.lead (l.clamp value)) := shiftRight?_eq_some hsmall
  have hhalf : l.half ≤ 2 ^ 17 := by
    rw [l.half_eq]
    exact Nat.pow_le_pow_right (by omega) hmagnitude
  have hrows : (l.level (l.clamp value) + 1) * l.half ≤ 64 * 2 ^ 17 :=
    Nat.mul_le_mul (by omega) hhalf
  have hrow : shiftLeft? (l.level (l.clamp value) + 1) l.halfMagnitude =
      some ((l.level (l.clamp value) + 1) * l.half) := by
    rw [shiftLeft?_eq_some (by omega), l.half_eq]
    rw [← l.half_eq]
    unfold UInt64.size
    omega
  have hlt := l.lead_lt (l.clamp value)
  have hsum : fit? ((l.level (l.clamp value) + 1) * l.half +
      l.lead (l.clamp value)) = some ((l.level (l.clamp value) + 1) * l.half +
        l.lead (l.clamp value)) := by
    apply fit?_eq_some
    unfold UInt64.size
    omega
  have hlast : sub? ((l.level (l.clamp value) + 1) * l.half +
      l.lead (l.clamp value)) l.half = some (l.indexOf value) := by
    have hsplit : (l.level (l.clamp value) + 1) * l.half =
        l.level (l.clamp value) * l.half + l.half := Nat.succ_mul _ _
    rw [sub?_eq_some (by omega), l.indexOf_eq]
    congr 1
    omega
  simp only [indexOf?, ofGrid, hclamp, hzeros, Option.bind_eq_bind,
    Option.bind_some, hceiling, hwidth, hlead, hrow, hsum, hlast]

/-- The words compute the least value of every counter, and of the one after
the last. -/
theorem valueAt?_ofGrid {index : Nat} (hle : index ≤ l.size) :
    (ofGrid l).valueAt? index = some (l.valueAt index) := by
  have hvalue := l.valueAt_le hle
  have hmagnitude := l.halfMagnitude_le
  have hpos := l.half_pos
  have hquot : shiftRight? index l.halfMagnitude = some (index / l.half) := by
    rw [shiftRight?_eq_some (by omega), l.half_eq]
  have hrem : index &&& (l.half - 1) = index % l.half := by
    rw [l.half_eq]
    exact Nat.and_two_pow_sub_one_eq_mod index _
  have hcolumn := Nat.mod_lt index hpos
  have hhalf : l.half ≤ 2 ^ 17 := by
    rw [l.half_eq]
    exact Nat.pow_le_pow_right (by omega) hmagnitude
  have hfit : fit? (index % l.half + l.half) =
      some (index % l.half + l.half) := by
    apply fit?_eq_some
    unfold UInt64.size
    omega
  have hrow : index / l.half - 1 < 64 := by
    have hrows : index / l.half ≤ l.highest.log2 - l.halfMagnitude + 2 := by
      have hdiv := Nat.div_le_div_right (c := l.half) hle
      rwa [show l.size = (l.highest.log2 - l.halfMagnitude + 2) * l.half
        from rfl, Nat.mul_div_cancel _ hpos] at hdiv
    have hlog := l.log2_highest_le
    omega
  simp only [valueAt?, ofGrid, hquot, hrem, hfit, Option.bind_eq_bind,
    Option.bind_some]
  unfold LogLinearGrid.valueAt at hvalue ⊢
  by_cases hzero : index / l.half = 0
  · simp only [hzero, ↓reduceIte, sub?_eq_some (Nat.le_add_left _ _),
      Nat.add_sub_cancel, Option.bind_some]
    rw [shiftLeft?_eq_some (by omega), Nat.pow_zero, Nat.mul_one]
    rw [Nat.pow_zero, Nat.mul_one]
    unfold UInt64.size
    omega
  · simp only [hzero, ↓reduceIte] at hvalue ⊢
    rw [Nat.shiftLeft_eq] at hvalue ⊢
    refine shiftLeft?_eq_some hrow (hvalue.trans_lt (by decide))

end Words

end GridWords

/-! ### The counters of a layout -/

/-- The counters of every layout and the values they stand for fit together.
In words as in numbers, every value has a counter in the range, which starts
at or below the value and ends past it; larger values have no smaller
counters, every counter of trackable values is found again by its least value,
and no counter is wide against the precision. -/
theorem layout_index_and_value_agree (highest value : UInt64)
    (digits : UInt8) :
    let l := LogLinearGrid.of highest.toNat digits.toNat
    let c := l.clamp value.toNat
    let i := l.indexOf value.toNat
    (∃ words, GridWords.of? highest.toNat digits.toNat = some words ∧
      words.size = l.size ∧ words.indexOf? value.toNat = some i ∧
      ∀ j ≤ l.size, words.valueAt? j = some (l.valueAt j)) ∧
    i < l.size ∧ l.valueAt i ≤ c ∧ c < l.valueAt (i + 1) ∧
    (∀ other : UInt64, value ≤ other → i ≤ l.indexOf other.toNat) ∧
    (∀ j, 1 ≤ l.valueAt j → l.valueAt j ≤ l.highest →
      l.indexOf (l.valueAt j) = j) ∧
    (l.valueAt (i + 1) - 1 - l.valueAt i) * 10 ^ l.digits < c := by
  intro l c i
  refine ⟨⟨GridWords.ofGrid l, GridWords.of?_eq _ _, rfl,
    GridWords.indexOf?_ofGrid l _,
    fun j hj => GridWords.valueAt?_ofGrid l hj⟩,
    l.indexOf_lt_size _, l.valueAt_indexOf_le _, l.lt_valueAt_indexOf_succ _,
    ?_, ?_, l.width_mul_lt _⟩
  · intro other hle
    exact l.indexOf_mono hle
  · intro j hpos hle
    exact l.indexOf_valueAt hpos hle

/-- With one digit up to a million, the value 100 has the counter 57, which
holds the values from 100 to 103. -/
theorem layout_of_one_digit_at_hundred :
    let l := LogLinearGrid.of 1000000 1
    l.indexOf 100 = 57 ∧ l.valueAt 57 = 100 ∧ l.valueAt 58 = 104 ∧
      57 < l.size ∧ l.indexOf 100 ≤ l.indexOf 5000 ∧
      l.indexOf (l.valueAt 57) = 57 ∧
      (l.valueAt (l.indexOf 100 + 1) - 1 - l.valueAt (l.indexOf 100)) * 10 ^ 1 <
        100 := by
  intro l
  have hindex : l.indexOf 100 = 57 := by decide +kernel
  have hvalue : l.valueAt 57 = 100 := by decide +kernel
  have hnext : l.valueAt 58 = 104 := by decide +kernel
  obtain ⟨-, hsize, -, -, hmono, hback, hwidth⟩ :=
    layout_index_and_value_agree 1000000 100 1
  refine ⟨hindex, hvalue, hnext, ?_, hmono 5000 (by decide),
    hback 57 (hvalue.ge.trans' (by decide)) (hvalue.le.trans (by decide)),
    hwidth⟩
  rw [← hindex]
  exact hsize

end WindowedMetrics
