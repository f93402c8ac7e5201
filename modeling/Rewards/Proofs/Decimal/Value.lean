import Mathlib.Algebra.Order.Field.Rat
import Mathlib.Tactic.FieldSimp
import Mathlib.Tactic.Positivity
import Rewards.Decimal.Addition

/-!
# The value of an amount

An amount stands for a rational number, and the comparisons of amounts are those of these numbers,
whatever the scales are. A sum may be rounded to fit 96 bits. `add_nonneg` says that rounding does
not matter to the sign: a sum whose exact value is not negative is not negative.
-/

namespace Rewards.Decimal

/-- The rational number that an amount stands for. -/
def value (d : Decimal) : ℚ := d.coefficient / 10 ^ d.scale

@[simp] theorem value_zero : zero.value = 0 := by
  simp [value, zero]

@[simp] theorem value_neg (d : Decimal) : d.neg.value = -d.value := by
  simp [value, neg, neg_div]

@[simp] theorem value_abs (d : Decimal) : d.abs.value = |d.value| := by
  have hunit : (0 : ℚ) < 10 ^ d.scale := by positivity
  simp [value, Decimal.abs, abs_div, abs_of_pos hunit]

/-- The coefficient at a larger scale is the value in units of that scale. -/
theorem coefficient_at_eq (d : Decimal) {scale : Nat} (hscale : d.scale ≤ scale) :
    (d.coefficientAt scale : ℚ) = d.value * 10 ^ scale := by
  obtain ⟨extra, rfl⟩ := Nat.exists_eq_add_of_le hscale
  have hunit : (10 : ℚ) ^ d.scale ≠ 0 := by positivity
  simp only [coefficientAt, value, Nat.add_sub_cancel_left, Nat.pow_eq, Nat.cast_pow,
    Nat.cast_ofNat, Int.cast_mul, Int.cast_pow, Int.cast_ofNat, pow_add]
  field_simp

/-- The coefficient of an exact sum is its value in units of the scale. -/
theorem coefficient_sum_eq (a b : Decimal) {scale : Nat} (ha : a.scale ≤ scale)
    (hb : b.scale ≤ scale) :
    ((a.coefficientAt scale + b.coefficientAt scale : Int) : ℚ) =
      (a.value + b.value) * 10 ^ scale := by
  rw [Int.cast_add, coefficient_at_eq a ha, coefficient_at_eq b hb, add_mul]

/-- Amounts are compared by their values. -/
theorem le_iff_value (a b : Decimal) : a.le b = true ↔ a.value ≤ b.value := by
  have hunit : (0 : ℚ) < 10 ^ max a.scale b.scale := by positivity
  rw [← mul_le_mul_iff_left₀ hunit, ← coefficient_at_eq a (le_max_left _ _),
    ← coefficient_at_eq b (le_max_right _ _)]
  simp [le]

/-- The strict order of amounts is that of their values. -/
theorem lt_iff_value (a b : Decimal) : a.lt b = true ↔ a.value < b.value := by
  rw [lt, Bool.not_eq_true', ← Bool.not_eq_true, le_iff_value, not_le]

/-- An amount is negative if its value is. -/
theorem is_negative_iff (d : Decimal) : d.isNegative = true ↔ d.value < 0 := by
  have hunit : (0 : ℚ) < 10 ^ d.scale := by positivity
  rw [value, div_neg_iff]
  simp [isNegative, hunit, not_lt_of_gt hunit]

/-- An amount is not negative if its value is not. -/
theorem nonneg_iff {d : Decimal} : d.isNegative = false ↔ 0 ≤ d.value := by
  rw [← Bool.not_eq_true, is_negative_iff, not_lt]

/-- An amount is positive if its value is. -/
theorem is_positive_iff (d : Decimal) : d.isPositive = true ↔ 0 < d.value := by
  have hunit : (0 : ℚ) < 10 ^ d.scale := by positivity
  rw [value, div_pos_iff_of_pos_right hunit]
  simp [isPositive]

/-- No amount is both negative and positive. -/
theorem is_negative_eq_false_of_is_positive {d : Decimal} (h : d.isPositive = true) :
    d.isNegative = false := by
  simp only [isPositive, isNegative, decide_eq_true_eq, decide_eq_false_iff_not] at *
  omega

/-! ## The sign of a sum -/

/-- The decimal with a coefficient that is not negative has no negative value. -/
theorem of_nonneg {coefficient : Int} {scale : Nat} {d : Decimal}
    (h : of? coefficient scale = some d) (hcoefficient : 0 ≤ coefficient) : 0 ≤ d.value := by
  unfold of? at h
  split at h
  · cases h
    exact div_nonneg (Int.cast_nonneg hcoefficient) (by positivity)
  · cases h

/-- Rounding keeps a sum from becoming negative. -/
theorem round_nonneg {coefficient : Int} {scale : Nat} {d : Decimal}
    (h : round? coefficient scale = some d) (hcoefficient : 0 ≤ coefficient) : 0 ≤ d.value := by
  unfold round? at h
  split at h
  · cases h
  · rw [if_neg (not_lt_of_ge hcoefficient)] at h
    exact of_nonneg h (Int.natCast_nonneg _)

/-- A sum is not negative if its exact value is not, although the sum may be rounded. -/
theorem add_nonneg {a b sum : Decimal} (h : a.add? b = some sum)
    (hexact : 0 ≤ a.value + b.value) : 0 ≤ sum.value := by
  unfold add? at h
  split at h
  · rename_i ha
    cases h
    simpa [value, ha] using hexact
  split at h
  · rename_i hb
    cases h
    simpa [value, hb] using hexact
  · refine round_nonneg h ?_
    have hunit : (0 : ℚ) < 10 ^ max a.scale b.scale := by positivity
    rw [← Int.cast_nonneg_iff (R := ℚ),
      coefficient_sum_eq a b (le_max_left _ _) (le_max_right _ _)]
    exact mul_nonneg hexact hunit.le

end Rewards.Decimal
