import Rewards.Decimal.Binary
import Rewards.Proofs.Binary64.Rounding

/-!
# The binary number of an amount

An amount in hundredths is made into a binary number in several steps that are all rounded: the
fraction, its sum with the whole part, and the product that brings the sum to hundredths. Below
`10 ^ 15` hundredths the errors together are less than a half, and the product is rounded to a whole
number. So the result is the number nearest to the amount, `binary_magnitude_eq`.
-/

namespace Rewards.Decimal

open Binary64 (InRange rounded round_near in_range_of_bounds holds_of_nat power_of_ten_holds)

/-- A scaled number has a scaled error. -/
theorem scaled_error {x y unit : ℚ} (hunit : 0 < unit) (h : |x - y| ≤ y / 2 ^ 53) :
    |x * unit - y * unit| ≤ y * unit / 2 ^ 53 := by
  rw [← sub_mul, abs_mul, abs_of_pos hunit, mul_div_right_comm]
  exact mul_le_mul_of_nonneg_right h hunit.le

/-- The errors of a fraction, a sum and a product are less than a half. The numbers are in units of
the last decimal digit. -/
theorem steps_error {whole rest fraction sum product : ℚ} (hwhole : 0 ≤ whole)
    (hsize : whole + rest < 10 ^ 15) (hfraction : |fraction - rest| ≤ rest / 2 ^ 53)
    (hsum : |sum - (whole + fraction)| ≤ (whole + fraction) / 2 ^ 53)
    (hproduct : |product - sum| ≤ sum / 2 ^ 53) : |product - (whole + rest)| < 1 / 2 := by
  obtain ⟨hfractionLow, hfractionHigh⟩ := abs_le.mp hfraction
  obtain ⟨hsumLow, hsumHigh⟩ := abs_le.mp hsum
  obtain ⟨hproductLow, hproductHigh⟩ := abs_le.mp hproduct
  rw [abs_lt]
  constructor <;> linarith

/-- The binary number of an amount in tenths or hundredths is the nearest one. -/
theorem binary_magnitude_eq {magnitude scale : Nat} (hsize : magnitude < 10 ^ 15)
    (hscale : scale ≤ 2) (hfraction : magnitude % Nat.pow 10 scale ≠ 0) :
    binaryMagnitude magnitude scale = rounded (magnitude / 10 ^ scale) := by
  have hunit : Nat.pow 10 scale ≤ 10 ^ 2 := Nat.pow_le_pow_right (by decide) hscale
  have hpower : (10 : ℚ) ^ scale = (Nat.pow 10 scale : Nat) := by
    rw [Nat.pow_eq, Nat.cast_pow, Nat.cast_ofNat]
  have hpos : 0 < Nat.pow 10 scale := Nat.pow_pos (by decide)
  have hmod := Nat.mod_lt magnitude hpos
  have hdivision := Nat.div_add_mod' magnitude (Nat.pow 10 scale)
  have hscaleHolds := power_of_ten_holds (n := scale) (by omega)
  rw [hpower] at hscaleHolds ⊢
  unfold binaryMagnitude
  dsimp only
  generalize Nat.pow 10 scale = unit at *
  generalize magnitude / unit = whole at *
  generalize magnitude % unit = rest at *
  subst hdivision
  have hunitPos : (1 : ℚ) ≤ unit := mod_cast hpos
  have hunitHigh : (unit : ℚ) ≤ 10 ^ 2 := mod_cast hunit
  have hrestLow : (1 : ℚ) ≤ rest := mod_cast Nat.pos_of_ne_zero hfraction
  have hrestHigh : (rest : ℚ) ≤ unit := mod_cast hmod.le
  have hwholeLow : (0 : ℚ) ≤ whole := Nat.cast_nonneg whole
  have hsize' : (whole * unit + rest : ℚ) < 10 ^ 15 := mod_cast hsize
  have hwholeSize : whole < 2 ^ 53 := by
    have hle := Nat.le_mul_of_pos_right whole hpos
    omega
  have hwholeHigh : (whole : ℚ) ≤ 2 ^ 53 := mod_cast hwholeSize.le
  have hwhole := holds_of_nat hwholeSize
  have hrest := holds_of_nat (n := rest) (by omega)
  have hunitHolds := holds_of_nat (n := unit) (by omega)
  -- The fraction.
  have hquotientLow : 1 / 10 ^ 2 ≤ (rest / unit : ℚ) := by
    rw [div_le_div_iff₀ (by norm_num) (by linarith)]
    linarith
  have hquotientHigh : (rest / unit : ℚ) ≤ 1 := (div_le_one (by linarith)).mpr hrestHigh
  obtain ⟨fraction, hfractionHolds, hfractionError⟩ :=
    round_near (in_range_of_bounds (q := rest / unit) (by linarith) (by linarith))
  obtain ⟨hfractionLow, hfractionHigh⟩ := abs_le.mp hfractionError
  have hzero : (rounded (rest / unit)).isZero = false := by
    rw [← Bool.not_eq_true, hfractionHolds.is_zero_iff]
    linarith
  rw [hrest.div hunitHolds (by linarith), if_neg (by rw [hzero]; exact Bool.false_ne_true)]
  -- The sum.
  obtain ⟨sum, hsumHolds, hsumError⟩ :=
    round_near (in_range_of_bounds (q := whole + fraction) (by linarith) (by linarith))
  obtain ⟨hsumLow, hsumHigh⟩ := abs_le.mp hsumError
  rw [hwhole.add hfractionHolds]
  -- The product.
  have hproductRange : InRange (sum * unit) := by
    refine in_range_of_bounds ?_ ?_
    · have hle : sum ≤ sum * unit := le_mul_of_one_le_right (by linarith) hunitPos
      linarith
    · have hle : sum * unit ≤ 2 ^ 54 * 10 ^ 2 := by gcongr; linarith
      linarith
  obtain ⟨product, hproductHolds, hproductError⟩ := round_near hproductRange
  rw [hsumHolds.mul hscaleHolds]
  -- The product is rounded to the magnitude.
  have hnear : |product - (whole * unit + rest : Nat)| < 1 / 2 := by
    have hunit : (0 : ℚ) < unit := by linarith
    have hfractionScaled := scaled_error hunit hfractionError
    have hsumScaled := scaled_error hunit hsumError
    rw [div_mul_cancel₀ _ hunit.ne'] at hfractionScaled
    rw [add_mul] at hsumScaled
    push_cast
    exact steps_error (by positivity) hsize' hfractionScaled hsumScaled hproductError
  have hrounded := hproductHolds.round_magnitude (by omega) hnear
  rw [hrounded.div hscaleHolds (by linarith)]

end Rewards.Decimal
