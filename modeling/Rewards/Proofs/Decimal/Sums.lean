import Mathlib.Algebra.Order.AbsoluteValue.Basic
import Mathlib.Tactic.Linarith
import Mathlib.Tactic.Ring
import Rewards.Proofs.Decimal.Value

/-!
# When a sum fits, and how far it is from the exact one

A sum gives up fractional digits until it fits 96 bits. So it has no value exactly if its nearest
whole number has more than 96 bits (`add_eq_none_iff`), it is never further than a half from the
exact sum (`add_error`), and it is the exact sum if this fits at the scale of the terms
(`add_exact`).
-/

namespace Rewards

/-! ## Rounded quotients -/

namespace Rounding

/-- A whole number is not rounded. -/
theorem half_even_one (n : Nat) : halfEven n 1 = n := by
  simp [halfEven, Nat.mod_one]

/-- A rounded quotient is the whole part of the exact one or the next number, whichever is
nearer. -/
theorem half_even_cases (n d : Nat) :
    (halfEven n d = n / d ∧ 2 * (n % d) ≤ d ∧ (2 * (n % d) = d → n / d % 2 = 0)) ∨
    (halfEven n d = n / d + 1 ∧ d ≤ 2 * (n % d) ∧ (2 * (n % d) = d → n / d % 2 = 1)) := by
  unfold halfEven
  simp only [Bool.or_eq_true, decide_eq_true_eq, Bool.and_eq_true, beq_iff_eq]
  split
  · rename_i hup
    exact .inr ⟨rfl, by omega, by omega⟩
  · rename_i hdown
    exact .inl ⟨rfl, by omega, by omega⟩

/-- Rounding changes a quotient by a half at most. -/
theorem half_even_bounds (n : Nat) {d : Nat} (hd : 0 < d) :
    2 * n ≤ 2 * (halfEven n d * d) + d ∧ 2 * (halfEven n d * d) ≤ 2 * n + d := by
  have hdivision := Nat.div_add_mod n d
  rw [Nat.mul_comm] at hdivision
  rcases half_even_cases n d with ⟨heq, hless, _⟩ | ⟨heq, hmore, _⟩
  · rw [heq]
    omega
  · have hmod := Nat.mod_lt n hd
    rw [heq, Nat.add_mul]
    omega

/-- The same bound in rational numbers. -/
theorem half_even_error (n : Nat) {d : Nat} (hd : 0 < d) :
    |(halfEven n d : ℚ) - n / d| ≤ 1 / 2 := by
  obtain ⟨hlower, hupper⟩ := half_even_bounds n hd
  have hlower : (2 * n : ℚ) ≤ 2 * (halfEven n d * d) + d := mod_cast hlower
  have hupper : (2 * (halfEven n d * d) : ℚ) ≤ 2 * n + d := mod_cast hupper
  have hunit : (0 : ℚ) < d := mod_cast hd
  have hquotient : (halfEven n d : ℚ) - n / d = (2 * (halfEven n d * d) - 2 * n) / (2 * d) := by
    field_simp
  rw [hquotient, abs_div, abs_of_pos (by positivity : (0 : ℚ) < 2 * d), div_le_iff₀ (by positivity),
    abs_le]
  constructor <;> linarith

/-- A quotient is rounded to an even number or a larger one exactly if it is not further than a half
below the even number. -/
theorem le_half_even_iff {n d even : Nat} (heven : even % 2 = 0) (hd : 0 < d) :
    even ≤ halfEven n d ↔ 2 * (even * d) ≤ 2 * n + d := by
  obtain ⟨hlower, hupper⟩ := half_even_bounds n hd
  constructor
  · intro hle
    have hscaled := Nat.mul_le_mul_right d hle
    omega
  · intro hnear
    by_contra hless
    -- Only a half just below the even number is left, and that is rounded up.
    have hscaled := Nat.mul_le_mul_right d (Nat.succ_le_of_lt (Nat.lt_of_not_le hless))
    rw [Nat.succ_mul] at hscaled
    have hdivision := Nat.div_add_mod n d
    rw [Nat.mul_comm] at hdivision
    have hexact : even * d = halfEven n d * d + d := by omega
    have heq : even = halfEven n d + 1 := by
      rw [← Nat.succ_mul] at hexact
      exact Nat.eq_of_mul_eq_mul_right hd hexact
    rcases half_even_cases n d with ⟨hdown, hmod, htie⟩ | ⟨hup, hmod, htie⟩
    · rw [hdown] at hexact heq
      have hparity := htie (by omega)
      omega
    · rw [hup] at hexact
      have hlt := Nat.mod_lt n hd
      rw [Nat.add_mul] at hexact
      omega

end Rounding

namespace Decimal

/-! ## Giving up digits -/

/-- The magnitude of a sum that has no digits to give up. -/
theorem fit_magnitude_of_lt {n scale : Nat} (h : n < 2 ^ 96) :
    fitMagnitude n scale 0 = some (n, scale) := by
  unfold fitMagnitude
  have hone : Nat.pow 10 0 = 1 := rfl
  have hbound : (1 <<< 96 : Nat) = 2 ^ 96 := rfl
  simp only [Nat.not_lt_zero, if_false, hone, Rounding.half_even_one, hbound, if_pos h,
    Nat.sub_zero]

/-- A magnitude is given back rounded, with the digits that are left. -/
theorem fit_magnitude_eq_some {n scale dropped magnitude left : Nat}
    (h : fitMagnitude n scale dropped = some (magnitude, left)) :
    magnitude < 2 ^ 96 ∧ left ≤ scale ∧ magnitude = Rounding.halfEven n (10 ^ (scale - left)) := by
  fun_induction fitMagnitude n scale dropped with
  | case1 => cases h
  | case2 dropped hdropped q hfits =>
      obtain ⟨rfl, rfl⟩ := Prod.mk.inj (Option.some.inj h)
      refine ⟨hfits, Nat.sub_le .., ?_⟩
      rw [Nat.sub_sub_self (Nat.le_of_not_lt hdropped)]
      rfl
  | case3 dropped hdropped q hlong ih => exact ih h

/-- A magnitude has no value exactly if it is too long even without a fraction. -/
theorem fit_magnitude_eq_none_iff {n scale dropped : Nat} (hdropped : dropped ≤ scale) :
    fitMagnitude n scale dropped = none ↔ 2 * (2 ^ 96 * 10 ^ scale) ≤ 2 * n + 10 ^ scale := by
  fun_induction fitMagnitude n scale dropped with
  | case1 _ hmore => exact absurd hdropped (Nat.not_le_of_lt hmore)
  | case2 dropped _ q hfits =>
      have hfits : ¬ 2 ^ 96 ≤ Rounding.halfEven n (10 ^ dropped) := Nat.not_le_of_lt hfits
      rw [Rounding.le_half_even_iff (by norm_num) (by positivity), not_le] at hfits
      refine iff_of_false (by simp) (not_le_of_gt ?_)
      -- What is short with some digits is short without them.
      obtain ⟨more, rfl⟩ := Nat.exists_eq_add_of_le hdropped
      have hscaled := Nat.mul_lt_mul_of_pos_right hfits (show 0 < 10 ^ more by positivity)
      have hgrows := Nat.le_mul_of_pos_right (2 * n) (show 0 < 10 ^ more by positivity)
      rw [Nat.add_mul] at hscaled
      rw [Nat.pow_add]
      calc 2 * n + 10 ^ dropped * 10 ^ more
          ≤ 2 * n * 10 ^ more + 10 ^ dropped * 10 ^ more := by omega
        _ < 2 * (2 ^ 96 * 10 ^ dropped) * 10 ^ more := hscaled
        _ = 2 * (2 ^ 96 * (10 ^ dropped * 10 ^ more)) := by ring
  | case3 dropped _ q hlong ih =>
      rcases Nat.lt_or_ge dropped scale with hless | hlast
      · exact ih hless
      · obtain rfl : dropped = scale := Nat.le_antisymm hdropped hlast
        have hlong : 2 ^ 96 ≤ Rounding.halfEven n (10 ^ dropped) := Nat.le_of_not_lt hlong
        rw [Rounding.le_half_even_iff (by norm_num) (by positivity)] at hlong
        refine iff_of_true ?_ hlong
        unfold fitMagnitude
        rw [if_pos (Nat.lt_succ_self _)]

/-! ## Sums with a coefficient and a scale -/

/-- The magnitude of a coefficient as a rational number. -/
theorem cast_nat_abs_eq (coefficient : Int) : (coefficient.natAbs : ℚ) = |(coefficient : ℚ)| := by
  rw [Nat.cast_natAbs, Int.cast_abs]

/-- What a coefficient and a scale make an amount of. -/
theorem of_eq_some {coefficient : Int} {scale : Nat} {d : Decimal}
    (h : of? coefficient scale = some d) : d.coefficient = coefficient ∧ d.scale = scale := by
  unfold of? at h
  split at h
  · cases h
    exact ⟨rfl, rfl⟩
  · cases h

/-- A coefficient and a scale in range make an amount. -/
theorem of_is_some {coefficient : Int} {scale : Nat} (hfits : coefficient.natAbs < 2 ^ 96)
    (hscale : scale ≤ 28) : ∃ d, of? coefficient scale = some d :=
  ⟨_, dif_pos ⟨hfits, hscale⟩⟩

/-- A magnitude with the sign of a coefficient. -/
def signed (coefficient : Int) (magnitude : Nat) : Int :=
  if coefficient < 0 then -magnitude else magnitude

theorem nat_abs_signed (coefficient : Int) (magnitude : Nat) :
    (signed coefficient magnitude).natAbs = magnitude := by
  unfold signed
  split <;> omega

theorem signed_nat_abs (coefficient : Int) :
    signed coefficient coefficient.natAbs = coefficient := by
  unfold signed
  split <;> omega

/-- A coefficient that fits is not rounded. -/
theorem round_of_lt {coefficient : Int} {scale : Nat} (hfits : coefficient.natAbs < 2 ^ 96)
    (hscale : scale ≤ 28) :
    ∃ sum, round? coefficient scale = some sum ∧ sum.value = coefficient / 10 ^ scale ∧
      sum.scale = scale := by
  obtain ⟨sum, hsum⟩ := of_is_some hfits hscale
  obtain ⟨hcoefficient, hleft⟩ := of_eq_some hsum
  refine ⟨sum, ?_, by rw [value, hcoefficient, hleft], hleft⟩
  unfold round?
  rw [fit_magnitude_of_lt hfits]
  show of? (signed coefficient coefficient.natAbs) scale = some sum
  rw [signed_nat_abs, hsum]

/-- A coefficient has no sum exactly if it is too long even without a fraction. -/
theorem round_eq_none_iff {coefficient : Int} {scale : Nat} (hscale : scale ≤ 28) :
    round? coefficient scale = none ↔
      (2 ^ 96 - 1 / 2) * 10 ^ scale ≤ |(coefficient : ℚ)| := by
  have hrational : 2 * (2 ^ 96 * 10 ^ scale) ≤ 2 * coefficient.natAbs + 10 ^ scale ↔
      (2 ^ 96 - 1 / 2) * 10 ^ scale ≤ |(coefficient : ℚ)| := by
    rw [← cast_nat_abs_eq, ← Nat.cast_le (α := ℚ)]
    push_cast
    constructor <;> intro h <;> linarith
  rw [← hrational, ← fit_magnitude_eq_none_iff (Nat.zero_le scale)]
  unfold round?
  cases hfit : fitMagnitude coefficient.natAbs scale 0 with
  | none => simp
  | some fitted =>
      obtain ⟨magnitude, left⟩ := fitted
      obtain ⟨hfits, hleft, _⟩ := fit_magnitude_eq_some hfit
      have hlength : (signed coefficient magnitude).natAbs < 2 ^ 96 := by rwa [nat_abs_signed]
      obtain ⟨sum, hsum⟩ := of_is_some hlength (hleft.trans hscale)
      show of? (signed coefficient magnitude) left = none ↔ _
      rw [hsum]
      simp

/-- Rounding changes a sum by a half at most. -/
theorem round_error {coefficient : Int} {scale : Nat} {sum : Decimal}
    (h : round? coefficient scale = some sum) :
    |sum.value - coefficient / 10 ^ scale| ≤ 1 / 2 := by
  unfold round? at h
  split at h
  · cases h
  rename_i magnitude left hfit
  obtain ⟨_, hleft, hmagnitude⟩ := fit_magnitude_eq_some hfit
  obtain ⟨dropped, rfl⟩ := Nat.exists_eq_add_of_le hleft
  rw [Nat.add_sub_cancel_left] at hmagnitude
  obtain ⟨hcoefficient, hscale⟩ := of_eq_some h
  have herror := Rounding.half_even_error coefficient.natAbs (show 0 < 10 ^ dropped by positivity)
  rw [← hmagnitude, Nat.cast_pow, Nat.cast_ofNat, cast_nat_abs_eq] at herror
  have hunit : (1 : ℚ) ≤ 10 ^ left := one_le_pow₀ (by norm_num)
  have hscaled : sum.value - coefficient / 10 ^ (left + dropped) =
      ((signed coefficient magnitude : ℚ) -
        (signed coefficient coefficient.natAbs : ℚ) / 10 ^ dropped) / 10 ^ left := by
    have hcoefficient : sum.coefficient = signed coefficient magnitude := hcoefficient
    rw [value, hcoefficient, hscale, signed_nat_abs, pow_add]
    field_simp
  have hunsigned : |(signed coefficient magnitude : ℚ) -
      (signed coefficient coefficient.natAbs : ℚ) / 10 ^ dropped| =
        |(magnitude : ℚ) - |(coefficient : ℚ)| / 10 ^ dropped| := by
    unfold signed
    split
    · push_cast
      rw [neg_div, neg_sub_neg, abs_sub_comm]
    · push_cast
      rfl
  rw [hscaled, abs_div, hunsigned, abs_of_pos (by positivity : (0 : ℚ) < 10 ^ left)]
  exact (div_le_self (abs_nonneg _) hunit).trans herror

/-! ## Sums of two amounts -/

variable {a b sum : Decimal}

/-- An amount without a coefficient has no value. -/
theorem value_eq_zero (h : a.coefficient = 0) : a.value = 0 := by
  simp [value, h]

/-- No amount is larger than the largest coefficient. -/
theorem abs_value_le (d : Decimal) : |d.value| ≤ 2 ^ 96 - 1 := by
  have hunit : (1 : ℚ) ≤ 10 ^ d.scale := one_le_pow₀ (by norm_num)
  have hcoefficient : |(d.coefficient : ℚ)| ≤ 2 ^ 96 - 1 := by
    have hfits : d.coefficient.natAbs + 1 ≤ 2 ^ 96 := d.coefficient_lt
    rw [← cast_nat_abs_eq, le_sub_iff_add_le]
    exact mod_cast hfits
  rw [value, abs_div, abs_of_pos (by positivity : (0 : ℚ) < 10 ^ d.scale)]
  exact (div_le_self (abs_nonneg _) hunit).trans hcoefficient

/-- A sum is one of its terms if the other one is zero, and otherwise a rounded coefficient. -/
theorem add_cases (a b : Decimal) :
    (a.value = 0 ∧ a.add? b = some b) ∨ (b.value = 0 ∧ a.add? b = some a) ∨
    ∃ coefficient : Int, (coefficient : ℚ) = (a.value + b.value) * 10 ^ max a.scale b.scale ∧
      a.add? b = round? coefficient (max a.scale b.scale) := by
  unfold add?
  split
  · rename_i ha
    exact .inl ⟨value_eq_zero ha, rfl⟩
  split
  · rename_i hb
    exact .inr (.inl ⟨value_eq_zero hb, rfl⟩)
  · exact .inr (.inr ⟨_, coefficient_sum_eq a b (le_max_left _ _) (le_max_right _ _), rfl⟩)

/-- A sum is exact if it fits at some scale that is not smaller than those of its terms. -/
theorem add_exact {scale : Nat} (ha : a.scale ≤ scale) (hb : b.scale ≤ scale)
    (hfits : |a.value + b.value| * 10 ^ scale < 2 ^ 96) :
    ∃ sum, a.add? b = some sum ∧ sum.value = a.value + b.value ∧ sum.scale ≤ scale := by
  rcases add_cases a b with ⟨hzero, heq⟩ | ⟨hzero, heq⟩ | ⟨coefficient, hcoefficient, heq⟩
  · exact ⟨b, heq, by rw [hzero, zero_add], hb⟩
  · exact ⟨a, heq, by rw [hzero, add_zero], ha⟩
  · have hmax : max a.scale b.scale ≤ scale := max_le ha hb
    have hunit : (10 : ℚ) ^ max a.scale b.scale ≤ 10 ^ scale :=
      pow_le_pow_right₀ (by norm_num) hmax
    have hshort : coefficient.natAbs < 2 ^ 96 := by
      rw [← Nat.cast_lt (α := ℚ), cast_nat_abs_eq, hcoefficient, abs_mul, abs_pow,
        abs_of_pos (by norm_num : (0 : ℚ) < 10)]
      push_cast
      exact (mul_le_mul_of_nonneg_left hunit (abs_nonneg _)).trans_lt hfits
    obtain ⟨sum, hsum, hvalue, hscale⟩ := round_of_lt hshort (max_le a.scale_le b.scale_le)
    refine ⟨sum, heq.trans hsum, ?_, hscale.trans_le hmax⟩
    rw [hvalue, hcoefficient, mul_div_cancel_right₀ _ (by positivity)]

/-- A sum has no value exactly if it is not further than a half below the first whole number that
has more than 96 bits. -/
theorem add_eq_none_iff (a b : Decimal) :
    a.add? b = none ↔ 2 ^ 96 - 1 / 2 ≤ |a.value + b.value| := by
  have hterm (d : Decimal) : ¬ 2 ^ 96 - 1 / 2 ≤ |d.value| := by
    have hbound := d.abs_value_le
    intro hlarge
    linarith
  rcases add_cases a b with ⟨hzero, heq⟩ | ⟨hzero, heq⟩ | ⟨coefficient, hcoefficient, heq⟩
  · rw [heq, hzero, zero_add]
    exact iff_of_false (by simp) (hterm b)
  · rw [heq, hzero, add_zero]
    exact iff_of_false (by simp) (hterm a)
  · rw [heq, round_eq_none_iff (max_le a.scale_le b.scale_le), hcoefficient, abs_mul, abs_pow,
      abs_of_pos (by norm_num : (0 : ℚ) < 10), mul_le_mul_iff_left₀ (by positivity)]

/-- A sum is never further than a half from the exact one. -/
theorem add_error (h : a.add? b = some sum) : |sum.value - (a.value + b.value)| ≤ 1 / 2 := by
  rcases add_cases a b with ⟨hzero, heq⟩ | ⟨hzero, heq⟩ | ⟨coefficient, hcoefficient, heq⟩
  · rw [h] at heq
    cases heq
    simp [hzero]
  · rw [h] at heq
    cases heq
    simp [hzero]
  · have herror := round_error (heq.symm.trans h)
    rwa [hcoefficient, mul_div_cancel_right₀ _ (by positivity)] at herror

end Decimal

end Rewards
