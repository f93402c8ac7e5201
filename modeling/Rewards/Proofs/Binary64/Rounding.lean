import Mathlib.Algebra.Order.Field.Power
import Mathlib.Data.Int.Log
import Mathlib.Data.Rat.Floor
import Mathlib.Tactic.FieldSimp
import Mathlib.Tactic.Linarith
import Mathlib.Tactic.NormNum
import Mathlib.Tactic.Positivity
import Mathlib.Tactic.Ring
import Rewards.Binary64.Basic
import Rewards.Proofs.Decimal.Sums

/-!
# What binary numbers hold

`Holds x q` says that a number is finite and has the magnitude `q`. Every operation is `rounded` of
the exact result: `Holds.add`, `Holds.mul` and `Holds.div`. Rounding keeps a rational number of at
most 53 binary digits, `round_exact`, and changes any other by one part in `2 ^ 53` at most,
`round_near`. Numbers are taken from a range in which none is so small that it has fewer digits.
-/

namespace Rewards

namespace Rounding

/-- All forms of a quotient are rounded to the same number. -/
theorem half_even_congr {a b c d : Nat} (hb : 0 < b) (hd : 0 < d) (h : a * d = c * b) :
    halfEven a b = halfEven c d := by
  have hscale (n m k : Nat) (hk : 0 < k) : halfEven (k * n) (k * m) = halfEven n m := by
    have hless : k * m < 2 * (k * (n % m)) ↔ m < 2 * (n % m) := by
      rw [Nat.mul_left_comm 2 k]
      exact Nat.mul_lt_mul_left hk
    have hhalf : 2 * (k * (n % m)) = k * m ↔ 2 * (n % m) = m := by
      rw [Nat.mul_left_comm 2 k]
      exact Nat.mul_right_inj (Nat.ne_of_gt hk)
    unfold halfEven
    simp only [Nat.mul_div_mul_left _ _ hk, Nat.mul_mod_mul_left, hless, beq_iff_eq, hhalf,
      Bool.or_eq_true, decide_eq_true_eq, Bool.and_eq_true]
  rw [← hscale a b d hd, ← hscale c d b hb, Nat.mul_comm d a, h, Nat.mul_comm c b,
    Nat.mul_comm d b]

/-- A half is rounded to an even number. -/
theorem half_even_tie {n d : Nat} (hd : 0 < d) (h : |(halfEven n d : ℚ) - n / d| = 1 / 2) :
    halfEven n d % 2 = 0 := by
  have hunit : (0 : ℚ) < d := mod_cast hd
  have hdivision : (n : ℚ) / d = (n / d : Nat) + (n % d : Nat) / d := by
    rw [div_eq_iff hunit.ne', add_mul, div_mul_cancel₀ _ hunit.ne']
    exact_mod_cast (Nat.div_add_mod' n d).symm
  have hhalf (hrest : ((n % d : Nat) : ℚ) / d = 1 / 2) : 2 * (n % d) = d := by
    rw [div_eq_div_iff hunit.ne' two_ne_zero, one_mul, mul_comm] at hrest
    exact_mod_cast hrest
  rw [hdivision] at h
  rcases half_even_cases n d with ⟨heq, -, htie⟩ | ⟨heq, -, htie⟩
  · rw [heq] at h ⊢
    rw [sub_add_cancel_left, abs_neg, abs_of_nonneg (by positivity)] at h
    exact htie (hhalf h)
  · have hmod : ((n % d : Nat) : ℚ) / d ≤ 1 := by
      rw [div_le_one hunit]
      exact_mod_cast (Nat.mod_lt n hd).le
    rw [heq] at h ⊢
    rw [Nat.cast_add, Nat.cast_one, add_sub_add_left_eq_sub,
      abs_of_nonneg (sub_nonneg.mpr hmod)] at h
    have hodd := htie (hhalf (by linarith))
    omega

/-- Rounding a half up changes a quotient by a half at most. -/
theorem half_up_error (n : Nat) {d : Nat} (hd : 0 < d) : |(halfUp n d : ℚ) - n / d| ≤ 1 / 2 := by
  have hunit : (0 : ℚ) < d := mod_cast hd
  have hdivision := Nat.div_add_mod (2 * n + d) (2 * d)
  have hmod := Nat.mod_lt (2 * n + d) (Nat.mul_pos two_pos hd)
  have hlow : (2 * n : ℚ) ≤ 2 * d * halfUp n d + d := by
    unfold halfUp
    exact_mod_cast (by omega : 2 * n ≤ 2 * d * ((2 * n + d) / (2 * d)) + d)
  have hhigh : (2 * d * halfUp n d : ℚ) ≤ 2 * n + d := by
    unfold halfUp
    exact_mod_cast (by omega : 2 * d * ((2 * n + d) / (2 * d)) ≤ 2 * n + d)
  have hquotient : (halfUp n d : ℚ) - n / d = (2 * d * halfUp n d - 2 * n) / (2 * d) := by
    field_simp
  rw [hquotient, abs_div, abs_of_pos (by positivity : (0 : ℚ) < 2 * d), div_le_iff₀ (by positivity),
    abs_le]
  constructor <;> linarith

/-- Natural numbers less than one apart are equal. -/
theorem eq_of_near {a b : Nat} (h : |(a : ℚ) - b| < 1) : a = b := by
  obtain ⟨hbelow, habove⟩ := abs_lt.mp h
  have hless : (a : ℚ) < b + 1 := by linarith
  have hmore : (b : ℚ) < a + 1 := by linarith
  exact Nat.le_antisymm (Nat.lt_succ_iff.mp (mod_cast hless)) (Nat.lt_succ_iff.mp (mod_cast hmore))

/-- A quotient that is nearer than a half to a number is rounded to it. -/
theorem half_up_eq {n d k : Nat} (hd : 0 < d) (h : |(n : ℚ) / d - k| < 1 / 2) :
    halfUp n d = k := by
  refine eq_of_near ?_
  calc |(halfUp n d : ℚ) - k| ≤ |(halfUp n d : ℚ) - n / d| + |(n : ℚ) / d - k| := abs_sub_le _ _ _
    _ < 1 / 2 + 1 / 2 := add_lt_add_of_le_of_lt (half_up_error n hd) h
    _ = 1 := by norm_num

end Rounding

namespace Binary64

open Rounding (eq_of_near)

/-! ## Quotients by powers of two -/

/-- The two parts of a quotient by a power of two. -/
theorem ratio_at_value (num : Nat) {den : Nat} (hden : 0 < den) (e : Int) :
    0 < (ratioAt num den e).2 ∧
      ((ratioAt num den e).1 : ℚ) / (ratioAt num den e).2 = num / den / 2 ^ e := by
  unfold ratioAt
  have hpower (k : Nat) : ((Nat.pow 2 k : Nat) : ℚ) = 2 ^ (k : Int) := by
    rw [Nat.pow_eq, Nat.cast_pow, Nat.cast_ofNat, zpow_natCast]
  split
  · rename_i he
    refine ⟨Nat.mul_pos hden (Nat.pow_pos (by decide)), ?_⟩
    rw [Nat.cast_mul, hpower, Int.toNat_of_nonneg he, div_div]
  · rename_i he
    refine ⟨hden, ?_⟩
    rw [Nat.cast_mul, hpower, Int.toNat_of_nonneg (by omega), zpow_neg, div_eq_mul_inv,
      div_eq_mul_inv, div_eq_mul_inv]
    ring

/-- The logarithm of a positive number lies between two powers. -/
theorem log_eq_of_bounds {b : Nat} (hb : 1 < b) {q : ℚ} {k : Int} (hlow : (b : ℚ) ^ k ≤ q)
    (hhigh : q < (b : ℚ) ^ (k + 1)) : Int.log b q = k := by
  have hbase : (1 : ℚ) < b := mod_cast hb
  have hpos : 0 < q := (zpow_pos (by linarith) k).trans_le hlow
  have hfloor := Int.zpow_log_le_self hb hpos
  have hceil := Int.lt_zpow_succ_log_self hb q
  have hle := (zpow_lt_zpow_iff_right₀ hbase).mp (hfloor.trans_lt hhigh)
  have hge := (zpow_lt_zpow_iff_right₀ hbase).mp (hlow.trans_lt hceil)
  omega

/-- The binade of a quotient is its binary logarithm. -/
theorem binade_eq {num den : Nat} (hnum : 0 < num) (hden : 0 < den) :
    binade num den = Int.log 2 ((num : ℚ) / den) := by
  have htwo : (0 : ℚ) < 2 := by norm_num
  have hden' : (0 : ℚ) < den := mod_cast hden
  have hnumLow : (2 : ℚ) ^ (num.log2 : Int) ≤ num :=
    mod_cast Nat.log2_self_le (Nat.ne_of_gt hnum)
  have hnumHigh : (num : ℚ) < 2 ^ ((num.log2 : Int) + 1) := mod_cast Nat.lt_log2_self
  have hdenLow : (2 : ℚ) ^ (den.log2 : Int) ≤ den :=
    mod_cast Nat.log2_self_le (Nat.ne_of_gt hden)
  have hdenHigh : (den : ℚ) < 2 ^ ((den.log2 : Int) + 1) := mod_cast Nat.lt_log2_self
  have hlow : (2 : ℚ) ^ ((num.log2 : Int) - den.log2 - 1) ≤ num / den := by
    rw [le_div_iff₀ hden']
    calc (2 : ℚ) ^ ((num.log2 : Int) - den.log2 - 1) * den
        ≤ 2 ^ ((num.log2 : Int) - den.log2 - 1) * 2 ^ ((den.log2 : Int) + 1) := by gcongr
      _ = 2 ^ (num.log2 : Int) := by rw [← zpow_add₀ htwo.ne']; congr 1; ring
      _ ≤ num := hnumLow
  have hhigh : (num : ℚ) / den < 2 ^ ((num.log2 : Int) - den.log2 + 1) := by
    rw [div_lt_iff₀ hden']
    calc (num : ℚ) < 2 ^ ((num.log2 : Int) + 1) := hnumHigh
      _ = 2 ^ ((num.log2 : Int) - den.log2 + 1) * 2 ^ (den.log2 : Int) := by
          rw [← zpow_add₀ htwo.ne']; congr 1; ring
      _ ≤ 2 ^ ((num.log2 : Int) - den.log2 + 1) * den := by gcongr
  obtain ⟨hunit, hvalue⟩ := ratio_at_value num hden ((num.log2 : Int) - den.log2)
  have hbelow : (ratioAt num den ((num.log2 : Int) - den.log2)).1 <
      (ratioAt num den ((num.log2 : Int) - den.log2)).2 ↔
      (num : ℚ) / den < 2 ^ ((num.log2 : Int) - den.log2) := by
    rw [← div_lt_one (zpow_pos htwo _), ← hvalue, div_lt_one (mod_cast hunit), Nat.cast_lt]
  unfold binade
  symm
  dsimp only
  split
  · rename_i hless
    refine log_eq_of_bounds one_lt_two hlow ?_
    rw [sub_add_cancel]
    exact hbelow.mp hless
  · rename_i hless
    exact log_eq_of_bounds one_lt_two (not_lt.mp (hbelow.not.mp hless)) hhigh

/-! ## Rounding of rational numbers -/

/-- The number nearest to a rational number that is not negative. -/
def rounded (q : ℚ) : Binary64 := nearest false q.num.natAbs q.den

/-- All forms of a quotient have the same nearest number. -/
theorem nearest_congr (negative : Bool) {a b c d : Nat} (hb : 0 < b) (hd : 0 < d)
    (h : (a : ℚ) / b = c / d) : nearest negative a b = nearest negative c d := by
  have hb' : (b : ℚ) ≠ 0 := mod_cast hb.ne'
  have hd' : (d : ℚ) ≠ 0 := mod_cast hd.ne'
  have hzero : a = 0 ↔ c = 0 := by
    have hquotient : (a : ℚ) / b = 0 ↔ (c : ℚ) / d = 0 := by rw [h]
    rwa [div_eq_zero_iff, or_iff_left hb', div_eq_zero_iff, or_iff_left hd', Nat.cast_eq_zero,
      Nat.cast_eq_zero] at hquotient
  unfold nearest
  by_cases ha : a = 0
  · rw [if_pos ha, if_pos (hzero.mp ha)]
  · have hc := hzero.not.mp ha
    have hbinade : binade a b = binade c d := by
      rw [binade_eq (Nat.pos_of_ne_zero ha) hb, binade_eq (Nat.pos_of_ne_zero hc) hd, h]
    rw [if_neg ha, if_neg hc, hbinade]
    obtain ⟨hunit, hvalue⟩ := ratio_at_value a hb (max (binade c d - 52) minExponent)
    obtain ⟨hunit', hvalue'⟩ := ratio_at_value c hd (max (binade c d - 52) minExponent)
    rw [h, ← hvalue', div_eq_div_iff (mod_cast hunit.ne') (mod_cast hunit'.ne')] at hvalue
    dsimp only
    rw [Rounding.half_even_congr hunit hunit' (mod_cast hvalue)]

/-- A rational number that is not negative is the quotient of two natural numbers. -/
theorem nat_abs_num_div_den {q : ℚ} (hq : 0 ≤ q) : (q.num.natAbs : ℚ) / q.den = q := by
  have hnum : (q.num.natAbs : Int) = q.num := Int.natAbs_of_nonneg (Rat.num_nonneg.mpr hq)
  rw [← Int.cast_natCast, hnum, Rat.num_div_den]

/-- The number nearest to a quotient is that of its rational number. -/
theorem nearest_eq_rounded (num : Nat) {den : Nat} (hden : 0 < den) :
    nearest false num den = rounded (num / den) :=
  nearest_congr false hden (Rat.den_pos _) (nat_abs_num_div_den (by positivity)).symm

/-- The rational numbers whose nearest number has all its 53 digits. -/
def InRange (q : ℚ) : Prop := (2 : ℚ) ^ (-1000 : Int) ≤ q ∧ q ≤ (2 : ℚ) ^ (1000 : Int)

theorem InRange.pos {q : ℚ} (h : InRange q) : 0 < q :=
  (zpow_pos two_pos _).trans_le h.1

/-- The magnitudes of amounts are in the range, and so is every number next to one between them. -/
theorem in_range_of_near {p q : ℚ} (hlow : 1 / 10 ^ 28 ≤ p) (hhigh : p ≤ 2 ^ 96)
    (hnear : |q - p| ≤ p / 2) : InRange q := by
  obtain ⟨hbelow, habove⟩ := abs_le.mp hnear
  constructor
  · calc (2 : ℚ) ^ (-1000 : Int) ≤ 2 ^ (-100 : Int) := zpow_le_zpow_right₀ one_le_two (by decide)
      _ ≤ 1 / 10 ^ 28 / 2 := by norm_num
      _ ≤ q := by linarith
  · calc q ≤ 2 ^ 97 := by linarith
      _ = 2 ^ (97 : Int) := by norm_cast
      _ ≤ (2 : ℚ) ^ (1000 : Int) := zpow_le_zpow_right₀ one_le_two (by decide)

/-- All numbers between the magnitudes of amounts are in the range. -/
theorem in_range_of_bounds {q : ℚ} (hlow : 1 / 10 ^ 28 ≤ q) (hhigh : q ≤ 2 ^ 96) : InRange q := by
  refine in_range_of_near hlow hhigh ?_
  rw [sub_self, abs_zero]
  linarith

/-- A number of 53 binary digits is the nearest one to a rational number: it is not further than
half a unit of the last digit, at most so far if it is even, and only a quarter of it from below if
it is a power of two, as smaller numbers have smaller units. -/
structure IsNearest (q : ℚ) (significand : Nat) (exponent : Int) : Prop where
  low : 2 ^ 52 ≤ significand
  high : significand < 2 ^ 53
  exponent_gt : minExponent < exponent
  error : |(significand : ℚ) - q / 2 ^ exponent| ≤ 1 / 2
  tie : |(significand : ℚ) - q / 2 ^ exponent| = 1 / 2 → significand % 2 = 0
  power : significand = 2 ^ 52 → (significand : ℚ) - q / 2 ^ exponent ≤ 1 / 4

/-- The rounded digits are the nearest number. If they are too many, it is the next power of
two. -/
theorem nearest_of_digits {q : ℚ} {m : Nat} {e : Int} (hlow : (2 : ℚ) ^ 52 ≤ q / 2 ^ e)
    (hhigh : q / 2 ^ e < (2 : ℚ) ^ 53) (he : minExponent < e)
    (herror : |(m : ℚ) - q / 2 ^ e| ≤ 1 / 2)
    (htie : |(m : ℚ) - q / 2 ^ e| = 1 / 2 → m % 2 = 0) :
    (m = 2 ^ 53 ∧ IsNearest q (2 ^ 52) (e + 1)) ∨ (m ≠ 2 ^ 53 ∧ IsNearest q m e) := by
  obtain ⟨hbelow, habove⟩ := abs_le.mp herror
  have hmlow : 2 ^ 52 ≤ m := by
    have hless : (2 ^ 52 : ℚ) < m + 1 := by linarith
    exact Nat.lt_succ_iff.mp (mod_cast hless)
  have hmhigh : m ≤ 2 ^ 53 := by
    have hless : (m : ℚ) < 2 ^ 53 + 1 := by linarith
    exact Nat.lt_succ_iff.mp (mod_cast hless)
  by_cases hcarry : m = 2 ^ 53
  · have hm : (m : ℚ) = 2 ^ 53 := mod_cast hcarry
    have hnear : |((2 ^ 52 : Nat) : ℚ) - q / 2 ^ (e + 1)| ≤ 1 / 4 := by
      rw [zpow_add_one₀ two_ne_zero, ← div_div, Nat.cast_pow, Nat.cast_ofNat, abs_le]
      constructor <;> linarith
    refine .inl ⟨hcarry, le_refl _, by decide, by omega, by linarith, fun heven => ?_,
      fun _ => (abs_le.mp hnear).2⟩
    linarith
  · refine .inr ⟨hcarry, hmlow, lt_of_le_of_ne hmhigh hcarry, he, herror, htie, fun hpower => ?_⟩
    have hm : (m : ℚ) = 2 ^ 52 := mod_cast hpower
    linarith

/-- In the range, rounding leads to the nearest number. -/
theorem exists_nearest {q : ℚ} (h : InRange q) :
    ∃ m e, rounded q = .finite false m e ∧ IsNearest q m e := by
  have hpos := h.pos
  have hnum : 0 < q.num.natAbs := Int.natAbs_pos.mpr (Rat.num_pos.mpr hpos).ne'
  have hquotient := nat_abs_num_div_den hpos.le
  have hfloor : (2 : ℚ) ^ Int.log 2 q ≤ q := mod_cast Int.zpow_log_le_self one_lt_two hpos
  have hceil : q < (2 : ℚ) ^ (Int.log 2 q + 1) := mod_cast Int.lt_zpow_succ_log_self one_lt_two q
  have hlow := (zpow_lt_zpow_iff_right₀ one_lt_two).mp (h.1.trans_lt hceil)
  have hhigh := (zpow_le_zpow_iff_right₀ one_lt_two).mp (hfloor.trans h.2)
  have hmin : minExponent = -1074 := rfl
  have hmax : maxExponent = 971 := rfl
  obtain ⟨e, hlog⟩ : ∃ e, Int.log 2 q = e + 52 := ⟨Int.log 2 q - 52, by omega⟩
  have hexponent : max (binade q.num.natAbs q.den - 52) minExponent = e := by
    rw [binade_eq hnum q.den_pos, hquotient, hlog]
    omega
  have hscale : (0 : ℚ) < 2 ^ e := zpow_pos two_pos e
  rw [hlog, zpow_add₀ two_ne_zero, mul_comm] at hfloor
  rw [hlog, add_assoc, zpow_add₀ two_ne_zero, mul_comm] at hceil
  obtain ⟨hunit, hvalue⟩ := ratio_at_value q.num.natAbs q.den_pos e
  rw [hquotient] at hvalue
  have herror := Rounding.half_even_error (ratioAt q.num.natAbs q.den e).1 hunit
  have htie := Rounding.half_even_tie (n := (ratioAt q.num.natAbs q.den e).1) hunit
  rw [hvalue] at herror htie
  unfold rounded nearest
  rw [if_neg hnum.ne', hexponent]
  have hshift : (1 <<< 53 : Nat) = 2 ^ 53 ∧ (1 <<< 52 : Nat) = 2 ^ 52 := by decide
  dsimp only
  rw [hshift.1, hshift.2]
  rcases nearest_of_digits ((le_div_iff₀ hscale).mpr hfloor) ((div_lt_iff₀ hscale).mpr hceil)
    (by omega) herror htie with ⟨hcarry, hnearest⟩ | ⟨hfits, hnearest⟩
  · rw [if_pos hcarry, if_neg (by omega)]
    exact ⟨_, _, rfl, hnearest⟩
  · rw [if_neg hfits, if_neg (by omega)]
    exact ⟨_, _, rfl, hnearest⟩

/-- A distance is counted in units of the last digit. -/
theorem distance_eq (q : ℚ) (m : Nat) (e : Int) :
    |(m : ℚ) * 2 ^ e - q| = |(m : ℚ) - q / 2 ^ e| * 2 ^ e := by
  have hscale : (0 : ℚ) < 2 ^ e := zpow_pos two_pos e
  rw [← abs_of_pos hscale, ← abs_mul, abs_of_pos hscale, sub_mul, div_mul_cancel₀ _ hscale.ne']

namespace IsNearest

variable {q : ℚ} {m : Nat} {e : Int} (h : IsNearest q m e)
include h

/-- The distance is one part in `2 ^ 53` of the number at most. -/
theorem relative_error : |(m : ℚ) * 2 ^ e - q| ≤ q / 2 ^ 53 := by
  have hscale : (0 : ℚ) < 2 ^ e := zpow_pos two_pos e
  have hunits : |(m : ℚ) - q / 2 ^ e| ≤ q / 2 ^ e / 2 ^ 53 := by
    obtain ⟨hbelow, habove⟩ := abs_le.mp h.error
    have hlow : (2 : ℚ) ^ 52 ≤ m := mod_cast h.low
    by_cases hpower : m = 2 ^ 52
    · have hm : (m : ℚ) = 2 ^ 52 := mod_cast hpower
      have hnear := h.power hpower
      rw [abs_le, le_div_iff₀ (by positivity)]
      constructor <;> linarith
    · have hm : (2 ^ 52 + 1 : ℚ) ≤ m := by
        exact_mod_cast Nat.succ_le_of_lt (lt_of_le_of_ne h.low (Ne.symm hpower))
      refine h.error.trans ?_
      rw [le_div_iff₀ (by positivity)]
      linarith
  rw [distance_eq]
  calc |(m : ℚ) - q / 2 ^ e| * 2 ^ e ≤ q / 2 ^ e / 2 ^ 53 * 2 ^ e := by gcongr
    _ = q / 2 ^ 53 := by rw [div_right_comm, div_mul_cancel₀ _ hscale.ne']

/-- A number of 53 binary digits is its own nearest one. -/
theorem exact {k : Nat} {j : Int} (hk : k < 2 ^ 53) (hq : q = k * 2 ^ j) :
    (m : ℚ) * 2 ^ e = q := by
  have hscale : (0 : ℚ) < 2 ^ e := zpow_pos two_pos e
  obtain ⟨hbelow, habove⟩ := abs_le.mp h.error
  have hunits : q / 2 ^ e = k * 2 ^ (j - e) := by
    rw [hq, zpow_sub₀ two_ne_zero, mul_div_assoc]
  have hfine : e ≤ j := by
    by_contra hless
    -- With a coarser last digit the number would have less than 53 digits.
    have hhalf : (2 : ℚ) ^ (j - e) ≤ 2 ^ (-1 : Int) :=
      zpow_le_zpow_right₀ one_le_two (by omega)
    have hk : (k : ℚ) ≤ 2 ^ 53 - 1 := by
      rw [le_sub_iff_add_le]
      exact_mod_cast hk
    have hsmall : q / 2 ^ e ≤ (2 ^ 53 - 1) / 2 := by
      rw [hunits]
      norm_num at hhalf
      nlinarith
    have hlow : (2 : ℚ) ^ 52 ≤ m := mod_cast h.low
    have hpower : (m : ℚ) = 2 ^ 52 := by linarith
    have hnear := h.power (mod_cast hpower)
    linarith
  obtain ⟨i, rfl⟩ := Int.le.dest hfine
  have hwhole : q / 2 ^ e = (k * 2 ^ i : Nat) := by
    rw [hunits, add_sub_cancel_left, zpow_natCast]
    push_cast
    rfl
  have herror := h.error
  rw [hwhole] at herror
  rw [← div_mul_cancel₀ q hscale.ne', hwhole, eq_of_near (herror.trans_lt (by norm_num))]

end IsNearest

/-! ## Numbers and their magnitudes -/

/-- The number is finite and has this magnitude. -/
def Holds (x : Binary64) (q : ℚ) : Prop :=
  ∃ negative m e, x = .finite negative m e ∧ (m : ℚ) * 2 ^ e = q

/-- Rounding changes a number by one part in `2 ^ 53` at most. -/
theorem round_near {q : ℚ} (h : InRange q) : ∃ p, (rounded q).Holds p ∧ |p - q| ≤ q / 2 ^ 53 := by
  obtain ⟨m, e, heq, hnearest⟩ := exists_nearest h
  exact ⟨m * 2 ^ e, ⟨false, m, e, heq, rfl⟩, hnearest.relative_error⟩

/-- The error of a product of two rounded numbers. -/
theorem product_near {x y p q : ℚ} (hp : 0 ≤ p) (hq : 0 ≤ q) (hx : |x - p| ≤ p / 2 ^ 53)
    (hy : |y - q| ≤ q / 2 ^ 53) : |x * y - p * q| ≤ 3 * (p * q) / 2 ^ 53 := by
  calc |x * y - p * q| = |(x - p) * (y - q) + ((x - p) * q + p * (y - q))| := by
        congr 1
        ring
    _ ≤ |(x - p) * (y - q)| + (|(x - p) * q| + |p * (y - q)|) :=
        (abs_add_le _ _).trans (add_le_add_right (abs_add_le _ _) _)
    _ = |x - p| * |y - q| + (|x - p| * q + p * |y - q|) := by
        rw [abs_mul, abs_mul, abs_mul, abs_of_nonneg hp, abs_of_nonneg hq]
    _ ≤ p / 2 ^ 53 * (q / 2 ^ 53) + (p / 2 ^ 53 * q + p * (q / 2 ^ 53)) := by gcongr
    _ = (2 + 1 / 2 ^ 53) * (p * q) / 2 ^ 53 := by ring
    _ ≤ 3 * (p * q) / 2 ^ 53 := by gcongr; norm_num

/-- The error of a quotient of two rounded numbers. -/
theorem quotient_near {x y p q : ℚ} (hp : 0 ≤ p) (hq : 0 < q) (hx : |x - p| ≤ p / 2 ^ 53)
    (hy : |y - q| ≤ q / 2 ^ 53) : |x / y - p / q| ≤ 3 * (p / q) / 2 ^ 53 := by
  have hfrom : 2 / 3 * q ≤ y := by linarith [(abs_le.mp hy).1]
  have hpos : 0 < y := by linarith
  have hdifference : |x * q - p * y| ≤ 2 * (p * q) / 2 ^ 53 := by
    calc |x * q - p * y| = |(x - p) * q - p * (y - q)| := by
          congr 1
          ring
      _ ≤ |(x - p) * q| + |p * (y - q)| := abs_sub _ _
      _ = |x - p| * q + p * |y - q| := by rw [abs_mul, abs_mul, abs_of_nonneg hp, abs_of_pos hq]
      _ ≤ p / 2 ^ 53 * q + p * (q / 2 ^ 53) := by gcongr
      _ = 2 * (p * q) / 2 ^ 53 := by ring
  calc |x / y - p / q| = |x * q - p * y| / (y * q) := by
        rw [div_sub_div _ _ hpos.ne' hq.ne', abs_div, abs_of_pos (mul_pos hpos hq), mul_comm y p]
    _ ≤ 2 * (p * q) / 2 ^ 53 / (2 / 3 * q * q) := by gcongr
    _ = 3 * (p / q) / 2 ^ 53 := by field_simp

/-- Nothing is rounded to nothing. -/
theorem round_zero : rounded 0 = .finite false 0 minExponent := rfl

/-- Rounding keeps numbers of 53 binary digits. -/
theorem round_exact {k : Nat} {j : Int} (hk : k < 2 ^ 53) (hlow : -1000 ≤ j) (hhigh : j ≤ 900) :
    (rounded (k * 2 ^ j)).Holds (k * 2 ^ j) := by
  rcases Nat.eq_zero_or_pos k with rfl | hpos
  · rw [Nat.cast_zero, zero_mul]
    exact ⟨false, 0, minExponent, round_zero, by rw [Nat.cast_zero, zero_mul]⟩
  · have hfrom : (1 : ℚ) ≤ k := mod_cast hpos
    have hto : (k : ℚ) ≤ 2 ^ (53 : Int) := mod_cast hk.le
    have hrange : InRange (k * 2 ^ j) := by
      constructor
      · calc (2 : ℚ) ^ (-1000 : Int) ≤ 2 ^ j := zpow_le_zpow_right₀ one_le_two hlow
          _ ≤ k * 2 ^ j := le_mul_of_one_le_left (by positivity) hfrom
      · calc (k : ℚ) * 2 ^ j ≤ 2 ^ (53 : Int) * 2 ^ j := by gcongr
          _ = 2 ^ (53 + j) := (zpow_add₀ two_ne_zero _ _).symm
          _ ≤ 2 ^ (1000 : Int) := zpow_le_zpow_right₀ one_le_two (by omega)
    obtain ⟨m, e, heq, hnearest⟩ := exists_nearest hrange
    exact ⟨false, m, e, heq, hnearest.exact hk rfl⟩

/-- The number nearest to a natural number. -/
theorem of_nat_eq_rounded (n : Nat) : ofNat n = rounded n := by
  rw [ofNat, nearest_eq_rounded n one_pos, Nat.cast_one, div_one]

/-- Natural numbers of 53 binary digits are kept. -/
theorem holds_of_nat {n : Nat} (h : n < 2 ^ 53) : (ofNat n).Holds n := by
  have hexact := round_exact (j := 0) h (by decide) (by decide)
  rwa [zpow_zero, mul_one, ← of_nat_eq_rounded] at hexact

/-- The number nearest to a dyadic fraction. -/
theorem of_dyadic_eq_rounded (m : Nat) (e : Int) : ofDyadic m e = rounded (m * 2 ^ e) := by
  obtain ⟨hunit, hvalue⟩ := ratio_at_value m one_pos (-e)
  have hsign : decide ((m : Int) < 0) = false := by simp
  unfold ofDyadic
  rw [Int.natAbs_natCast, hsign]
  dsimp only
  rw [nearest_eq_rounded _ hunit, hvalue, Nat.cast_one, div_one, zpow_neg, div_inv_eq_mul]

namespace Holds

variable {x y : Binary64} {p q : ℚ}

/-- A number is zero if its magnitude is. -/
theorem is_zero_iff (hx : x.Holds p) : x.isZero = true ↔ p = 0 := by
  obtain ⟨_, m, e, rfl, rfl⟩ := hx
  have hscale : (2 : ℚ) ^ e ≠ 0 := zpow_ne_zero e two_ne_zero
  rw [isZero, beq_iff_eq, mul_eq_zero, or_iff_left hscale, Nat.cast_eq_zero]

/-- A sum is the number nearest to the exact one. -/
theorem add (hx : x.Holds p) (hy : y.Holds q) : addMagnitudes x y = rounded (p + q) := by
  obtain ⟨_, m, e, rfl, rfl⟩ := hx
  obtain ⟨_, n, f, rfl, rfl⟩ := hy
  have hshift (k : Nat) {i : Int} (hi : min e f ≤ i) :
      ((k * Nat.pow 2 (i - min e f).toNat : Nat) : ℚ) * 2 ^ min e f = k * 2 ^ i := by
    rw [Nat.cast_mul, Nat.pow_eq, Nat.cast_pow, Nat.cast_ofNat, ← zpow_natCast,
      Int.toNat_of_nonneg (by omega), mul_assoc, ← zpow_add₀ two_ne_zero, sub_add_cancel]
  unfold addMagnitudes
  dsimp only
  rw [of_dyadic_eq_rounded, Nat.cast_add, add_mul, hshift m (min_le_left e f),
    hshift n (min_le_right e f)]

/-- A product is the number nearest to the exact one. -/
theorem mul (hx : x.Holds p) (hy : y.Holds q) : mulMagnitudes x y = rounded (p * q) := by
  obtain ⟨_, m, e, rfl, rfl⟩ := hx
  obtain ⟨_, n, f, rfl, rfl⟩ := hy
  unfold mulMagnitudes
  dsimp only
  rw [of_dyadic_eq_rounded, Nat.cast_mul, zpow_add₀ two_ne_zero, mul_mul_mul_comm]

/-- A quotient is the number nearest to the exact one. -/
theorem div (hx : x.Holds p) (hy : y.Holds q) (hq : q ≠ 0) :
    divMagnitudes x y = rounded (p / q) := by
  obtain ⟨_, m, e, rfl, rfl⟩ := hx
  obtain ⟨_, n, f, rfl, rfl⟩ := hy
  have hn : 0 < n := Nat.pos_of_ne_zero fun hzero => hq (by rw [hzero, Nat.cast_zero, zero_mul])
  obtain ⟨hunit, hvalue⟩ := ratio_at_value m hn (f - e)
  unfold divMagnitudes
  dsimp only
  rw [nearest_eq_rounded _ hunit, hvalue, zpow_sub₀ two_ne_zero, div_div_div_eq]

/-- A number that is nearer than a half to a natural number is rounded to it. -/
theorem round_magnitude {n : Nat} (hx : x.Holds p) (hn : n < 2 ^ 53) (hnear : |p - n| < 1 / 2) :
    (roundMagnitude x).Holds n := by
  obtain ⟨_, m, e, rfl, rfl⟩ := hx
  unfold roundMagnitude
  dsimp only
  split
  · rename_i he
    obtain ⟨i, rfl⟩ := Int.eq_ofNat_of_zero_le he
    have hwhole : (m : ℚ) * 2 ^ (i : Int) = (m * 2 ^ i : Nat) := by
      rw [zpow_natCast]
      push_cast
      rfl
    rw [hwhole] at hnear
    rw [← eq_of_near (hnear.trans (by norm_num)), ← hwhole]
    exact ⟨false, m, i, rfl, rfl⟩
  · rename_i he
    obtain ⟨i, rfl⟩ : ∃ i : Nat, e = -i := ⟨(-e).toNat, by omega⟩
    rw [zpow_neg, zpow_natCast, ← div_eq_mul_inv] at hnear
    have heq : Rounding.halfUp m (Nat.pow 2 i) = n := by
      refine Rounding.half_up_eq (Nat.pow_pos (by decide)) ?_
      rwa [Nat.pow_eq, Nat.cast_pow, Nat.cast_ofNat]
    rw [neg_neg, Int.toNat_natCast, heq]
    exact holds_of_nat hn

end Holds

/-! ## Powers of ten -/

/-- The powers of ten that are kept. -/
theorem round_power_of_ten {k : Nat} (hk : k ≤ 22) : (rounded (10 ^ k)).Holds (10 ^ k) := by
  have hfive : 5 ^ k < 2 ^ 53 := (Nat.pow_le_pow_right (by decide) hk).trans_lt (by decide)
  have hvalue : (10 : ℚ) ^ k = ((5 ^ k : Nat) : ℚ) * 2 ^ (k : Int) := by
    rw [zpow_natCast, Nat.cast_pow, ← mul_pow]
    norm_num
  rw [hvalue]
  exact round_exact hfive (by omega) (by omega)

/-- Repeated squaring of a power of ten is exact as long as its result is. -/
theorem power_holds {product square : Binary64} {n a b : Nat} (hproduct : product.Holds (10 ^ a))
    (hsquare : square.Holds (10 ^ b)) (hfits : a + b * n ≤ 22) :
    (power product square n).Holds (10 ^ (a + b * n)) := by
  induction n using Nat.strongRecOn generalizing product square a b with
  | ind n ih =>
      have hstep : (if n % 2 = 1 then mulMagnitudes product square else product).Holds
          (10 ^ (a + b * (n % 2))) := by
        split
        · rename_i hodd
          rw [hproduct.mul hsquare, ← pow_add, hodd, Nat.mul_one]
          refine round_power_of_ten (Nat.le_trans ?_ hfits)
          exact Nat.add_le_add_left (Nat.le_mul_of_pos_right b (by omega)) a
        · rename_i heven
          rw [Nat.mod_two_ne_one.mp heven]
          exact hproduct
      unfold power
      dsimp only
      split
      · rename_i hless
        have hrest := Nat.mod_eq_of_lt hless
        rw [hrest] at hstep ⊢
        exact hstep
      · rename_i hmore
        have hhalves : a + b * n = a + b * (n % 2) + (b + b) * (n / 2) := by
          have hdivision := Nat.mod_add_div n 2
          have hmul : b * (n % 2) + (b + b) * (n / 2) = b * (n % 2 + 2 * (n / 2)) := by ring
          rw [Nat.add_assoc, hmul, hdivision]
        have hdouble : b + b ≤ 22 := by
          have hmul := Nat.mul_le_mul_left b (Nat.le_of_not_lt hmore)
          omega
        have hnext : (mulMagnitudes square square).Holds (10 ^ (b + b)) := by
          rw [hsquare.mul hsquare, ← pow_add]
          exact round_power_of_ten hdouble
        rw [hhalves] at hfits ⊢
        exact ih (n / 2) (by omega) hstep hnext hfits

/-- Repeated squaring gives the power of ten up to the 22nd. -/
theorem power_of_ten_holds {n : Nat} (h : n ≤ 22) : (powerOfTen n).Holds (10 ^ n) := by
  have hone : (ofNat 1).Holds (10 ^ 0) := by simpa using holds_of_nat (n := 1) (by decide)
  have hten : (ofNat 10).Holds (10 ^ 1) := by simpa using holds_of_nat (n := 10) (by decide)
  have hpower := power_holds hone hten (n := n) (by omega)
  rwa [Nat.zero_add, Nat.one_mul] at hpower

end Binary64

end Rewards
