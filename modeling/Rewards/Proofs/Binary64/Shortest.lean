import Mathlib.Algebra.Order.Floor.Semifield
import Mathlib.Data.Nat.Cast.Order.Field
import Mathlib.Data.Nat.Factorization.Basic
import Rewards.Binary64.Shortest
import Rewards.Proofs.Binary64.Rounding

/-!
# The shortest text of a decimal fraction

A grid of 17 digits is fine enough to have a point next to every number, so the digits that the
search finds are never further than half a unit of the last binary digit, `shortest_near`. Two
decimal fractions of 15 digits never have the same nearest number. So if a number is the nearest one
to such a fraction, the digits that are found for it are those of the fraction, `shortest_digits`.
-/

namespace Rewards.Binary64

open Rounding (eq_of_near)

/-! ## Decimal digits -/

/-- A number is below the power of ten that has one digit more. -/
theorem lt_pow_length (n : Nat) : n < 10 ^ (Nat.toDigits 10 n).length :=
  (Nat.length_toDigits_le_iff (by decide) Nat.length_toDigits_pos).mp (Nat.le_refl _)

/-- A positive number is not below the power of ten that has as many digits. -/
theorem pow_length_le {n : Nat} (hn : 0 < n) : 10 ^ ((Nat.toDigits 10 n).length - 1) ≤ n := by
  by_contra hless
  rcases Nat.eq_zero_or_pos ((Nat.toDigits 10 n).length - 1) with hone | hmore
  · rw [hone] at hless
    omega
  · have hlength := (Nat.length_toDigits_le_iff (by decide) hmore).mpr (Nat.lt_of_not_le hless)
    omega

/-- A quotient of at least one has as many digits as its whole part. -/
theorem quotient_bounds {a b : Nat} (hb : 0 < b) (hle : b ≤ a) :
    b * 10 ^ ((Nat.toDigits 10 (a / b)).length - 1) ≤ a ∧
      a < b * 10 ^ (Nat.toDigits 10 (a / b)).length := by
  constructor
  · rw [Nat.mul_comm, ← Nat.le_div_iff_mul_le hb]
    exact pow_length_le (Nat.div_pos hle hb)
  · rw [Nat.mul_comm, ← Nat.div_lt_iff_lt_mul hb]
    exact lt_pow_length _

/-- The decade of a quotient is its decimal logarithm. -/
theorem decade_eq {num den : Nat} (hnum : 0 < num) (hden : 0 < den) :
    decade num den = Int.log 10 ((num : ℚ) / den) := by
  have hnum' : (0 : ℚ) < num := mod_cast hnum
  have hden' : (0 : ℚ) < den := mod_cast hden
  have hten : (0 : ℚ) < 10 := by norm_num
  unfold decade
  symm
  split
  · rename_i hle
    obtain ⟨hlow, hhigh⟩ := quotient_bounds hden hle
    have hpos : 0 < (Nat.toDigits 10 (num / den)).length := Nat.length_toDigits_pos
    generalize (Nat.toDigits 10 (num / den)).length = length at hlow hhigh hpos
    have hpred : ((length : Int) - 1) = ((length - 1 : Nat) : Int) := by omega
    refine log_eq_of_bounds (by decide) ?_ ?_
    · rw [hpred, Nat.cast_ofNat, zpow_natCast, le_div_iff₀ hden', mul_comm]
      exact_mod_cast hlow
    · rw [sub_add_cancel, Nat.cast_ofNat, zpow_natCast, div_lt_iff₀ hden', mul_comm]
      exact_mod_cast hhigh
  · rename_i hless
    obtain ⟨hlow, hhigh⟩ := quotient_bounds hnum (Nat.le_of_not_le hless)
    have hpos : 0 < (Nat.toDigits 10 (den / num)).length := Nat.length_toDigits_pos
    dsimp only
    obtain ⟨places, hlength⟩ := Nat.exists_eq_succ_of_ne_zero hpos.ne'
    rw [hlength, Nat.succ_sub_one] at hlow ⊢
    rw [hlength] at hhigh
    have hlow' : (num : ℚ) * 10 ^ places ≤ den := mod_cast hlow
    have hhigh' : (den : ℚ) < num * 10 ^ (places + 1) := mod_cast hhigh
    have hpower (k : Nat) : (0 : ℚ) < 10 ^ k := pow_pos hten k
    split
    · rename_i hexact
      have hexact : (den : ℚ) ≤ num * 10 ^ places := by
        rw [Nat.pow_eq] at hexact
        exact_mod_cast hexact
      refine log_eq_of_bounds (by decide) ?_ ?_
      · rw [Nat.cast_ofNat, zpow_neg, zpow_natCast, inv_eq_one_div,
          div_le_div_iff₀ (hpower _) hden', one_mul]
        exact hexact
      · rw [Nat.cast_ofNat, zpow_add₀ hten.ne', zpow_neg, zpow_natCast, zpow_one,
          inv_mul_eq_div, div_lt_div_iff₀ hden' (hpower _)]
        linarith
    · rename_i hbelow
      have hbelow : (num : ℚ) * 10 ^ places < den := by
        rw [Nat.pow_eq] at hbelow
        exact_mod_cast Nat.lt_of_not_le hbelow
      refine log_eq_of_bounds (by decide) ?_ ?_
      · rw [Nat.cast_ofNat, zpow_neg, ← Nat.cast_succ, zpow_natCast, inv_eq_one_div,
          div_le_div_iff₀ (hpower _) hden', one_mul]
        exact hhigh'.le
      · rw [Nat.cast_ofNat, neg_add, neg_add_cancel_right, zpow_neg, zpow_natCast, inv_eq_one_div,
          div_lt_div_iff₀ hden' (hpower _), one_mul]
        exact hbelow

/-! ## Rounding intervals -/

/-- A power with a sign in its exponent, by powers without. -/
theorem pow_to_nat {b : Nat} (hb : 0 < b) (e : Int) :
    ((Nat.pow b e.toNat : Nat) : ℚ) = (Nat.pow b (-e).toNat : Nat) * (b : ℚ) ^ e := by
  have hb' : (b : ℚ) ≠ 0 := mod_cast hb.ne'
  simp only [Nat.pow_eq, Nat.cast_pow, ← zpow_natCast, ← zpow_add₀ hb']
  congr 1
  omega

/-- A number at a power of ten is compared with a quarter at a power of two. -/
theorem scaled_le_iff (a n : Nat) (e exponent : Int) :
    (a * Nat.pow 2 e.toNat * Nat.pow 10 (-exponent).toNat ≤
      n * (4 * Nat.pow 2 (-e).toNat * Nat.pow 10 exponent.toNat) ↔
        (a : ℚ) / 4 ≤ n * 10 ^ exponent / 2 ^ e) ∧
    (n * (4 * Nat.pow 2 (-e).toNat * Nat.pow 10 exponent.toNat) ≤
      a * Nat.pow 2 e.toNat * Nat.pow 10 (-exponent).toNat ↔
        n * 10 ^ exponent / 2 ^ e ≤ (a : ℚ) / 4) := by
  have hscale : (0 : ℚ) < 2 ^ e := zpow_pos two_pos e
  have htwo : (0 : ℚ) < (Nat.pow 2 (-e).toNat : Nat) := mod_cast Nat.pow_pos (by decide)
  have hten : (0 : ℚ) < (Nat.pow 10 (-exponent).toNat : Nat) := mod_cast Nat.pow_pos (by decide)
  obtain ⟨unit, hunit⟩ : ∃ unit : ℚ,
      unit = 4 * (Nat.pow 2 (-e).toNat : Nat) * (Nat.pow 10 (-exponent).toNat : Nat) * 2 ^ e :=
    ⟨_, rfl⟩
  have hpos : 0 < unit := by rw [hunit]; positivity
  have hleft : ((a * Nat.pow 2 e.toNat * Nat.pow 10 (-exponent).toNat : Nat) : ℚ) =
      a / 4 * unit := by
    rw [hunit, Nat.cast_mul, Nat.cast_mul, pow_to_nat (by decide) e]
    push_cast
    ring
  have hright : ((n * (4 * Nat.pow 2 (-e).toNat * Nat.pow 10 exponent.toNat) : Nat) : ℚ) =
      n * 10 ^ exponent / 2 ^ e * unit := by
    rw [hunit, Nat.cast_mul, Nat.cast_mul, Nat.cast_mul, pow_to_nat (by decide) exponent]
    push_cast
    field_simp
  rw [← Nat.cast_le (α := ℚ), ← Nat.cast_le (α := ℚ), hleft, hright, mul_le_mul_iff_left₀ hpos,
    mul_le_mul_iff_left₀ hpos]
  exact ⟨Iff.rfl, Iff.rfl⟩

variable {m n : Nat} {e exponent : Int}

/-- Numbers of the interval are not further than half a unit of the last digit from its value. -/
theorem near_of_contains (hm : 2 ^ 52 ≤ m)
    (h : ((roundingInterval m e).scale exponent).contains n = true) :
    |(m : ℚ) - n * 10 ^ exponent / 2 ^ e| ≤ 1 / 2 := by
  have hbounds : ((roundingInterval m e).scale exponent).low ≤
      n * ((roundingInterval m e).scale exponent).denominator ∧
      n * ((roundingInterval m e).scale exponent).denominator ≤
        ((roundingInterval m e).scale exponent).high := by
    unfold Interval.contains at h
    dsimp only at h
    split at h
    · rwa [Bool.and_eq_true, decide_eq_true_eq, decide_eq_true_eq] at h
    · rw [Bool.and_eq_true, decide_eq_true_eq, decide_eq_true_eq] at h
      exact ⟨h.1.le, h.2.le⟩
  unfold roundingInterval Interval.scale at hbounds
  obtain ⟨hlow, hhigh⟩ := hbounds
  rw [(scaled_le_iff _ n e exponent).1, Nat.cast_sub (by split <;> omega)] at hlow
  rw [(scaled_le_iff _ n e exponent).2] at hhigh
  push_cast at hlow hhigh
  rw [abs_le]
  split at hlow <;> constructor <;> linarith

/-- A number whose nearest number is the value belongs to the interval. -/
theorem contains_of_nearest (h : IsNearest (n * 10 ^ exponent) m e) :
    ((roundingInterval m e).scale exponent).contains n = true := by
  obtain ⟨hbelow, habove⟩ := abs_le.mp h.error
  have hshift : (1 <<< 52 : Nat) = 2 ^ 52 := by decide
  have hm := h.low
  have hpower : m = 2 ^ 52 ∧ minExponent < e ↔ m = 2 ^ 52 := and_iff_left h.exponent_gt
  have hside : (if m = 2 ^ 52 then 1 else 2) ≤ 4 * m := by split <;> omega
  unfold roundingInterval Interval.scale Interval.contains
  simp only [hshift, hpower]
  split
  · rw [Bool.and_eq_true, decide_eq_true_eq, decide_eq_true_eq, (scaled_le_iff _ n e exponent).1,
      (scaled_le_iff _ n e exponent).2, Nat.cast_sub hside]
    push_cast
    refine ⟨?_, by linarith⟩
    split
    · rename_i htwo
      linarith [h.power htwo]
    · linarith
  · rename_i hodd
    have hne : |(m : ℚ) - n * 10 ^ exponent / 2 ^ e| ≠ 1 / 2 := fun htie =>
      hodd (decide_eq_true (h.tie htie))
    obtain ⟨hbelow, habove⟩ := abs_lt.mp (lt_of_le_of_ne h.error hne)
    have hplain : m ≠ 2 ^ 52 := fun htwo => hodd (decide_eq_true (by omega))
    rw [if_neg hplain, Bool.and_eq_true, decide_eq_true_eq, decide_eq_true_eq, ← Nat.not_le,
      ← Nat.not_le, (scaled_le_iff _ n e exponent).1, (scaled_le_iff _ n e exponent).2,
      Nat.cast_sub (by omega), not_le, not_le]
    push_cast
    constructor <;> linarith

/-! ## The search -/

/-- The number that is found belongs to the interval. -/
theorem contains_of_found {i : Interval} (h : i.nearestWhole? = some n) : i.contains n = true := by
  unfold Interval.nearestWhole? at h
  dsimp only at h
  split at h
  · split at h <;> cases h <;> assumption
  · cases h
    assumption
  · cases h
    assumption
  · cases h

/-- The number that is found is not above the value by more than one. -/
theorem found_le {i : Interval} (h : i.nearestWhole? = some n) :
    n ≤ i.value / i.denominator + 1 := by
  unfold Interval.nearestWhole? at h
  dsimp only at h
  split at h
  · split at h <;> cases h <;> omega
  · cases h
    omega
  · cases h
    omega
  · cases h

/-- One of the two numbers around the value is found if it belongs to the interval. -/
theorem found_of_floor {i : Interval} (h : i.contains (i.value / i.denominator) = true ∨
    i.contains (i.value / i.denominator + 1) = true) : i.nearestWhole? ≠ none := by
  unfold Interval.nearestWhole?
  dsimp only
  split
  · split <;> exact Option.some_ne_none _
  · exact Option.some_ne_none _
  · exact Option.some_ne_none _
  · rename_i hbelow habove
    rw [hbelow, habove] at h
    exact absurd h (by decide)

/-- A number of the interval that is next to its value is reason enough to find one. -/
theorem found_of_contains {i : Interval} (hcontains : i.contains n = true)
    (hbelow : i.value < (n + 1) * i.denominator)
    (habove : ∀ k, n = k + 1 → k * i.denominator < i.value) : i.nearestWhole? ≠ none := by
  have hpos : 0 < i.denominator := by
    by_contra hzero
    rw [Nat.eq_zero_of_not_pos hzero] at hbelow
    omega
  have hless := (Nat.div_lt_iff_lt_mul hpos).mpr hbelow
  have hmore : n < i.value / i.denominator + 2 := by
    by_contra hfar
    have hfar := Nat.le_of_not_lt hfar
    obtain ⟨k, rfl⟩ := Nat.exists_eq_succ_of_ne_zero (Nat.ne_zero_of_lt hfar)
    have hceil := (Nat.div_lt_iff_lt_mul hpos).mp (Nat.lt_succ_self (i.value / i.denominator))
    have hscaled := Nat.mul_le_mul_right i.denominator (Nat.le_of_succ_le_succ hfar)
    exact Nat.lt_irrefl _ ((hceil.trans_le hscaled).trans (habove k rfl))
  have hnext : n = i.value / i.denominator ∨ n = i.value / i.denominator + 1 := by omega
  rcases hnext with rfl | rfl
  · exact found_of_floor (.inl hcontains)
  · exact found_of_floor (.inr hcontains)

/-- The value that is searched for. -/
theorem interval_value (m : Nat) (e : Int) :
    ((roundingInterval m e).value : ℚ) / (roundingInterval m e).denominator = m * 2 ^ e := by
  have hunit : ((Nat.pow 2 (-e).toNat : Nat) : ℚ) ≠ 0 := mod_cast (Nat.pow_pos two_pos).ne'
  unfold roundingInterval
  dsimp only
  rw [Nat.cast_mul, Nat.cast_mul 4, pow_to_nat two_pos e]
  push_cast at hunit ⊢
  field_simp

/-- A unit of the last binary digit is finer than a grid of 15 decimal digits. -/
theorem unit_lt_grid {top : Int} (hm : 2 ^ 52 ≤ m) (hhigh : (m : ℚ) * 2 ^ e < 10 ^ (top + 1)) :
    (2 : ℚ) ^ e < 10 ^ (top - 14) := by
  have hscale : (0 : ℚ) < 2 ^ e := zpow_pos two_pos e
  have hsplit : (10 : ℚ) ^ (top + 1) = 10 ^ (top - 14) * 10 ^ 15 := by
    rw [← zpow_natCast, ← zpow_add₀ (by norm_num)]
    congr 1
    push_cast
    ring
  have hm : (2 : ℚ) ^ 52 ≤ m := mod_cast hm
  have hdigits := mul_le_mul_of_nonneg_right hm hscale.le
  rw [hsplit] at hhigh
  linarith

/-- The search on finer and finer grids finds a decimal fraction of 15 digits by its nearest
number. -/
theorem search_digits {top : Int} (hhigh : (m : ℚ) * 2 ^ e < 10 ^ (top + 1))
    (h : IsNearest (n * 10 ^ (top - 14)) m e) {count fuel : Nat} (hcount : count ≤ 15)
    (hfuel : 15 < count + fuel) :
    ∃ w exponent, searchDigits (roundingInterval m e) top count fuel =
      ⟨Nat.toDigits 10 w, exponent⟩ ∧ (w : ℚ) * 10 ^ exponent = n * 10 ^ (top - 14) := by
  have hratio : (1 : ℚ) < 10 ^ (top - 14) / 2 ^ e :=
    (one_lt_div (zpow_pos two_pos e)).mpr (unit_lt_grid h.low hhigh)
  have herror := h.error
  rw [mul_div_assoc] at herror
  induction fuel generalizing count with
  | zero => omega
  | succ fuel ih =>
      unfold searchDigits
      dsimp only
      cases hfound : ((roundingInterval m e).scale (top - count + 1)).nearestWhole? with
      | some w =>
          -- Both fractions are on the grid, and less than a step of it apart.
          refine ⟨w, top - count + 1, rfl, ?_⟩
          obtain ⟨i, hi⟩ : ∃ i : Nat, top - count + 1 = top - 14 + i := ⟨15 - count, by omega⟩
          have hw : (w : ℚ) * 10 ^ (top - count + 1) = (w * 10 ^ i : Nat) * 10 ^ (top - 14) := by
            rw [hi, zpow_add₀ (by norm_num), zpow_natCast]
            push_cast
            ring
          have hnear := near_of_contains h.low (contains_of_found hfound)
          rw [hw, mul_div_assoc] at hnear
          have happart : |((w * 10 ^ i : Nat) : ℚ) - n| < 1 := by
            rw [abs_le] at herror hnear
            rw [abs_lt]
            constructor <;> nlinarith
          rw [hw, eq_of_near happart]
      | none =>
          rcases Nat.eq_or_lt_of_le hcount with rfl | hless
          · -- The finest grid has the fraction itself.
            have hgrid : top - (15 : Nat) + 1 = top - 14 := by omega
            rw [hgrid] at hfound
            obtain ⟨hbelow, habove⟩ := abs_le.mp herror
            refine absurd hfound (found_of_contains (contains_of_nearest h) ?_ fun k hk => ?_)
            · refine Nat.lt_of_not_le ((scaled_le_iff _ (n + 1) e _).2.not.mpr ?_)
              rw [mul_div_assoc]
              push_cast
              nlinarith
            · refine Nat.lt_of_not_le ((scaled_le_iff _ k e _).1.not.mpr ?_)
              rw [hk] at hbelow habove
              rw [mul_div_assoc]
              push_cast at hbelow habove ⊢
              nlinarith
          · exact ih hless (by omega)

/-- The last of 15 decimal digits is not below the finest grid that is searched. -/
theorem grid_le_of_nearest {s : Nat} {k top : Int} (hs : s < 10 ^ 15)
    (hlow : (10 : ℚ) ^ top ≤ m * 2 ^ e) (h : IsNearest (s * 10 ^ k) m e) : top - 14 ≤ k := by
  by_contra hbelow
  -- Otherwise the fraction has less digits than its nearest number, and this is too far away.
  have hstep : (0 : ℚ) < 10 ^ (top - 15) := zpow_pos (by norm_num) _
  have htop : (10 : ℚ) ^ top = 10 ^ (15 : Nat) * 10 ^ (top - 15) := by
    rw [← zpow_natCast, ← zpow_add₀ (by norm_num)]
    congr 1
    push_cast
    ring
  have hpower : (10 : ℚ) ^ k ≤ 10 ^ (top - 15) :=
    zpow_le_zpow_right₀ (by norm_num) (by omega)
  have hdigits : (s : ℚ) ≤ 10 ^ 15 - 1 := by
    rw [le_sub_iff_add_le]
    exact_mod_cast hs
  have hvalue : (s : ℚ) * 10 ^ k ≤ (10 ^ 15 - 1) * 10 ^ (top - 15) :=
    mul_le_mul hdigits hpower (zpow_pos (by norm_num) _).le (by norm_num)
  have herror := (abs_le.mp h.relative_error).2
  rw [htop] at hlow
  linarith

/-- The search begins at the power of ten below the number. -/
theorem shortest_eq_search (hm : 0 < m) :
    ∃ top, shortestDigits m e = searchDigits (roundingInterval m e) top 1 17 ∧
      (10 : ℚ) ^ top ≤ m * 2 ^ e ∧ (m : ℚ) * 2 ^ e < 10 ^ (top + 1) := by
  have hpos : (0 : ℚ) < m * 2 ^ e := mul_pos (mod_cast hm) (zpow_pos two_pos e)
  have hnum : 0 < (roundingInterval m e).value :=
    Nat.mul_pos (Nat.mul_pos (by decide) hm) (Nat.pow_pos two_pos)
  have hden : 0 < (roundingInterval m e).denominator :=
    Nat.mul_pos (by decide) (Nat.pow_pos two_pos)
  refine ⟨Int.log 10 ((m : ℚ) * 2 ^ e), ?_, mod_cast Int.zpow_log_le_self (by decide) hpos,
    mod_cast Int.lt_zpow_succ_log_self (by decide) _⟩
  unfold shortestDigits
  dsimp only
  rw [decade_eq hnum hden, interval_value]

/-- The digits that are found for the nearest number of a decimal fraction of 15 digits are those of
the fraction. -/
theorem shortest_digits {s : Nat} {k : Int} (hs : s < 10 ^ 15) (h : IsNearest (s * 10 ^ k) m e) :
    ∃ w exponent, shortestDigits m e = ⟨Nat.toDigits 10 w, exponent⟩ ∧
      (w : ℚ) * 10 ^ exponent = s * 10 ^ k := by
  obtain ⟨top, hsearch, hlow, hhigh⟩ :=
    shortest_eq_search (e := e) ((Nat.two_pow_pos 52).trans_le h.low)
  obtain ⟨i, hi⟩ := Int.le.dest (grid_le_of_nearest hs hlow h)
  have hgrid : (s : ℚ) * 10 ^ k = (s * 10 ^ i : Nat) * 10 ^ (top - 14) := by
    rw [← hi, zpow_add₀ (by norm_num), zpow_natCast]
    push_cast
    ring
  rw [hsearch]
  rw [hgrid] at h ⊢
  exact search_digits hhigh h (by decide) (by decide)

/-- The value that is searched for, in units of a grid. -/
theorem scaled_value (m : Nat) (e exponent : Int) :
    (((roundingInterval m e).scale exponent).value : ℚ) /
      ((roundingInterval m e).scale exponent).denominator = m * 2 ^ e / 10 ^ exponent := by
  have hunit : ((Nat.pow 10 (-exponent).toNat : Nat) : ℚ) ≠ 0 :=
    mod_cast (Nat.pow_pos (by decide : 0 < 10)).ne'
  unfold Interval.scale
  dsimp only
  rw [← interval_value, Nat.cast_mul, Nat.cast_mul (roundingInterval m e).denominator,
    pow_to_nat (by decide : 0 < 10) exponent]
  push_cast at hunit ⊢
  field_simp

/-- A grid of 17 digits has a point in the interval. -/
theorem found_of_grid {q : ℚ} {top : Int} (h : IsNearest q m e)
    (hlow : (10 : ℚ) ^ top ≤ m * 2 ^ e) :
    ((roundingInterval m e).scale (top - 16)).nearestWhole? ≠ none := by
  have hscale : (0 : ℚ) < 2 ^ e := zpow_pos two_pos e
  have hgrid : (0 : ℚ) < 10 ^ (top - 16) := zpow_pos (by norm_num) _
  have hm : (m : ℚ) ≤ 2 ^ 53 - 1 := by
    rw [le_sub_iff_add_le]
    exact_mod_cast h.high
  -- The step of the grid, in units of the last binary digit.
  obtain ⟨step, hstep⟩ : ∃ step : ℚ, step = 10 ^ (top - 16) / 2 ^ e := ⟨_, rfl⟩
  have hstepPos : 0 < step := hstep ▸ div_pos hgrid hscale
  have hfine : 10 ^ 16 * step ≤ m := by
    have hsum : ((16 : Nat) : Int) + (top - 16) = top := by omega
    rwa [hstep, ← mul_div_assoc, div_le_iff₀ hscale, ← zpow_natCast, ← zpow_add₀ (by norm_num),
      hsum]
  have hcontains (n : Nat) (herror : |(m : ℚ) - n * step| < 1 / 2)
      (hpower : m = 2 ^ 52 → (m : ℚ) - n * step ≤ 1 / 4) :
      ((roundingInterval m e).scale (top - 16)).contains n = true := by
    rw [hstep, ← mul_div_assoc] at herror hpower
    exact contains_of_nearest ⟨h.low, h.high, h.exponent_gt, herror.le,
      fun htie => absurd htie herror.ne, hpower⟩
  obtain ⟨n, hn⟩ : ∃ n, n = ((roundingInterval m e).scale (top - 16)).value /
    ((roundingInterval m e).scale (top - 16)).denominator := ⟨_, rfl⟩
  have hvalue : ((roundingInterval m e).scale (top - 16)).value /
      (((roundingInterval m e).scale (top - 16)).denominator : ℚ) * step = m := by
    rw [scaled_value, hstep]
    field_simp
  have hfloor : (n : ℚ) * step ≤ m := by
    rw [← hvalue, hn]
    exact mul_le_mul_of_nonneg_right Nat.cast_div_le hstepPos.le
  have hceil : (m : ℚ) < (n + 1) * step := by
    rw [← hvalue, hn, ← Nat.floor_div_eq_div (K := ℚ)]
    exact mul_lt_mul_of_pos_right (Nat.lt_floor_add_one _) hstepPos
  apply found_of_floor
  rw [← hn]
  by_cases hpower : m = 2 ^ 52
  · right
    have hm : (m : ℚ) = 2 ^ 52 := mod_cast hpower
    refine hcontains _ ?_ fun _ => ?_
    · rw [abs_lt]
      push_cast
      constructor <;> linarith
    · push_cast
      linarith
  · by_cases hnear : (m : ℚ) - n * step < 1 / 2
    · refine .inl (hcontains _ ?_ fun htwo => absurd htwo hpower)
      rw [abs_lt]
      constructor <;> linarith
    · refine .inr (hcontains _ ?_ fun htwo => absurd htwo hpower)
      rw [abs_lt]
      push_cast
      constructor <;> linarith

/-- The search finds a decimal fraction of 17 digits, or the power of ten after them, that is not
further than half a unit of the last binary digit. -/
theorem search_near {q : ℚ} {top : Int} (h : IsNearest q m e) (hlow : (10 : ℚ) ^ top ≤ m * 2 ^ e)
    (hhigh : (m : ℚ) * 2 ^ e < 10 ^ (top + 1)) {count fuel : Nat} (hcount : count ≤ 17)
    (hfuel : 17 < count + fuel) :
    ∃ w exponent, searchDigits (roundingInterval m e) top count fuel =
      ⟨Nat.toDigits 10 w, exponent⟩ ∧ |(m : ℚ) - w * 10 ^ exponent / 2 ^ e| ≤ 1 / 2 ∧
        w ≤ 10 ^ 17 := by
  induction fuel generalizing count with
  | zero => omega
  | succ fuel ih =>
      unfold searchDigits
      dsimp only
      cases hfound : ((roundingInterval m e).scale (top - count + 1)).nearestWhole? with
      | some w =>
          refine ⟨w, top - count + 1, rfl, near_of_contains h.low (contains_of_found hfound), ?_⟩
          have hvalue := scaled_value m e (top - count + 1)
          have hless : (m : ℚ) * 2 ^ e / 10 ^ (top - count + 1) < 10 ^ count := by
            have hsum : (count : Int) + (top - count + 1) = top + 1 := by omega
            rwa [div_lt_iff₀ (zpow_pos (by norm_num) _), ← zpow_natCast, ← zpow_add₀ (by norm_num),
              hsum]
          have hfloor : ((roundingInterval m e).scale (top - count + 1)).value /
              ((roundingInterval m e).scale (top - count + 1)).denominator < 10 ^ count := by
            rw [← hvalue] at hless
            exact_mod_cast Nat.cast_div_le.trans_lt hless
          have hpower : 10 ^ count ≤ 10 ^ 17 := Nat.pow_le_pow_right (by decide) hcount
          exact (found_le hfound).trans (by omega)
      | none =>
          rcases Nat.eq_or_lt_of_le hcount with rfl | hless
          · have hgrid : top - (17 : Nat) + 1 = top - 16 := by omega
            rw [hgrid] at hfound
            exact absurd hfound (found_of_grid h hlow)
          · exact ih hless (by omega)

/-- The digits that are found for a number are those of a decimal fraction next to it. -/
theorem shortest_near {q : ℚ} (h : IsNearest q m e) :
    ∃ w exponent, shortestDigits m e = ⟨Nat.toDigits 10 w, exponent⟩ ∧
      |(m : ℚ) - w * 10 ^ exponent / 2 ^ e| ≤ 1 / 2 ∧ w ≤ 10 ^ 17 := by
  obtain ⟨top, hsearch, hlow, hhigh⟩ :=
    shortest_eq_search (e := e) ((Nat.two_pow_pos 52).trans_le h.low)
  rw [hsearch]
  exact search_near h hlow hhigh (by decide) (by decide)

/-! ## Zeros at the end -/

/-- A number that ends in zeros, in digits. -/
theorem digits_mul_pow {s : Nat} (hs : 0 < s) (i : Nat) :
    Nat.toDigits 10 (s * 10 ^ i) = Nat.toDigits 10 s ++ List.replicate i '0' := by
  induction i with
  | zero => rw [Nat.pow_zero, Nat.mul_one, List.replicate_zero, List.append_nil]
  | succ i ih =>
      have hlast := Nat.toDigits_append_toDigits (b := 10) (d := 0) (by decide)
        (Nat.mul_pos hs (Nat.pow_pos (n := i) (by decide : 0 < 10))) (by decide)
      rw [List.replicate_succ', ← List.append_assoc, ← ih, Nat.pow_succ, ← Nat.mul_assoc,
        Nat.mul_comm _ 10]
      exact hlast.symm

/-- The last digit is a zero exactly of the multiples of ten. -/
theorem last_digit {s : Nat} (hs : s % 10 ≠ 0) :
    ∃ front c, Nat.toDigits 10 s = front ++ [c] ∧ c ≠ '0' := by
  have hdigit : ∀ d < 10, d ≠ 0 → Nat.digitChar d ≠ '0' := by decide
  have hlast := hdigit (s % 10) (Nat.mod_lt s (by decide)) hs
  rcases Nat.lt_or_ge s 10 with hless | hmore
  · rw [Nat.mod_eq_of_lt hless] at hlast
    exact ⟨[], _, Nat.toDigits_of_lt_base hless, hlast⟩
  · exact ⟨_, _, Nat.toDigits_of_base_le (by decide) hmore, hlast⟩

/-- The zeros at the end are dropped. -/
theorem trimmed_digits {s : Nat} (hs : s % 10 ≠ 0) (i : Nat) (exponent : Int) :
    (⟨Nat.toDigits 10 (s * 10 ^ i), exponent⟩ : Digits).trimmed =
      ⟨Nat.toDigits 10 s, exponent + i⟩ := by
  have hpos : 0 < s := Nat.pos_of_ne_zero fun hzero => hs (by rw [hzero])
  obtain ⟨front, c, hdigits, hc⟩ := last_digit hs
  have hkept : ((Nat.toDigits 10 (s * 10 ^ i)).reverse.dropWhile (· = '0')).reverse =
      Nat.toDigits 10 s := by
    rw [digits_mul_pow hpos, hdigits, List.reverse_append, List.reverse_replicate,
      List.dropWhile_append_of_pos (by simp), List.reverse_append, List.reverse_singleton,
      List.singleton_append, List.dropWhile_cons_of_neg (by simpa using hc)]
    simp
  unfold Digits.trimmed
  dsimp only
  rw [hkept, digits_mul_pow hpos, List.length_append, List.length_replicate]
  congr 1
  omega

/-- Digits without a zero at the end are the first of all digits of the same value. -/
theorem digits_of_eq {w s : Nat} {j k : Int} (hlast : s % 10 ≠ 0)
    (h : (w : ℚ) * 10 ^ j = s * 10 ^ k) : ∃ i : Nat, w = s * 10 ^ i ∧ k = j + i := by
  have hten : (10 : ℚ) ≠ 0 := by norm_num
  rcases le_or_gt j k with hle | hgt
  · obtain ⟨i, rfl⟩ := Int.le.dest hle
    rw [zpow_add₀ hten, zpow_natCast, mul_left_comm, mul_comm] at h
    have hsame := mul_left_cancel₀ (zpow_ne_zero j hten) h
    exact ⟨i, mod_cast hsame, rfl⟩
  · obtain ⟨i, rfl⟩ : ∃ i : Nat, j = k + (i + 1 : Nat) := ⟨(j - k - 1).toNat, by omega⟩
    rw [zpow_add₀ hten, zpow_natCast, mul_left_comm, mul_comm (s : ℚ)] at h
    have hsame := mul_left_cancel₀ (zpow_ne_zero k hten) h
    have hs : w * 10 ^ (i + 1) = s := mod_cast hsame
    rw [← hs, Nat.pow_succ, ← Nat.mul_assoc] at hlast
    exact absurd (Nat.mul_mod_left _ 10) hlast

/-- The digits of the nearest number of a decimal fraction of 15 digits, the last of them no zero,
are those of the fraction. -/
theorem shortest_trimmed {s : Nat} {k : Int} (hs : s < 10 ^ 15) (hlast : s % 10 ≠ 0)
    (h : IsNearest (s * 10 ^ k) m e) :
    (shortestDigits m e).trimmed = ⟨Nat.toDigits 10 s, k⟩ := by
  obtain ⟨w, exponent, hdigits, hvalue⟩ := shortest_digits hs h
  obtain ⟨i, rfl, rfl⟩ := digits_of_eq hlast hvalue
  rw [hdigits, trimmed_digits hlast]

/-- The digits of a number, the last of them no zero, are a decimal fraction of 17 digits and one
part in `2 ^ 53` from the number at most. -/
theorem trimmed_near {q : ℚ} (h : IsNearest q m e) :
    ∃ s k, (shortestDigits m e).trimmed = ⟨Nat.toDigits 10 s, k⟩ ∧ s % 10 ≠ 0 ∧ s < 10 ^ 17 ∧
      |(s : ℚ) * 10 ^ k - m * 2 ^ e| ≤ m * 2 ^ e / 2 ^ 53 := by
  have hscale : (0 : ℚ) < 2 ^ e := zpow_pos two_pos e
  have hm : (2 : ℚ) ^ 52 ≤ m := mod_cast h.low
  obtain ⟨w, exponent, hdigits, hnear, hw⟩ := shortest_near h
  have hpos : w ≠ 0 := by
    rintro rfl
    rw [Nat.cast_zero, zero_mul, zero_div, sub_zero] at hnear
    linarith [le_abs_self (m : ℚ)]
  obtain ⟨i, s, hlast, rfl⟩ := Nat.exists_eq_pow_mul_and_not_dvd hpos 10 (by decide)
  have hlast : s % 10 ≠ 0 := fun hzero => hlast (Nat.dvd_of_mod_eq_zero hzero)
  have hs : s ≤ 10 ^ 17 := (Nat.le_mul_of_pos_left s (Nat.pow_pos (by decide))).trans hw
  have hvalue : ((10 ^ i * s : Nat) : ℚ) * 10 ^ exponent = s * 10 ^ (exponent + i) := by
    rw [zpow_add₀ (by norm_num), zpow_natCast]
    push_cast
    ring
  refine ⟨s, exponent + i, ?_, hlast, lt_of_le_of_ne hs ?_, ?_⟩
  · rw [hdigits, Nat.mul_comm, trimmed_digits hlast]
  · rintro rfl
    exact hlast (by decide)
  · rw [hvalue] at hnear
    rw [abs_sub_comm, distance_eq]
    calc |(m : ℚ) - s * 10 ^ (exponent + i) / 2 ^ e| * 2 ^ e ≤ 1 / 2 * 2 ^ e := by gcongr
      _ = 2 ^ 52 * 2 ^ e / 2 ^ 53 := by ring
      _ ≤ m * 2 ^ e / 2 ^ 53 := by gcongr

end Rewards.Binary64
