import Rewards.Json.Number
import Rewards.Proofs.Binary64.Rounding

/-!
# The binary number of a numeral

A numeral that is no integer of 64 bits is converted from a significand, the digits that 64 bits
hold, and a power of ten. Before their product or quotient is rounded, the digits that are left out
and the roundings of both make one part in `2 ^ 51` at most, `to_number_near`. No digit other than
zero is left out if the value has 15 digits at most, `significand_value`. If the significand and the
power are binary numbers themselves, the result is rounded once and is the number nearest to the
value, `to_number_nearest`.
-/

namespace Rewards.Json.Numeral

open Binary64 (Holds rounded)

/-! ## Values -/

/-- The value of digits after a number. -/
def valueFrom (m : Nat) (ds : List Nat) : Nat := ds.foldl (fun n d => n * 10 + d) m

/-- The exponent as it is written, with its sign. -/
def written (n : Numeral) : Int :=
  match n.exponent with
  | none => 0
  | some (down, ds) => if down then -(digitsValue ds : Int) else digitsValue ds

/-- The rational number that a numeral stands for, without its sign. -/
def magnitude (n : Numeral) : ℚ :=
  digitsValue (n.whole ++ n.fraction) * 10 ^ (n.written - n.fraction.length)

/-- The rational number that a numeral stands for. -/
def value (n : Numeral) : ℚ := (if n.negative then -1 else 1) * n.magnitude

/-- The digits that 64 bits hold. -/
def significand (n : Numeral) : Nat := (takeDigits (takeDigits 0 n.whole).1 n.fraction).1

/-- The power of ten of the last of these digits. -/
def power (n : Numeral) : Int :=
  (takeDigits 0 n.whole).2.length -
    (n.fraction.length - (takeDigits (takeDigits 0 n.whole).1 n.fraction).2.length : Nat) +
    n.written

/-! ## Digits that are taken -/

/-- The digits after a number are added to it. -/
theorem value_from_eq (m : Nat) (ds : List Nat) :
    valueFrom m ds = m * 10 ^ ds.length + digitsValue ds := by
  induction ds generalizing m with
  | nil => simp [valueFrom, digitsValue]
  | cons d ds ih =>
      have hstep : valueFrom m (d :: ds) = valueFrom (m * 10 + d) ds := rfl
      have hzero : digitsValue (d :: ds) = valueFrom d ds := by
        simp [digitsValue, valueFrom]
      rw [hstep, hzero, ih, ih d, List.length_cons]
      ring

/-- The value of digits before other digits. -/
theorem digits_value_append (xs ys : List Nat) :
    digitsValue (xs ++ ys) = digitsValue xs * 10 ^ ys.length + digitsValue ys := by
  rw [← value_from_eq, digitsValue, List.foldl_append]
  rfl

/-- Digits have a value below the power of ten that has one digit more. -/
theorem digits_value_lt {ds : List Nat} (h : ∀ d ∈ ds, d < 10) :
    digitsValue ds < 10 ^ ds.length := by
  induction ds using List.reverseRecOn with
  | nil => decide
  | append_singleton ds d ih =>
      have hd := h d (by simp)
      have hds := ih fun d hd => h d (List.mem_append_left _ hd)
      have hlast : digitsValue [d] = d := by simp [digitsValue]
      rw [digits_value_append, hlast, List.length_append, List.length_singleton, pow_one, pow_succ]
      omega

/-- Digits of no value are zeros. -/
theorem digits_of_value_zero {ds : List Nat} (h : digitsValue ds = 0) : ∀ d ∈ ds, d = 0 := by
  induction ds using List.reverseRecOn with
  | nil => simp
  | append_singleton ds d ih =>
      have hlast : digitsValue [d] = d := by simp [digitsValue]
      rw [digits_value_append, hlast, List.length_singleton, pow_one] at h
      intro c hc
      rcases List.mem_append.mp hc with hc | hc
      · exact ih (by omega) c hc
      · rw [List.mem_singleton.mp hc]
        omega

/-- The digits that are taken and those that are left have the value of all. -/
theorem take_digits_value (m : Nat) (ds : List Nat) :
    valueFrom m ds = valueFrom (takeDigits m ds).1 (takeDigits m ds).2 := by
  induction ds generalizing m with
  | nil => rfl
  | cons d ds ih =>
      unfold takeDigits
      split
      · exact ih (m * 10 + d)
      · rfl

/-- The first digit that is left does not fit. -/
theorem limit_le_of_left {m d : Nat} {ds rest : List Nat} (h : (takeDigits m ds).2 = d :: rest) :
    significandLimit ≤ (takeDigits m ds).1 * 10 + d := by
  induction ds generalizing m with
  | nil => cases h
  | cons c ds ih =>
      unfold takeDigits at h ⊢
      split
      · rename_i hfits
        rw [if_pos hfits] at h
        exact ih h
      · rename_i hfull
        rw [if_neg hfull] at h
        cases h
        exact Nat.le_of_not_lt hfull

/-- The digits that are taken fit. -/
theorem take_digits_lt {m : Nat} (hm : m < significandLimit) (ds : List Nat) :
    (takeDigits m ds).1 < significandLimit := by
  induction ds generalizing m with
  | nil => exact hm
  | cons d ds ih =>
      unfold takeDigits
      split
      · rename_i hfits
        exact ih hfits
      · exact hm

/-- Digits are taken from two parts one after the other, but none once they are too many. -/
theorem take_digits_append (m : Nat) (xs ys : List Nat) :
    takeDigits m (xs ++ ys) =
      if (takeDigits m xs).2 = [] then takeDigits (takeDigits m xs).1 ys
      else ((takeDigits m xs).1, (takeDigits m xs).2 ++ ys) := by
  induction xs generalizing m with
  | nil => rfl
  | cons d xs ih =>
      rw [List.cons_append, takeDigits, takeDigits]
      split
      · exact ih (m * 10 + d)
      · rw [if_neg (List.cons_ne_nil d xs)]
        rfl

/-- The digits that are left are the last ones. -/
theorem left_suffix (m : Nat) (ds : List Nat) : (takeDigits m ds).2 <:+ ds := by
  induction ds generalizing m with
  | nil => exact List.suffix_refl []
  | cons d ds ih =>
      unfold takeDigits
      split
      · exact (ih _).trans (List.suffix_cons d ds)
      · exact List.suffix_refl _

/-- The digits that are left of a number with 15 digits before its zeros are some of the zeros. -/
theorem left_zero {ds : List Nat} (hds : ∀ d ∈ ds, d < 10) {s i : Nat} (hs : s < 10 ^ 15)
    (h : digitsValue ds = s * 10 ^ i) : digitsValue (takeDigits 0 ds).2 = 0 := by
  have hvalue : s * 10 ^ i =
      (takeDigits 0 ds).1 * 10 ^ (takeDigits 0 ds).2.length + digitsValue (takeDigits 0 ds).2 := by
    rw [← h, ← value_from_eq]
    exact take_digits_value 0 ds
  have hleft : ∀ d ∈ (takeDigits 0 ds).2, d < 10 := fun d hd => hds d ((left_suffix 0 ds).subset hd)
  have hless := digits_value_lt hleft
  rcases hrest : (takeDigits 0 ds).2 with _ | ⟨d, rest⟩
  · rfl
  · have hlimit := limit_le_of_left hrest
    have hd := hleft d (by rw [hrest]; exact List.mem_cons_self)
    rw [hrest] at hvalue hless
    generalize (takeDigits 0 ds).1 = m at hvalue hlimit
    generalize digitsValue (d :: rest) = left at hvalue hless
    generalize (d :: rest).length = length at hvalue hless
    have hm : 10 ^ 15 ≤ m := by
      unfold significandLimit at hlimit
      omega
    have hzeros : length ≤ i := by
      by_contra hfew
      have hsmall : s * 10 ^ i < 10 ^ 15 * 10 ^ i :=
        Nat.mul_lt_mul_of_pos_right hs (Nat.pow_pos (by decide))
      have hlarge : 10 ^ 15 * 10 ^ i ≤ m * 10 ^ length :=
        Nat.mul_le_mul hm (Nat.pow_le_pow_right (by decide) (Nat.le_of_not_le hfew))
      omega
    have hdvd : 10 ^ length ∣ left := by
      rw [← Nat.dvd_add_right (Nat.dvd_mul_left (10 ^ length) m), ← hvalue]
      exact (pow_dvd_pow 10 hzeros).mul_left s
    exact Nat.eq_zero_of_dvd_of_lt hdvd hless

/-- A numeral of 15 digits before its zeros has the value of the digits that fit, at their power of
ten. -/
theorem significand_value {n : Numeral} (hn : ∀ d ∈ n.whole ++ n.fraction, d < 10) {s i : Nat}
    (hs : s < 10 ^ 15) (h : digitsValue (n.whole ++ n.fraction) = s * 10 ^ i) :
    n.magnitude = n.significand * 10 ^ n.power := by
  have hten : (10 : ℚ) ≠ 0 := by norm_num
  have hleft := left_zero hn hs h
  have hvalue : digitsValue (n.whole ++ n.fraction) =
      (takeDigits 0 (n.whole ++ n.fraction)).1 *
        10 ^ (takeDigits 0 (n.whole ++ n.fraction)).2.length := by
    have htake := take_digits_value 0 (n.whole ++ n.fraction)
    rw [value_from_eq _ (takeDigits 0 (n.whole ++ n.fraction)).2, hleft, Nat.add_zero] at htake
    exact htake
  unfold magnitude significand power
  rw [hvalue]
  rw [take_digits_append] at hleft ⊢
  split
  · -- Digits are left of the fraction only.
    rename_i hwhole
    have hlength := (left_suffix (takeDigits 0 n.whole).1 n.fraction).length_le
    rw [hwhole]
    push_cast
    rw [mul_assoc, ← zpow_natCast, ← zpow_add₀ hten, List.length_nil]
    congr 2
    omega
  · -- Digits are left before the point, and none of the fraction fits after them.
    rename_i hwhole
    rw [if_neg hwhole] at hleft
    have hzeros := digits_of_value_zero hleft
    have hfraction : takeDigits (takeDigits 0 n.whole).1 n.fraction =
        ((takeDigits 0 n.whole).1, n.fraction) := by
      obtain ⟨d, rest, hrest⟩ := List.exists_cons_of_ne_nil hwhole
      have hlimit := limit_le_of_left hrest
      rcases hfirst : n.fraction with _ | ⟨c, cs⟩
      · rfl
      · rw [hzeros d (by rw [hrest]; simp)] at hlimit
        rw [takeDigits, hzeros c (by rw [hfirst]; simp), if_neg (Nat.not_lt_of_le hlimit)]
    rw [hfraction]
    push_cast
    rw [mul_assoc, ← zpow_natCast, ← zpow_add₀ hten, List.length_append]
    congr 2
    push_cast
    omega

/-- The significand is the value of the digits before those that are left. -/
theorem take_digits_front (m : Nat) (ds : List Nat) :
    ∃ front, ds = front ++ (takeDigits m ds).2 ∧
      (takeDigits m ds).1 = m * 10 ^ front.length + digitsValue front := by
  obtain ⟨front, hfront⟩ := left_suffix m ds
  refine ⟨front, hfront.symm, ?_⟩
  have hvalue := take_digits_value m ds
  rw [value_from_eq (takeDigits m ds).1, ← hfront, valueFrom, List.foldl_append] at hvalue
  have hsplit : valueFrom (valueFrom m front) (takeDigits m ds).2 = _ := hvalue
  rw [value_from_eq, hfront, value_from_eq] at hsplit
  exact (Nat.eq_of_mul_eq_mul_right (Nat.pow_pos (by decide)) (Nat.add_right_cancel hsplit)).symm

/-- A significand that no digit fits after is long. -/
theorem significand_long {ds : List Nat} (hds : ∀ d ∈ ds, d < 10) {m : Nat}
    (h : (takeDigits m ds).2 ≠ []) : 2 ^ 60 ≤ (takeDigits m ds).1 := by
  obtain ⟨d, rest, hrest⟩ := List.exists_cons_of_ne_nil h
  have hlimit := limit_le_of_left hrest
  have hd := hds d ((left_suffix m ds).subset (by rw [hrest]; exact List.mem_cons_self))
  have hbound : significandLimit = 2 ^ 64 := rfl
  omega

/-- Two numbers with the same long beginning are close to each other. -/
theorem near_of_beginning {beginning unit a b : Nat} (hlong : 2 ^ 60 ≤ beginning) (ha : a < unit)
    (hb : b < unit) : |((beginning * unit + a : Nat) : ℚ) - (beginning * unit + b : Nat)| ≤
      (beginning * unit + b : Nat) / 2 ^ 60 := by
  have hlong : (2 : ℚ) ^ 60 * unit ≤ beginning * unit :=
    mul_le_mul_of_nonneg_right (mod_cast hlong) (Nat.cast_nonneg unit)
  have ha : (a : ℚ) ≤ unit := mod_cast ha.le
  have hb : (b : ℚ) ≤ unit := mod_cast hb.le
  have hpos : (0 : ℚ) ≤ a := Nat.cast_nonneg a
  have hpos' : (0 : ℚ) ≤ b := Nat.cast_nonneg b
  push_cast
  rw [le_div_iff₀ (by norm_num), add_sub_add_left_eq_sub]
  have hapart : |(a : ℚ) - b| ≤ unit := by
    rw [abs_le]
    constructor <;> linarith
  linarith

/-- The digits that are left of two parts are one part in `2 ^ 60` of all digits at most. -/
theorem taken_near {whole fraction : List Nat} (hwhole : ∀ d ∈ whole, d < 10)
    (hfraction : ∀ d ∈ fraction, d < 10) {taken all : Nat} {left unused : List Nat}
    (htaken : takeDigits 0 whole = (taken, left))
    (hall : takeDigits taken fraction = (all, unused)) :
    |((all * 10 ^ (unused.length + left.length) : Nat) : ℚ) - digitsValue (whole ++ fraction)| ≤
      digitsValue (whole ++ fraction) / 2 ^ 60 := by
  obtain ⟨front, hfront, hbegin⟩ := take_digits_front 0 whole
  obtain ⟨more, hmore, hnext⟩ := take_digits_front taken fraction
  have hleft := significand_long (m := 0) hwhole
  have hunused := significand_long (m := taken) hfraction
  rw [htaken] at hfront hbegin hleft
  rw [hall] at hmore hnext hunused
  dsimp only at hfront hbegin hleft hmore hnext hunused
  have hvalue : digitsValue (whole ++ fraction) = taken * 10 ^ (left ++ fraction).length +
      digitsValue (left ++ fraction) := by
    rw [digits_value_append, digits_value_append, List.length_append, hfront, digits_value_append,
      hbegin]
    ring
  by_cases hnone : left = []
  · -- All digits before those that are left are in the significand.
    have hsum :
        digitsValue (whole ++ fraction) = all * 10 ^ unused.length + digitsValue unused := by
      rw [hvalue, hnone, List.nil_append, hmore, List.length_append, digits_value_append, hnext,
        Nat.pow_add]
      ring
    rw [hsum, hnone, List.length_nil, Nat.add_zero]
    by_cases hexact : unused = []
    · rw [hexact]
      simp only [digitsValue, List.foldl_nil, Nat.add_zero, sub_self, abs_zero]
      positivity
    · have hless := digits_value_lt fun d hd => hfraction d (hmore ▸ List.mem_append_right more hd)
      have hnear := near_of_beginning (hunused hexact) (Nat.pow_pos (by decide)) hless
      rwa [Nat.add_zero] at hnear
  · -- Digits of the fraction may follow those before the ones that are left.
    have hsignificand : all * 10 ^ (unused.length + left.length) =
        taken * 10 ^ (left ++ fraction).length +
          digitsValue more * 10 ^ (unused.length + left.length) := by
      rw [hnext, hmore, List.length_append, List.length_append]
      ring
    have hmoreLess := digits_value_lt fun d hd =>
      hfraction d (hmore ▸ List.mem_append_left unused hd)
    rw [hvalue, hsignificand]
    refine near_of_beginning (hleft hnone) ?_ (digits_value_lt fun d hd => ?_)
    · calc digitsValue more * 10 ^ (unused.length + left.length)
          < 10 ^ more.length * 10 ^ (unused.length + left.length) :=
            Nat.mul_lt_mul_of_pos_right hmoreLess (Nat.pow_pos (by decide))
        _ = 10 ^ (left ++ fraction).length := by
            rw [hmore, List.length_append, List.length_append]
            ring
    · rcases List.mem_append.mp hd with hd | hd
      · exact hwhole d (hfront ▸ List.mem_append_right front hd)
      · exact hfraction d hd

/-- The significand at its power of ten is one part in `2 ^ 60` from the numeral at most. -/
theorem significand_near {n : Numeral} (hn : ∀ d ∈ n.whole ++ n.fraction, d < 10) :
    |n.significand * 10 ^ n.power - n.magnitude| ≤ n.magnitude / 2 ^ 60 := by
  -- Both numbers are brought to the unit of the last digit.
  have hscale : (0 : ℚ) < 10 ^ (n.written - n.fraction.length) := zpow_pos (by norm_num) _
  have hvalue : (n.significand : ℚ) * 10 ^ n.power =
      (n.significand * 10 ^ ((takeDigits (takeDigits 0 n.whole).1 n.fraction).2.length +
        (takeDigits 0 n.whole).2.length) : Nat) * 10 ^ (n.written - n.fraction.length) := by
    have hlength := (left_suffix (takeDigits 0 n.whole).1 n.fraction).length_le
    push_cast
    rw [mul_assoc, ← zpow_natCast, ← zpow_add₀ (by norm_num)]
    congr 2
    unfold power
    push_cast
    omega
  have hnear := taken_near (fun d hd => hn d (List.mem_append_left _ hd))
    (fun d hd => hn d (List.mem_append_right _ hd)) rfl rfl
  rw [hvalue, magnitude, ← sub_mul, abs_mul, abs_of_pos hscale, mul_div_right_comm]
  exact mul_le_mul_of_nonneg_right hnear hscale.le

/-! ## The conversion -/

/-- A power of ten is the number nearest to it. -/
theorem ten_to_eq_rounded (n : Nat) : tenTo n = rounded (10 ^ n) := by
  rw [tenTo, Binary64.nearest_eq_rounded _ one_pos, Nat.cast_one, div_one, Nat.pow_eq, Nat.cast_pow,
    Nat.cast_ofNat]

/-- A number in the range is rounded to a finite one. -/
theorem round_finite {q : ℚ} (h : Binary64.InRange q) : (rounded q).isInfinite = false := by
  obtain ⟨m, e, heq, -⟩ := Binary64.exists_nearest h
  rw [heq]
  rfl

/-- A significand that is a binary number is rounded once, with the power of ten. -/
theorem scale_by_ten_eq {m : Nat} {p : Int} (hm : (Binary64.ofNat m).Holds m) (hp : p.natAbs ≤ 22)
    (hrange : Binary64.InRange (m * 10 ^ p)) :
    scaleByTen (.ofNat m) p = some (rounded (m * 10 ^ p)) := by
  have hpower := Binary64.round_power_of_ten hp
  have hmax : maxPower = 308 := rfl
  unfold scaleByTen
  split
  · rename_i hup
    obtain ⟨i, rfl⟩ := Int.eq_ofNat_of_zero_le hup
    rw [Int.natAbs_natCast, ← ten_to_eq_rounded] at hpower
    rw [zpow_natCast] at hrange ⊢
    rw [if_pos (by omega), Int.toNat_natCast, hm.mul hpower]
    dsimp only
    rw [if_neg (by rw [round_finite hrange]; exact Bool.false_ne_true)]
  · rename_i hdown
    obtain ⟨i, rfl⟩ : ∃ i : Nat, p = -i := ⟨(-p).toNat, by omega⟩
    rw [Int.natAbs_neg, Int.natAbs_natCast, ← ten_to_eq_rounded] at hpower
    rw [if_pos (by omega), neg_neg, Int.toNat_natCast,
      hm.div hpower (pow_ne_zero i (by norm_num)), zpow_neg, zpow_natCast, div_eq_mul_inv]

/-- The powers of ten between significands and amounts are few. -/
theorem power_bounds {m : Nat} {p : Int} (hm : 0 < m) (hfits : m < 2 ^ 64)
    (hlow : 1 / 10 ^ 28 ≤ (m : ℚ) * 10 ^ p) (hhigh : (m : ℚ) * 10 ^ p ≤ 2 ^ 96) :
    p.natAbs ≤ 50 := by
  have hten : (1 : ℚ) < 10 := by norm_num
  have hscale : (0 : ℚ) < 10 ^ p := zpow_pos (by norm_num) p
  have hfrom : (1 : ℚ) ≤ m := mod_cast hm
  have hto : (m : ℚ) ≤ 10 ^ (20 : Int) := by
    have hless : m ≤ 10 ^ 20 := hfits.le.trans (by decide)
    exact_mod_cast hless
  have hupper : (10 : ℚ) ^ p < 10 ^ (29 : Int) := by
    calc (10 : ℚ) ^ p ≤ m * 10 ^ p := le_mul_of_one_le_left hscale.le hfrom
      _ ≤ 2 ^ 96 := hhigh
      _ < 10 ^ (29 : Int) := by norm_num
  have hlower : (10 : ℚ) ^ (-28 : Int) ≤ 10 ^ (20 + p) := by
    calc (10 : ℚ) ^ (-28 : Int) = 1 / 10 ^ 28 := by norm_num
      _ ≤ m * 10 ^ p := hlow
      _ ≤ 10 ^ (20 : Int) * 10 ^ p := by gcongr
      _ = 10 ^ (20 + p) := (zpow_add₀ (by norm_num) _ _).symm
  have hmost := (zpow_lt_zpow_iff_right₀ hten).mp hupper
  have hleast := (zpow_le_zpow_iff_right₀ hten).mp hlower
  omega

/-- A significand and a power of ten are rounded before their product or quotient is. -/
theorem scale_by_ten_near {m : Nat} {p : Int} (hm : 0 < m) (hfits : m < 2 ^ 64)
    (hlow : 1 / 10 ^ 28 ≤ (m : ℚ) * 10 ^ p) (hhigh : (m : ℚ) * 10 ^ p ≤ 2 ^ 96) :
    ∃ q, scaleByTen (.ofNat m) p = some (rounded q) ∧
      |q - m * 10 ^ p| ≤ 3 * (m * 10 ^ p) / 2 ^ 53 := by
  have hpower := power_bounds hm hfits hlow hhigh
  have hmax : maxPower = 308 := rfl
  have hfrom : (1 : ℚ) ≤ m := mod_cast hm
  have hto : (m : ℚ) ≤ 2 ^ 64 := mod_cast hfits.le
  obtain ⟨x, hx, hxNear⟩ :=
    Binary64.round_near (Binary64.in_range_of_bounds (q := m) (by linarith) (by linarith))
  rw [← Binary64.of_nat_eq_rounded] at hx
  have hten (i : Nat) (hi : i ≤ 50) :
      ∃ y, (tenTo i).Holds y ∧ |y - 10 ^ i| ≤ 10 ^ i / 2 ^ 53 := by
    rw [ten_to_eq_rounded]
    refine Binary64.round_near ⟨?_, ?_⟩
    · calc (2 : ℚ) ^ (-1000 : Int) ≤ 2 ^ (0 : Int) := zpow_le_zpow_right₀ one_le_two (by decide)
        _ = 1 := zpow_zero 2
        _ ≤ 10 ^ i := one_le_pow₀ (by norm_num)
    · calc (10 : ℚ) ^ i ≤ 10 ^ 50 := pow_le_pow_right₀ (by norm_num) hi
        _ ≤ 2 ^ (200 : Int) := by norm_num
        _ ≤ 2 ^ (1000 : Int) := zpow_le_zpow_right₀ one_le_two (by decide)
  unfold scaleByTen
  split
  · rename_i hup
    obtain ⟨i, rfl⟩ := Int.eq_ofNat_of_zero_le hup
    rw [zpow_natCast] at hlow hhigh ⊢
    obtain ⟨y, hy, hyNear⟩ := hten i (by omega)
    have hnear := Binary64.product_near (by positivity) (by positivity) hxNear hyNear
    have hrange := Binary64.in_range_of_near hlow hhigh (hnear.trans (by linarith))
    rw [if_pos (by omega), Int.toNat_natCast, hx.mul hy]
    dsimp only
    rw [if_neg (by rw [round_finite hrange]; exact Bool.false_ne_true)]
    exact ⟨x * y, rfl, hnear⟩
  · rename_i hdown
    obtain ⟨i, rfl⟩ : ∃ i : Nat, p = -i := ⟨(-p).toNat, by omega⟩
    rw [zpow_neg, zpow_natCast, ← div_eq_mul_inv] at hlow hhigh ⊢
    obtain ⟨y, hy, hyNear⟩ := hten i (by omega)
    have hten : (0 : ℚ) < 10 ^ i := by positivity
    have hpos : 0 < y := by linarith [(abs_le.mp hyNear).1]
    have hnear := Binary64.quotient_near (by positivity) hten hxNear hyNear
    rw [if_pos (by omega), neg_neg, Int.toNat_natCast, hx.div hy hpos.ne']
    exact ⟨x / y, rfl, hnear⟩

/-- A written exponent that fits is added to the power of ten. -/
theorem to_binary64_scaled {n : Numeral} (m : Nat) {p : Int} (hwritten : n.written.natAbs < 2 ^ 31)
    (hp : (p + n.written).natAbs < 2 ^ 31) :
    n.toBinary64? m p = (scaleByTen (.ofNat m) (p + n.written)).map (signed n.negative) := by
  have hlimit : exponentLimit = 2 ^ 31 := rfl
  unfold toBinary64?
  rcases hexponent : n.exponent with _ | ⟨down, ds⟩
  · have hnone : n.written = 0 := by rw [written, hexponent]
    rw [hnone, add_zero]
  · have hsome : n.written = if down then -(digitsValue ds : Int) else digitsValue ds := by
      rw [written, hexponent]
    rw [hsome] at hp hwritten ⊢
    dsimp only
    have hfits : ¬ exponentLimit ≤ (digitsValue ds : Int) := by
      split at hwritten <;> omega
    have hclamp : min (max (p + (if down then -(digitsValue ds : Int) else digitsValue ds))
        (-exponentLimit)) (exponentLimit - 1) =
          p + (if down then -(digitsValue ds : Int) else digitsValue ds) := by omega
    rw [if_neg hfits, hclamp]

/-! ## Integers -/

/-- The numeral is an integer of 64 bits, with a sign if it is negative. -/
def IsInteger (n : Numeral) : Prop :=
  n.fraction = [] ∧ n.exponent = none ∧
    if n.negative then digitsValue n.whole ≤ 2 ^ 63 else digitsValue n.whole < 2 ^ 64

/-- All digits are taken exactly if their value fits. -/
theorem left_eq_nil_iff (ds : List Nat) : (takeDigits 0 ds).2 = [] ↔ digitsValue ds < 2 ^ 64 := by
  have hvalue : digitsValue ds = valueFrom (takeDigits 0 ds).1 (takeDigits 0 ds).2 :=
    take_digits_value 0 ds
  have hlimit : significandLimit = 2 ^ 64 := rfl
  constructor
  · intro hnil
    rw [hvalue, hnil]
    exact take_digits_lt (by decide) ds
  · intro hfits
    rcases hrest : (takeDigits 0 ds).2 with _ | ⟨d, rest⟩
    · rfl
    · have hfull := limit_le_of_left hrest
      have hmore : (takeDigits 0 ds).1 * 10 + d ≤ digitsValue ds := by
        rw [hvalue, hrest]
        show _ ≤ valueFrom ((takeDigits 0 ds).1 * 10 + d) rest
        rw [value_from_eq]
        exact Nat.le_trans (Nat.le_mul_of_pos_right _ (Nat.pow_pos (by decide)))
          (Nat.le_add_right _ _)
      omega

/-- An integer is a number of its own kind, apart from a zero with a sign. -/
theorem to_number_integer {n : Numeral} (h : n.IsInteger) :
    n.toNumber = some
      (if n.negative = false then .natural (digitsValue n.whole)
        else if digitsValue n.whole = 0 then .float (Binary64.ofNat 0).neg
        else .negative (digitsValue n.whole)) := by
  obtain ⟨hfraction, hexponent, hfits⟩ := h
  have hnil : (takeDigits 0 n.whole).2 = [] := by
    rw [left_eq_nil_iff]
    split at hfits <;> omega
  have hvalue : (takeDigits 0 n.whole).1 = digitsValue n.whole := by
    have htake : digitsValue n.whole = _ := take_digits_value 0 n.whole
    rw [htake, hnil]
    rfl
  have hsplit : takeDigits 0 n.whole = (digitsValue n.whole, []) := Prod.ext hvalue hnil
  unfold toNumber
  rw [hsplit, hfraction, hexponent]
  dsimp only
  cases hnegative : n.negative with
  | false => rfl
  | true =>
      rw [hnegative, if_pos rfl] at hfits
      have hshift : (1 <<< 63 : Nat) = 2 ^ 63 := by decide
      rw [hshift]
      by_cases hzero : digitsValue n.whole = 0
      · simp [hzero]
      · have hfew : ¬ (digitsValue n.whole = 0 ∨ 2 ^ 63 < digitsValue n.whole) := by omega
        rw [if_neg hfew, if_neg hzero]
        rfl

/-! ## Other numerals -/

/-- A numeral that is no integer is converted from its significand and power of ten, also if it is
an integer that is too long for its sign. -/
theorem to_number_cases {n : Numeral} (hinteger : ¬ n.IsInteger) :
    n.toNumber = (n.toBinary64? n.significand (n.power - n.written)).map .float ∨
      n.toNumber = some (.float (signed n.negative (.ofNat n.significand))) ∧ n.power = 0 := by
  unfold toNumber
  dsimp only
  split
  · rename_i hfraction hexponent hrest
    right
    have hfits := (left_eq_nil_iff n.whole).mp hrest
    have hwhole : digitsValue n.whole = (takeDigits 0 n.whole).1 := by
      have htake : digitsValue n.whole = _ := take_digits_value 0 n.whole
      rw [htake, hrest]
      rfl
    have hsignificand : n.significand = (takeDigits 0 n.whole).1 := by
      rw [significand, hfraction]
      rfl
    have hpower : n.power = 0 := by
      rw [power, hrest, written, hexponent, hfraction]
      rfl
    refine ⟨?_, hpower⟩
    rw [hsignificand]
    cases hnegative : n.negative with
    | false =>
        exact absurd ⟨hfraction, hexponent, by rw [hnegative]; exact hfits⟩ hinteger
    | true =>
        have hlong : 2 ^ 63 < (takeDigits 0 n.whole).1 := by
          by_contra hshort
          rw [← hwhole] at hshort
          exact hinteger ⟨hfraction, hexponent, by rw [hnegative]; exact Nat.le_of_not_lt hshort⟩
        have hshift : (1 <<< 63 : Nat) = 2 ^ 63 := by decide
        rw [hshift, if_neg (by decide), if_pos (.inr hlong)]
        rfl
  · left
    rw [power, add_sub_cancel_right]
    rfl

/-- A positive numeral in the range of amounts is converted into the number nearest to one that is
one part in `2 ^ 51` from it at most. -/
theorem to_number_near {n : Numeral} (hn : ∀ d ∈ n.whole ++ n.fraction, d < 10)
    (hwritten : n.written.natAbs < 2 ^ 31) (hinteger : ¬ n.IsInteger)
    (hlow : 2 / 10 ^ 28 ≤ n.magnitude) (hhigh : n.magnitude ≤ 2 ^ 96 - 2 ^ 46) :
    ∃ q, n.toNumber = some (.float (signed n.negative (rounded q))) ∧
      |q - n.magnitude| ≤ n.magnitude / 2 ^ 51 := by
  have hnear := significand_near hn
  obtain ⟨hbelow, habove⟩ := abs_le.mp hnear
  rcases to_number_cases hinteger with hfloat | ⟨hfloat, hpower⟩
  · have hfits : n.significand < 2 ^ 64 := take_digits_lt (take_digits_lt (by decide) _) _
    have hpos : 0 < n.significand := by
      rcases Nat.eq_zero_or_pos n.significand with hzero | hpos
      · rw [hzero, Nat.cast_zero, zero_mul] at hbelow
        linarith
      · exact hpos
    have hleast : 1 / 10 ^ 28 ≤ (n.significand : ℚ) * 10 ^ n.power := by linarith
    have hmost : (n.significand : ℚ) * 10 ^ n.power ≤ 2 ^ 96 := by linarith
    have hbounds := power_bounds hpos hfits hleast hmost
    obtain ⟨q, hq, hqNear⟩ := scale_by_ten_near hpos hfits hleast hmost
    refine ⟨q, ?_, ?_⟩
    · rw [hfloat, to_binary64_scaled _ hwritten (by omega), sub_add_cancel, hq]
      rfl
    · obtain ⟨hqBelow, hqAbove⟩ := abs_le.mp hqNear
      rw [abs_le]
      constructor <;> linarith
  · rw [hpower, zpow_zero, mul_one] at hnear
    refine ⟨n.significand, by rw [hfloat, Binary64.of_nat_eq_rounded], hnear.trans ?_⟩
    linarith

/-- The numeral has 15 digits before its zeros, and the digits that 64 bits hold are a binary number
with a power of ten that is one too. -/
structure IsShort (n : Numeral) : Prop where
  digits : ∃ s i, s < 10 ^ 15 ∧ digitsValue (n.whole ++ n.fraction) = s * 10 ^ i
  significand : ∃ m j, m < 2 ^ 53 ∧ n.significand = m * 2 ^ j
  power : n.power.natAbs ≤ 22
  written : n.written.natAbs < 2 ^ 31

/-- Digits that fit 64 bits are all taken. -/
theorem significand_eq {n : Numeral} (h : digitsValue (n.whole ++ n.fraction) < 2 ^ 64) :
    n.significand = digitsValue (n.whole ++ n.fraction) ∧
      n.power = n.written - n.fraction.length := by
  have hleft := (left_eq_nil_iff _).mpr h
  have hvalue : digitsValue (n.whole ++ n.fraction) = _ :=
    take_digits_value 0 (n.whole ++ n.fraction)
  rw [take_digits_append] at hleft hvalue
  split at hleft
  · rename_i hwhole
    rw [if_pos hwhole, hleft] at hvalue
    refine ⟨hvalue.symm, ?_⟩
    rw [power, hwhole, hleft]
    simp only [List.length_nil]
    omega
  · rename_i hwhole
    exact absurd (List.append_eq_nil_iff.mp hleft).1 hwhole

/-- Numerals of 15 digits with no exponent and few places are short. -/
theorem short_of_digits {n : Numeral} (hexponent : n.exponent = none)
    (hdigits : digitsValue (n.whole ++ n.fraction) < 10 ^ 15) (hplaces : n.fraction.length ≤ 22) :
    n.IsShort := by
  have hwritten : n.written = 0 := by rw [written, hexponent]
  obtain ⟨hsignificand, hpower⟩ := significand_eq (hdigits.trans (by decide))
  refine ⟨⟨_, 0, hdigits, (Nat.mul_one _).symm⟩, ⟨_, 0, hdigits.trans (by decide), ?_⟩, ?_, ?_⟩
  · rw [hsignificand, Nat.pow_zero, Nat.mul_one]
  · rw [hpower, hwritten]
    omega
  · rw [hwritten]
    decide

/-- The significand is a binary number. -/
theorem IsShort.holds {n : Numeral} (h : n.IsShort) :
    (Binary64.ofNat n.significand).Holds n.significand := by
  obtain ⟨m, j, hm, heq⟩ := h.significand
  have hfits : n.significand < 2 ^ 64 := take_digits_lt (take_digits_lt (by decide) _) _
  rcases Nat.eq_zero_or_pos m with rfl | hpos
  · rw [Nat.zero_mul] at heq
    rw [heq]
    exact Binary64.holds_of_nat (by decide)
  · have hj : 2 ^ j < 2 ^ 64 := (Nat.le_mul_of_pos_left _ hpos).trans_lt (heq ▸ hfits)
    have hexact := Binary64.round_exact hm (j := j) (by omega)
      (by have := (Nat.pow_lt_pow_iff_right (by decide)).mp hj; omega)
    have hvalue : (m : ℚ) * 2 ^ (j : Int) = (n.significand : Nat) := by
      rw [heq, zpow_natCast]
      push_cast
      rfl
    rw [Binary64.of_nat_eq_rounded, ← hvalue]
    exact hexact

/-- The number of a numeral that is no integer is the one nearest to its value, if the significand
and the power of ten are binary numbers. -/
theorem to_number_nearest {n : Numeral} (hn : ∀ d ∈ n.whole ++ n.fraction, d < 10)
    (hshort : n.IsShort) (hinteger : ¬ n.IsInteger) (hrange : Binary64.InRange n.magnitude) :
    n.toNumber = some (.float (signed n.negative (rounded n.magnitude))) := by
  obtain ⟨s, i, hs, hdigits⟩ := hshort.digits
  have hfew := hshort.power
  rw [significand_value hn hs hdigits] at hrange ⊢
  rcases to_number_cases hinteger with hfloat | ⟨hfloat, hpower⟩
  · rw [hfloat, to_binary64_scaled _ hshort.written (by omega), sub_add_cancel,
      scale_by_ten_eq hshort.holds hfew hrange]
    rfl
  · rw [hfloat, hpower, zpow_zero, mul_one, ← Binary64.of_nat_eq_rounded]

/-! ## Zeros -/

/-- The powers of ten that are multiplied by are finite. -/
theorem ten_to_finite : ∀ n ≤ maxPower, (tenTo n).isInfinite = false := by
  decide +kernel

/-- A zero stays one at any power of ten. -/
theorem scale_zero (p : Int) : scaleByTen (.ofNat 0) p = some (.ofNat 0) := by
  have hzero : Binary64.ofNat 0 = .finite false 0 Binary64.minExponent := rfl
  have hmax : maxPower = 308 := rfl
  unfold scaleByTen
  split
  · split
    · rename_i hup hfits
      have hfinite := ten_to_finite p.toNat (by omega)
      rcases hten : tenTo p.toNat with ⟨negative, m, e⟩ | negative
      · have hproduct : (Binary64.ofNat 0).mulMagnitudes (.finite negative m e) = .ofNat 0 := by
          rw [hzero, Binary64.mulMagnitudes, Binary64.of_dyadic_eq_rounded, Nat.zero_mul,
            Nat.cast_zero, zero_mul, Binary64.round_zero]
        dsimp only
        rw [hproduct, hzero]
        rfl
      · rw [hten] at hfinite
        cases hfinite
    · rfl
  · split
    · rename_i hdown hfits
      have hratio (den : Nat) (e : Int) : (Binary64.ratioAt 0 den e).1 = 0 := by
        unfold Binary64.ratioAt
        split
        · rfl
        · exact Nat.zero_mul _
      have hquotient (x : Binary64) : (Binary64.ofNat 0).divMagnitudes x = .ofNat 0 := by
        rw [hzero]
        cases x with
        | finite negative m e =>
            unfold Binary64.divMagnitudes Binary64.nearest
            exact if_pos (hratio m _)
        | infinite negative => rfl
      rw [hquotient]
    · rw [hzero]
      rfl

/-- A numeral of zeros with a fraction or an exponent is a zero with its sign. -/
theorem to_number_zero {n : Numeral} (hn : ∀ d ∈ n.whole ++ n.fraction, d < 10)
    (hzero : n.magnitude = 0) (hinteger : ¬ n.IsInteger) :
    n.toNumber = some (.float (signed n.negative (.ofNat 0))) := by
  have hsignificand : n.significand = 0 := by
    have hnear := significand_near hn
    rw [hzero, sub_zero, zero_div, abs_nonpos_iff, mul_eq_zero] at hnear
    exact_mod_cast hnear.resolve_right (zpow_ne_zero _ (by norm_num))
  have hfloat (p : Int) : n.toBinary64? 0 p = some (signed n.negative (.ofNat 0)) := by
    unfold toBinary64?
    split
    · rw [scale_zero]
      rfl
    · dsimp only
      split
      · rfl
      · rw [scale_zero]
        rfl
  rcases to_number_cases hinteger with hnumber | ⟨hnumber, -⟩
  · rw [hnumber, hsignificand, hfloat]
    rfl
  · rw [hnumber, hsignificand]

end Rewards.Json.Numeral
