import Mathlib.Data.Nat.Factorization.Basic
import Rewards.Decimal.Json
import Rewards.Proofs.Binary64.Shortest
import Rewards.Proofs.Decimal.Binary
import Rewards.Proofs.Decimal.Texts
import Rewards.Proofs.Json.Conversion
import Rewards.Proofs.Json.Numerals

/-!
# Amounts that are received

An amount is received as a JSON number. A numeral that is no integer becomes a binary number, and
the amount is read from the digits of this one. All roundings on the way together are one part in
`2 ^ 50` at most, and a half of the last of 28 places, `near_of_numeral`. Numerals of few digits are
received exactly, `exact_of_numeral`.
-/

namespace Rewards

open Json (Number Numeral)
open Json.Reader (Ends onlyNumber run_only_number)
open Binary64 (InRange rounded)

namespace Decimal

/-! ## Magnitudes of amounts -/

/-- An amount has less than 96 bits, and is not less than the last of its places unless it is
nothing. -/
theorem abs_value_bounds {a : Decimal} (h : a.value ≠ 0) :
    1 / 10 ^ 28 ≤ |a.value| ∧ |a.value| < 2 ^ 96 := by
  have hcoefficient : 0 < a.coefficient.natAbs := by
    refine Int.natAbs_pos.mpr fun hzero => h ?_
    rw [value, hzero, Int.cast_zero, zero_div]
  have hlow : (1 : ℚ) ≤ a.coefficient.natAbs := mod_cast hcoefficient
  have hhigh : (a.coefficient.natAbs : ℚ) < 2 ^ 96 := mod_cast a.coefficient_lt
  have hone : (1 : ℚ) ≤ 10 ^ a.scale := one_le_pow₀ (by norm_num)
  have hplaces : (10 : ℚ) ^ a.scale ≤ 10 ^ 28 := pow_le_pow_right₀ (by norm_num) a.scale_le
  rw [abs_value_eq]
  exact ⟨div_le_div₀ (by linarith) hlow (by linarith) hplaces,
    (div_le_self (by linarith) hone).trans_lt hhigh⟩

/-- The digits of an amount without the zeros at their end, and the power of ten of the last one. -/
theorem exists_digits {a : Decimal} (h : a.value ≠ 0) :
    ∃ (s : Nat) (k : Int), s % 10 ≠ 0 ∧ -28 ≤ k ∧ |a.value| = s * 10 ^ k := by
  have hcoefficient : a.coefficient.natAbs ≠ 0 := by
    refine Int.natAbs_ne_zero.mpr fun hzero => h ?_
    rw [value, hzero, Int.cast_zero, zero_div]
  obtain ⟨i, s, hlast, hdigits⟩ :=
    Nat.exists_eq_pow_mul_and_not_dvd hcoefficient 10 (by decide)
  have hscale := a.scale_le
  refine ⟨s, i - a.scale, fun hzero => hlast (Nat.dvd_of_mod_eq_zero hzero), by omega, ?_⟩
  rw [abs_value_eq, hdigits, zpow_sub₀ (by norm_num), zpow_natCast, zpow_natCast]
  push_cast
  ring

/-- The text of a binary number has the digits that are found for it. -/
theorem signed_chars (negative : Bool) {m : Nat} {e : Int} (hm : 2 ^ 52 ≤ m) :
    (Numeral.signed negative (.finite false m e)).chars =
      withSign negative (Binary64.shortestDigits m e).trimmed.chars := by
  have hne : m ≠ 0 := by omega
  cases negative with
  | true =>
      show (Binary64.finite true m e).chars = _
      rw [Binary64.chars, if_neg hne]
      rfl
  | false =>
      show (Binary64.finite false m e).chars = _
      rw [Binary64.chars, if_neg hne]
      rfl

/-- The text of the binary number nearest to a decimal fraction of 15 digits. -/
theorem chars_rounded (negative : Bool) {s : Nat} {k : Int} (hs : s < 10 ^ 15) (hlast : s % 10 ≠ 0)
    (hrange : InRange (s * 10 ^ k)) :
    (Numeral.signed negative (rounded (s * 10 ^ k))).chars =
      withSign negative (⟨Nat.toDigits 10 s, k⟩ : Binary64.Digits).chars := by
  obtain ⟨m, e, heq, hnearest⟩ := Binary64.exists_nearest hrange
  rw [heq, signed_chars negative hnearest.low, Binary64.shortest_trimmed hs hlast hnearest]

/-- The amount of a number is read from its characters. -/
theorem of_number_of_chars {number : Number} {d : Decimal} (h : readChars number.chars = .ok d) :
    ofNumber number = .ok d := by
  rw [ofNumber, h]

/-- An amount of 15 digits is read from the binary number nearest to it. -/
theorem of_number_nearest {a : Decimal} (hpos : a.value ≠ 0) {s : Nat} {j : Int} (hs : s < 10 ^ 15)
    (ha : |a.value| = s * 10 ^ j) (negative : Bool) :
    ∃ d, ofNumber (.float (Numeral.signed negative (rounded |a.value|))) = .ok d ∧
      d.value = (if negative then -1 else 1) * |a.value| := by
  obtain ⟨hlow, hhigh⟩ := abs_value_bounds hpos
  obtain ⟨t, k, hlast, hk, hdigits⟩ := exists_digits hpos
  have ht : t < 10 ^ 15 := by
    obtain ⟨i, hi, -⟩ := Binary64.digits_of_eq hlast (ha.symm.trans hdigits)
    rw [hi] at hs
    exact (Nat.le_mul_of_pos_right t (Nat.pow_pos (by decide))).trans_lt hs
  have hrange := Binary64.in_range_of_bounds hlow hhigh.le
  rw [hdigits] at hrange hlow hhigh ⊢
  obtain ⟨d, hread, hnear⟩ := read_digits negative (ht.trans (by decide)) hlow hhigh
  have hsigned : (if negative then -1 else 1) * ((t : ℚ) * 10 ^ k) =
      ((if negative then -t else t : Int) : ℚ) * 10 ^ k := by
    cases negative with
    | true => simp
    | false => simp
  refine ⟨d, of_number_of_chars ?_, ?_⟩
  · rw [Number.chars, chars_rounded negative ht hlast hrange, hread]
  · rw [hsigned] at hnear ⊢
    exact value_of_near hk hnear

/-- A number in the range of amounts is read from the binary number nearest to one that is close to
it. -/
theorem of_number_near (negative : Bool) {p q : ℚ} (hlow : 2 / 10 ^ 28 ≤ p)
    (hhigh : p ≤ 2 ^ 96 - 2 ^ 46) (hnear : |q - p| ≤ p / 2 ^ 51) :
    ∃ d, ofNumber (.float (Numeral.signed negative (rounded q))) = .ok d ∧
      |d.value - (if negative then -1 else 1) * p| ≤ p / 2 ^ 50 + 1 / (2 * 10 ^ 28) := by
  have hrange : InRange q :=
    Binary64.in_range_of_near (by linarith) (by linarith) (hnear.trans (by linarith))
  obtain ⟨m, e, heq, hnearest⟩ := Binary64.exists_nearest hrange
  obtain ⟨s, k, hdigits, -, hs, hshortest⟩ := Binary64.trimmed_near hnearest
  have hrounded := hnearest.relative_error
  -- The digits are as close to the number as the three roundings together allow.
  have hclose : |(s : ℚ) * 10 ^ k - p| ≤ p / 2 ^ 50 := by
    generalize (m : ℚ) * 2 ^ e = x at hrounded hshortest
    rw [abs_le] at hnear hrounded hshortest ⊢
    constructor <;> linarith
  obtain ⟨hbelow, habove⟩ := abs_le.mp hclose
  obtain ⟨d, hread, hd⟩ := read_digits negative (k := k) hs (by linarith) (by linarith)
  refine ⟨d, of_number_of_chars ?_, ?_⟩
  · rw [Number.chars, heq, signed_chars negative hnearest.low, hdigits, hread]
  · have hsign : |(if negative then (-1 : ℚ) else 1)| = 1 := by
      cases negative <;> simp
    calc |d.value - (if negative then -1 else 1) * p|
        ≤ |d.value - (if negative then -1 else 1) * (s * 10 ^ k)| +
          |(if negative then -1 else 1) * (s * 10 ^ k) - (if negative then -1 else 1) * p| :=
            abs_sub_le _ _ _
      _ = |d.value - (if negative then -1 else 1) * (s * 10 ^ k)| + |(s : ℚ) * 10 ^ k - p| := by
          rw [← mul_sub, abs_mul, hsign, one_mul]
      _ ≤ 1 / (2 * 10 ^ 28) + p / 2 ^ 50 := add_le_add hd hclose
      _ = p / 2 ^ 50 + 1 / (2 * 10 ^ 28) := add_comm _ _

/-- A whole amount is read from its digits. -/
theorem read_integer (negative : Bool) {n : Nat} (hn : n < bound) :
    ∃ d, readChars (withSign negative (Nat.toDigits 10 n)) = .ok d ∧
      d.value = (if negative then -1 else 1) * n := by
  have hdigits : ∀ c ∈ Nat.toDigits 10 n ++ [], c.isDigit = true := by
    rw [List.append_nil]
    exact fun c => Text.is_digit_of_mem
  have hread := read_positional negative hdigits Nat.toDigits_ne_nil
    (by rw [List.append_nil, Nat.ofDigitChars_ten_toDigits]) hn (Nat.zero_le _)
  rwa [pointed, if_pos rfl, List.append_nil, List.length_nil, pow_zero, div_one] at hread

/-- Nothing is read from a zero of either sign. -/
theorem of_number_zero (negative : Bool) :
    ∃ d, ofNumber (.float (Numeral.signed negative (.ofNat 0))) = .ok d ∧ d.value = 0 := by
  cases negative with
  | true => exact ⟨⟨0, 1, by decide, by decide⟩, rfl, by simp [value]⟩
  | false => exact ⟨⟨0, 1, by decide, by decide⟩, rfl, by simp [value]⟩

/-! ## Numerals -/

/-- The value of a numeral, by its sign. -/
theorem abs_numeral_value (n : Numeral) : |n.value| = n.magnitude := by
  have hpos : 0 ≤ n.magnitude := by
    rw [Numeral.magnitude]
    positivity
  rw [Numeral.value, abs_mul, abs_of_nonneg hpos]
  cases n.negative <;> simp

/-- An integer of 64 bits is an amount. -/
theorem of_number_integer {n : Numeral} (h : n.IsInteger) :
    ∃ d, ofNumber (if n.negative = false then .natural (Numeral.digitsValue n.whole)
      else if Numeral.digitsValue n.whole = 0 then .float (Binary64.ofNat 0).neg
      else .negative (Numeral.digitsValue n.whole)) = .ok d ∧ d.value = n.value := by
  obtain ⟨hfraction, hexponent, hfits⟩ := h
  have hmagnitude : n.magnitude = Numeral.digitsValue n.whole := by
    rw [Numeral.magnitude, Numeral.written, hexponent, hfraction, List.append_nil]
    simp
  have hbound : Numeral.digitsValue n.whole < bound := by
    have hlimit : 2 ^ 64 < bound := by decide
    split at hfits <;> omega
  obtain ⟨d, hread, hd⟩ := read_integer n.negative hbound
  rw [Numeral.value, hmagnitude]
  cases hnegative : n.negative with
  | false =>
      rw [hnegative] at hread hd
      exact ⟨d, of_number_of_chars hread, hd⟩
  | true =>
      rw [hnegative] at hread hd
      rw [if_neg Bool.noConfusion]
      split
      · rename_i hzero
        obtain ⟨d, hread, hd⟩ := of_number_zero true
        refine ⟨d, hread, ?_⟩
        rw [hd, hzero, Nat.cast_zero, mul_zero]
      · exact ⟨d, of_number_of_chars hread, hd⟩

/-- An amount is read exactly from a numeral that is an integer of 64 bits, a zero, or short. -/
theorem exact_of_numeral {n : Numeral} (hn : n.IsWellFormed) {a : Decimal} (ha : a.value = n.value)
    (hexact : n.IsInteger ∨ a.value = 0 ∨ n.IsShort) :
    ∃ number d, n.toNumber = some number ∧ ofNumber number = .ok d ∧ d.value = a.value := by
  have hdigits : ∀ d ∈ n.whole ++ n.fraction, d < 10 := fun d hd =>
    (List.mem_append.mp hd).elim (hn.whole d) (hn.fraction d)
  by_cases hinteger : n.IsInteger
  · obtain ⟨d, hread, hd⟩ := of_number_integer hinteger
    exact ⟨_, d, Numeral.to_number_integer hinteger, hread, hd.trans ha.symm⟩
  by_cases hzero : a.value = 0
  · have hmagnitude : n.magnitude = 0 := by rw [← abs_numeral_value, ← ha, hzero, abs_zero]
    obtain ⟨d, hread, hd⟩ := of_number_zero n.negative
    exact ⟨_, d, Numeral.to_number_zero hdigits hmagnitude hinteger, hread, hd.trans hzero.symm⟩
  · have hshort := (hexact.resolve_left hinteger).resolve_left hzero
    obtain ⟨s, i, hs, hvalue⟩ := hshort.digits
    have hmagnitude : |a.value| = s * 10 ^ (i + (n.written - n.fraction.length)) := by
      rw [ha, abs_numeral_value, Numeral.magnitude, hvalue, zpow_add₀ (by norm_num), zpow_natCast]
      push_cast
      ring
    obtain ⟨hlow, hhigh⟩ := abs_value_bounds hzero
    have hrange := Binary64.in_range_of_bounds hlow hhigh.le
    obtain ⟨d, hread, hd⟩ := of_number_nearest hzero hs hmagnitude n.negative
    rw [ha, abs_numeral_value] at hrange hread hd
    exact ⟨_, d, Numeral.to_number_nearest hdigits hshort hinteger hrange, hread, hd.trans ha.symm⟩

/-- An amount is read from every numeral between the least two and the largest amounts, with an
error of one part in `2 ^ 50` and a half of the last place. -/
theorem near_of_numeral {n : Numeral} (hn : n.IsWellFormed) (hwritten : n.written.natAbs < 2 ^ 31)
    (hlow : 2 / 10 ^ 28 ≤ |n.value|) (hhigh : |n.value| ≤ 2 ^ 96 - 2 ^ 46) :
    ∃ number d, n.toNumber = some number ∧ ofNumber number = .ok d ∧
      |d.value - n.value| ≤ |n.value| / 2 ^ 50 + 1 / (2 * 10 ^ 28) := by
  have hdigits : ∀ d ∈ n.whole ++ n.fraction, d < 10 := fun d hd =>
    (List.mem_append.mp hd).elim (hn.whole d) (hn.fraction d)
  by_cases hinteger : n.IsInteger
  · obtain ⟨d, hread, hd⟩ := of_number_integer hinteger
    refine ⟨_, d, Numeral.to_number_integer hinteger, hread, ?_⟩
    rw [hd, sub_self, abs_zero]
    positivity
  · rw [abs_numeral_value] at hlow hhigh ⊢
    obtain ⟨q, hnumber, hnear⟩ := Numeral.to_number_near hdigits hwritten hinteger hlow hhigh
    obtain ⟨d, hread, hd⟩ := of_number_near n.negative hlow hhigh hnear
    exact ⟨_, d, hnumber, hread, hd⟩

/-- What is received for an amount that is written as a JSON number, wherever it stands in a
document. It is the amount itself if the numeral is an integer of 64 bits, a zero, or short: it has
15 digits before its zeros, and the digits that 64 bits hold are a binary number, with a power of
ten up to the 22nd. For other numerals it is off by one part in `2 ^ 50` and a half of the last
place at most. This does not hold of the least amount and of the largest ones, some of which are not
received at all. -/
theorem received_amount {n : Numeral} (hn : n.IsWellFormed) {cs : List Char} (hcs : n.IsText cs)
    {a : Decimal} (ha : a.value = n.value) (expected : String) {rest : List UInt8}
    (hrest : Ends rest) :
    (n.IsInteger ∨ a.value = 0 ∨ n.IsShort →
      ∃ number d, StateT.run (onlyNumber expected) (Text.bytes cs ++ rest) = .ok (number, rest) ∧
        ofNumber number = .ok d ∧ d.value = a.value) ∧
    (n.written.natAbs < 2 ^ 31 → 2 / 10 ^ 28 ≤ |a.value| → |a.value| ≤ 2 ^ 96 - 2 ^ 46 →
      ∃ number d, StateT.run (onlyNumber expected) (Text.bytes cs ++ rest) = .ok (number, rest) ∧
        ofNumber number = .ok d ∧
        |d.value - a.value| ≤ |a.value| / 2 ^ 50 + 1 / (2 * 10 ^ 28)) := by
  constructor
  · intro hexact
    obtain ⟨number, d, hnumber, hread, hd⟩ := exact_of_numeral hn ha hexact
    exact ⟨number, d, run_only_number hcs hrest hn hnumber expected, hread, hd⟩
  · intro hwritten hlow hhigh
    rw [ha] at hlow hhigh ⊢
    obtain ⟨number, d, hnumber, hread, hd⟩ := near_of_numeral hn hwritten hlow hhigh
    exact ⟨number, d, run_only_number hcs hrest hn hnumber expected, hread, hd⟩

/-- The least number of hundredths that is no binary number is `2 ^ 53 + 1`. -/
def longNumeral : Numeral := ⟨false, [9, 0, 0, 7, 1, 9, 9, 2, 5, 4, 7, 4, 0, 9], [9, 3], none⟩

theorem long_numeral_well_formed : longNumeral.IsWellFormed :=
  ⟨by decide, by decide, by decide, by rintro _ _ ⟨⟩, by decide⟩

theorem long_numeral_text : longNumeral.IsText "90071992547409.93".toList :=
  ⟨'e', false, .inl rfl, by decide +kernel⟩

theorem long_numeral_value : longNumeral.value = (2 ^ 53 + 1) / 100 := by
  norm_num [longNumeral, Numeral.value, Numeral.magnitude, Numeral.digitsValue, Numeral.written]

/-- An amount of few digits with an exponent, and one of 16 digits, both before a comma. -/
theorem received_amount_twice :
    (∃ number d, StateT.run (onlyNumber "a JSON number")
        (Text.bytes "1.2500E+3".toList ++ [Json.byte ',']) = .ok (number, [Json.byte ',']) ∧
      ofNumber number = .ok d ∧ d.value = 1250) ∧
    ∃ number d, StateT.run (onlyNumber "a JSON number")
        (Text.bytes "90071992547409.93".toList ++ [Json.byte ',']) =
          .ok (number, [Json.byte ',']) ∧
      ofNumber number = .ok d ∧
        |d.value - (2 ^ 53 + 1) / 100| ≤ (2 ^ 53 + 1) / 100 / 2 ^ 50 + 1 / (2 * 10 ^ 28) := by
  have hcomma : Ends [Json.byte ','] := by
    rintro b ⟨⟩
    decide
  constructor
  · have hwellFormed : (⟨false, [1], [2, 5, 0, 0], some (false, [3])⟩ : Numeral).IsWellFormed := by
      refine ⟨by decide, by decide, by decide, ?_, by decide⟩
      rintro down ds ⟨⟩
      decide
    have htext : (⟨false, [1], [2, 5, 0, 0], some (false, [3])⟩ : Numeral).IsText
        "1.2500E+3".toList := ⟨'E', true, .inr rfl, by decide +kernel⟩
    have hamount : (⟨1250, 0, by decide, by decide⟩ : Decimal).value =
        (⟨false, [1], [2, 5, 0, 0], some (false, [3])⟩ : Numeral).value := by
      norm_num [value, Numeral.value, Numeral.magnitude, Numeral.digitsValue, Numeral.written]
    have hshort : (⟨false, [1], [2, 5, 0, 0], some (false, [3])⟩ : Numeral).IsShort :=
      ⟨⟨125, 2, by decide, by decide⟩, ⟨3125, 2, by decide, by decide⟩, by decide, by decide⟩
    have hvalue : (⟨1250, 0, by decide, by decide⟩ : Decimal).value = 1250 := by norm_num [value]
    have hreceived :=
      (received_amount hwellFormed htext hamount "a JSON number" hcomma).1 (.inr (.inr hshort))
    rwa [hvalue] at hreceived
  · have hvalue : (⟨2 ^ 53 + 1, 2, by decide, by decide⟩ : Decimal).value = (2 ^ 53 + 1) / 100 := by
      norm_num [value]
    have hreceived := (received_amount long_numeral_well_formed long_numeral_text
      (hvalue.trans long_numeral_value.symm) "a JSON number" hcomma).2 (by decide)
      (by rw [hvalue]; norm_num) (by rw [hvalue]; norm_num)
    rwa [hvalue, abs_of_pos (by norm_num : (0 : ℚ) < (2 ^ 53 + 1) / 100)] at hreceived

/-- Of an amount of 16 digits a hundredth may be lost: 90071992547409.93 is read as
90071992547409.92. -/
theorem hundredth_lost :
    ¬ ∀ (n : Numeral) (cs : List Char) (a : Decimal), n.IsWellFormed → n.IsText cs →
      a.value = n.value → ∃ number d,
        StateT.run (onlyNumber "a JSON number") (Text.bytes cs) = .ok (number, []) ∧
          ofNumber number = .ok d ∧ d.value = n.value := by
  intro hclaim
  have hnumber : longNumeral.toNumber = some (.float (.finite false 5764607523034235 (-6))) := by
    decide +kernel
  have hread : ofNumber (.float (.finite false 5764607523034235 (-6))) =
      .ok ⟨2 ^ 53, 2, by decide, by decide⟩ := rfl
  obtain ⟨number, d, hrun, hd, hsame⟩ := hclaim _ _ ⟨2 ^ 53 + 1, 2, by decide, by decide⟩
    long_numeral_well_formed long_numeral_text (by rw [long_numeral_value]; norm_num [value])
  have hend : Ends [] := by rintro b ⟨⟩
  have hnumberRun :=
    run_only_number long_numeral_text hend long_numeral_well_formed hnumber "a JSON number"
  rw [List.append_nil] at hnumberRun
  rw [hnumberRun] at hrun
  cases hrun
  rw [hread] at hd
  cases hd
  rw [long_numeral_value] at hsame
  norm_num [value] at hsame

end Decimal

end Rewards
