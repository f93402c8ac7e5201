import Rewards.Proofs.Decimal.Exchange

/-!
# Amounts that are sent

The text of an amount without zeros at its end is a JSON numeral of the same value, `numeral_value`
and `numeral_chars`. An amount of 15 digits in hundredths is sent as this text, `to_json_chars`: a
whole one is an integer, and the binary number of any other is the nearest one, whose shortest
digits are those of the amount. Such a numeral is short, so the same amount is received.
-/

namespace Rewards

open Json (Number Numeral digitChars)
open Json.Reader (Ends onlyNumber run_only_number)
open Binary64 (InRange rounded)

/-! ## Digits by value -/

/-- The decimal digits of a number by value, the last one last. -/
def digitValues (n : Nat) : List Nat := (Nat.toDigits 10 n).map Decimal.digitValue

/-- A digit of its own. -/
theorem digit_values_of_lt {n : Nat} (h : n < 10) : digitValues n = [n] := by
  have hdigit : ∀ d < 10, Decimal.digitValue (Nat.digitChar d) = d := by decide
  rw [digitValues, Nat.toDigits_of_lt_base h, List.map_singleton, hdigit n h]

/-- One digit more. -/
theorem digit_values_append {m d : Nat} (hm : 0 < m) (hd : d < 10) :
    digitValues (10 * m + d) = digitValues m ++ [d] := by
  rw [digitValues, ← Nat.toDigits_append_toDigits (by decide) hm hd, List.map_append, ← digitValues,
    ← digitValues, digit_values_of_lt hd]

/-- What the digits of a number are: they have its text, its value and its last digit, and there is
no zero before them unless the number is zero. -/
theorem digit_values_spec (n : Nat) :
    (∀ d ∈ digitValues n, d < 10) ∧ digitChars (digitValues n) = Nat.toDigits 10 n ∧
      Numeral.digitsValue (digitValues n) = n ∧
      ((digitValues n).head? = some 0 → (digitValues n).length = 1) ∧
      (digitValues n).getLast? = some (n % 10) := by
  induction n using Nat.base_induction 10 (by decide) with
  | single m hm =>
      rw [digit_values_of_lt hm, Nat.toDigits_of_lt_base hm, Nat.mod_eq_of_lt hm]
      refine ⟨by simpa using hm, rfl, by simp [Numeral.digitsValue], by simp, rfl⟩
  | digit m k hk hm ih =>
      obtain ⟨hds, hchars, hvalue, hhead, hlast⟩ := ih
      have hne : digitValues m ≠ [] := by
        intro hnil
        rw [hnil] at hlast
        cases hlast
      rw [digit_values_append hm hk]
      refine ⟨?_, ?_, ?_, ?_, ?_⟩
      · intro d hd
        rcases List.mem_append.mp hd with hd | hd
        · exact hds d hd
        · rwa [List.mem_singleton.mp hd]
      · rw [← Nat.toDigits_append_toDigits (by decide) hm hk, Nat.toDigits_of_lt_base hk, ← hchars,
          digitChars, List.map_append]
        rfl
      · rw [Numeral.digits_value_append, hvalue, List.length_singleton, pow_one, Nat.mul_comm]
        simp [Numeral.digitsValue]
      · intro hzero
        rw [List.head?_append_of_ne_nil _ hne] at hzero
        obtain ⟨d, hone⟩ := List.length_eq_one_iff.mp (hhead hzero)
        rw [hone] at hzero hvalue
        cases hzero
        rw [← hvalue] at hm
        exact absurd hm (by decide)
      · rw [List.getLast?_append, List.getLast?_singleton, Nat.mul_add_mod, Nat.mod_eq_of_lt hk]
        rfl

namespace Decimal

/-! ## Amounts without zeros at their end -/

/-- Dropping zeros keeps the value. -/
theorem value_normalize (a : Decimal) : a.normalize.value = a.value := by
  have hstrip (s : Nat) (c : Int) :
      ((stripZeros s c).1 : ℚ) / 10 ^ (stripZeros s c).2 = c / 10 ^ s := by
    induction s generalizing c with
    | zero => rfl
    | succ s ih =>
        unfold stripZeros
        split
        · rename_i hzero
          have hdivision : c = c / 10 * 10 := by omega
          rw [ih, pow_succ]
          conv_rhs => rw [hdivision]
          push_cast
          field_simp
        · rfl
  exact hstrip a.scale a.coefficient

/-- No zero is left at the end of a fraction. -/
theorem normalize_last (a : Decimal) :
    a.normalize.scale = 0 ∨ a.normalize.coefficient % 10 ≠ 0 := by
  have hstrip (s : Nat) (c : Int) : (stripZeros s c).2 = 0 ∨ (stripZeros s c).1 % 10 ≠ 0 := by
    induction s generalizing c with
    | zero => exact .inl rfl
    | succ s ih =>
        unfold stripZeros
        split
        · exact ih _
        · rename_i hlast
          exact .inr hlast
  exact hstrip a.scale a.coefficient

/-- The places that are left are needed. -/
theorem normalize_scale_le {a : Decimal} {places : Nat} {c : Int}
    (h : a.value * 10 ^ places = c) : a.normalize.scale ≤ places := by
  by_contra hmore
  obtain ⟨i, hi⟩ := Nat.exists_eq_add_of_lt (Nat.lt_of_not_le hmore)
  have hlast := (normalize_last a).resolve_left (by omega)
  rw [← value_normalize, value, hi, div_mul_eq_mul_div, div_eq_iff (by positivity), add_assoc,
    pow_add, mul_left_comm, mul_comm] at h
  have hsame := mul_left_cancel₀ (by positivity : (10 : ℚ) ^ places ≠ 0) h
  have hcoefficient : a.normalize.coefficient = c * 10 ^ (i + 1) := mod_cast hsame
  rw [hcoefficient, pow_succ, ← mul_assoc] at hlast
  exact hlast (Int.mul_emod_left _ 10)

/-! ## The numeral of an amount -/

/-- Zeros before digits do not change their value. -/
theorem digits_value_zeros (zeros : Nat) (ds : List Nat) :
    Numeral.digitsValue (List.replicate zeros 0 ++ ds) = Numeral.digitsValue ds := by
  induction zeros with
  | zero => rfl
  | succ zeros ih => exact ih

/-- The digits of an amount, with zeros before them if the places are more. -/
def paddedValues (a : Decimal) : List Nat :=
  List.replicate (a.scale + 1 - (digitValues a.coefficient.natAbs).length) 0 ++
    digitValues a.coefficient.natAbs

/-- The numeral of an amount, with a digit after the point for each place. -/
def numeral (a : Decimal) : Numeral where
  negative := decide (a.coefficient < 0)
  whole := a.paddedValues.take (a.paddedValues.length - a.scale)
  fraction := a.paddedValues.drop (a.paddedValues.length - a.scale)
  exponent := none

section Numeral

variable (a : Decimal)

/-- There is a digit before the point. -/
theorem scale_lt_length : a.scale < a.paddedValues.length := by
  rw [paddedValues, List.length_append, List.length_replicate]
  omega

/-- The fraction has the places of the amount. -/
theorem numeral_places : a.numeral.fraction.length = a.scale := by
  have hmore := a.scale_lt_length
  unfold numeral
  rw [List.length_drop]
  omega

/-- The digits around the point are those of the coefficient. -/
theorem numeral_digits :
    Numeral.digitsValue (a.numeral.whole ++ a.numeral.fraction) = a.coefficient.natAbs := by
  obtain ⟨-, -, hvalue, -⟩ := digit_values_spec a.coefficient.natAbs
  unfold numeral
  rw [List.take_append_drop, paddedValues, digits_value_zeros, hvalue]

/-- The numeral of an amount stands for its value. -/
theorem numeral_value : a.numeral.value = a.value := by
  have hcoefficient : a.coefficient =
      if decide (a.coefficient < 0) = true then -(a.coefficient.natAbs : Int)
      else a.coefficient.natAbs := by
    simp only [decide_eq_true_eq]
    split <;> omega
  have hwritten : a.numeral.written = 0 := rfl
  rw [value_of_parts hcoefficient rfl, Numeral.value, Numeral.magnitude, numeral_digits,
    numeral_places, hwritten, zero_sub, zpow_neg, zpow_natCast, div_eq_mul_inv]
  rfl

/-- The numeral of an amount follows the grammar. -/
theorem numeral_well_formed : a.numeral.IsWellFormed := by
  obtain ⟨hds, -, -, hhead, -⟩ := digit_values_spec a.coefficient.natAbs
  have hmore := a.scale_lt_length
  have hsmall : ∀ d ∈ a.paddedValues, d < 10 := by
    intro d hd
    rw [paddedValues, List.mem_append, List.mem_replicate] at hd
    rcases hd with ⟨-, rfl⟩ | hd
    · decide
    · exact hds d hd
  refine ⟨?_, fun d hd => hsmall d (List.mem_of_mem_take hd),
    fun d hd => hsmall d (List.mem_of_mem_drop hd), ?_, ?_⟩
  · exact List.ne_nil_of_length_pos (by rw [numeral, List.length_take]; omega)
  · rintro down ds ⟨⟩
  · -- A zero comes first only if the digits are fewer than the places, or the only digit is a zero.
    intro hzero
    unfold numeral at hzero ⊢
    rw [List.head?_take, if_neg (by omega)] at hzero
    rw [List.length_take]
    rcases Nat.lt_or_ge a.scale (digitValues a.coefficient.natAbs).length with hless | hge
    · have hsame : a.paddedValues = digitValues a.coefficient.natAbs := by
        rw [paddedValues, Nat.sub_eq_zero_of_le hless]
        rfl
      rw [hsame] at hzero hmore ⊢
      have hone := hhead hzero
      omega
    · rw [paddedValues, List.length_append, List.length_replicate]
      omega

/-- The last digit of a fraction is that of the coefficient. -/
theorem numeral_last (hscale : a.scale ≠ 0) :
    a.numeral.fraction.getLast? = some (a.coefficient.natAbs % 10) := by
  obtain ⟨-, -, -, -, hlast⟩ := digit_values_spec a.coefficient.natAbs
  have hmore := a.scale_lt_length
  have hne : digitValues a.coefficient.natAbs ≠ [] := by
    intro hnil
    rw [hnil] at hlast
    cases hlast
  unfold numeral
  rw [List.getLast?_drop, if_neg (by omega), paddedValues, List.getLast?_append_of_ne_nil _ hne,
    hlast]

/-- The text of an amount is that of its numeral. -/
theorem numeral_chars (mark : Char) (plus : Bool) : a.numeral.chars mark plus = a.chars := by
  obtain ⟨-, hchars, -⟩ := digit_values_spec a.coefficient.natAbs
  have hmore := a.scale_lt_length
  have hlength : (digitValues a.coefficient.natAbs).length =
      (Nat.toDigits 10 a.coefficient.natAbs).length := by
    rw [← hchars, digitChars, List.length_map]
  have hpadded :
      Text.paddedDigits (a.scale + 1) a.coefficient.natAbs = digitChars a.paddedValues := by
    rw [paddedValues, digitChars, List.map_append, List.map_replicate, Text.paddedDigits, hlength,
      ← hchars]
    rfl
  have hfraction : digitChars (a.paddedValues.drop (a.paddedValues.length - a.scale)) = [] ↔
      a.scale = 0 := by
    rw [digitChars, List.map_eq_nil_iff, List.drop_eq_nil_iff]
    omega
  unfold numeral
  rw [Numeral.chars, Numeral.exponentChars, List.append_nil, pointed]
  dsimp only
  rw [if_congr hfraction rfl rfl, digitChars, digitChars, List.map_take, List.map_drop, chars,
    hpadded, digitChars, List.length_map, withSign]
  simp only [decide_eq_true_eq, List.append_assoc]

end Numeral

/-! ## The text that is sent -/

/-- Digits with a few places are written with the point before the last of them. -/
theorem positional_chars {n places : Nat} (hn : n < 10 ^ 15) (hplaces : 0 < places ∧ places ≤ 2) :
    (⟨Nat.toDigits 10 n, -(places : Int)⟩ : Binary64.Digits).chars =
      (Text.paddedDigits (places + 1) n).take
          ((Text.paddedDigits (places + 1) n).length - places) ++
        '.' :: (Text.paddedDigits (places + 1) n).drop
          ((Text.paddedDigits (places + 1) n).length - places) := by
  have hshort : (Nat.toDigits 10 n).length ≤ 15 :=
    (Nat.length_toDigits_le_iff (by decide) (by decide)).mpr hn
  have hlength : 0 < (Nat.toDigits 10 n).length := Nat.length_toDigits_pos
  unfold Binary64.Digits.chars Text.paddedDigits
  simp only [Bool.and_eq_true, decide_eq_true_eq]
  rw [if_neg (by omega)]
  rcases Nat.lt_or_ge places (Nat.toDigits 10 n).length with hless | hge
  · rw [if_pos (by omega), Nat.sub_eq_zero_of_le hless, List.replicate_zero, List.nil_append]
    have hpoint : (-(places : Int) + (Nat.toDigits 10 n).length).toNat =
        (Nat.toDigits 10 n).length - places := by omega
    rw [hpoint]
  · rw [if_neg (by omega), if_pos (by omega)]
    obtain ⟨zeros, hzeros⟩ := Nat.exists_eq_add_of_le hge
    have hpoint : (-(-(places : Int) + (Nat.toDigits 10 n).length)).toNat = zeros := by omega
    have hpadding : places + 1 - (Nat.toDigits 10 n).length = zeros + 1 := by omega
    have hone : (List.replicate (zeros + 1) '0' ++ Nat.toDigits 10 n).length - places = 1 := by
      rw [List.length_append, List.length_replicate]
      omega
    rw [hpoint, hpadding, hone]
    rfl

/-- A whole amount that is not long is an integer with the same text. -/
theorem integer_chars {d : Decimal} (hwhole : d.scale = 0)
    (hsize : d.coefficient.natAbs < 10 ^ 13) :
    ∃ number, integer? d.coefficient = some number ∧ number.chars = d.chars := by
  have hshift : ((1 <<< 63 : Nat) : Int) = 2 ^ 63 := rfl
  have hpositive : 0 < (Nat.toDigits 10 d.coefficient.natAbs).length := Nat.length_toDigits_pos
  have hdigits : d.chars =
      (if d.coefficient < 0 then ['-'] else []) ++ Nat.toDigits 10 d.coefficient.natAbs := by
    have hpadding : 1 - (Nat.toDigits 10 d.coefficient.natAbs).length = 0 := by omega
    rw [chars, hwhole, if_pos rfl, Text.paddedDigits, Nat.zero_add, hpadding]
    simp
  unfold integer?
  rw [hshift, hdigits]
  rcases lt_or_ge d.coefficient 0 with hnegative | hpos
  · rw [if_neg (by omega), if_pos (by omega), if_pos hnegative]
    exact ⟨_, rfl, rfl⟩
  · have hsame : d.coefficient.toNat = d.coefficient.natAbs := by omega
    rw [if_pos hpos, if_pos (by omega), if_neg (by omega), hsame]
    exact ⟨_, rfl, rfl⟩

/-- The binary number of an amount in tenths or hundredths has the text of the amount. -/
theorem binary_chars {d : Decimal} (hfraction : 0 < d.scale) (hscale : d.scale ≤ 2)
    (hsize : d.coefficient.natAbs < 10 ^ 15) (hlast : d.coefficient.natAbs % 10 ≠ 0) :
    d.toBinary64.chars = d.chars := by
  have hrest : d.coefficient.natAbs % Nat.pow 10 d.scale ≠ 0 := by
    intro hzero
    have hdvd := (dvd_pow_self 10 hfraction.ne').trans (Nat.dvd_of_mod_eq_zero hzero)
    exact hlast (Nat.mod_eq_zero_of_dvd hdvd)
  have hvalue : |d.value| = d.coefficient.natAbs * 10 ^ (-(d.scale : Int)) := by
    rw [abs_value_eq, zpow_neg, zpow_natCast, div_eq_mul_inv]
  have hbinary : d.toBinary64 = Numeral.signed (decide (d.coefficient < 0))
      (rounded (d.coefficient.natAbs * 10 ^ (-(d.scale : Int)))) := by
    rw [toBinary64, if_neg hfraction.ne', binary_magnitude_eq hsize hscale hrest, ← hvalue,
      abs_value_eq, Numeral.signed]
    simp only [decide_eq_true_eq]
  have hpos : d.value ≠ 0 := by
    rw [← abs_ne_zero, abs_value_eq]
    have hne : (d.coefficient.natAbs : ℚ) ≠ 0 := mod_cast fun hzero => hlast (by rw [hzero])
    exact div_ne_zero hne (by positivity)
  obtain ⟨hlow, hhigh⟩ := abs_value_bounds hpos
  rw [hvalue] at hlow hhigh
  rw [hbinary, chars_rounded _ hsize hlast (Binary64.in_range_of_bounds hlow hhigh.le),
    positional_chars hsize ⟨hfraction, hscale⟩, chars, if_neg hfraction.ne', withSign]
  simp only [decide_eq_true_eq, List.append_assoc]

/-- An amount in hundredths that is not long is sent as its text without zeros at the end. -/
theorem to_json_chars {a : Decimal} (hscale : a.normalize.scale ≤ 2) (hsize : |a.value| < 10 ^ 13) :
    a.toJson.chars = a.normalize.chars := by
  have hlast := normalize_last a
  rw [← value_normalize, abs_value_eq, div_lt_iff₀ (by positivity)] at hsize
  unfold toJson toNumber
  rw [Json.Value.chars]
  dsimp only
  generalize a.normalize = d at *
  have hmagnitude : d.coefficient.natAbs < 10 ^ 13 * 10 ^ d.scale := mod_cast hsize
  rcases Nat.eq_zero_or_pos d.scale with hwhole | hfraction
  · rw [hwhole, Nat.pow_zero, Nat.mul_one] at hmagnitude
    obtain ⟨number, hnumber, hchars⟩ := integer_chars hwhole hmagnitude
    rw [if_pos hwhole, hnumber]
    exact hchars
  · have hpower : 10 ^ d.scale ≤ 10 ^ 2 := Nat.pow_le_pow_right (by decide) hscale
    have hne := hlast.resolve_left (by omega)
    rw [if_neg hfraction.ne']
    exact binary_chars hfraction hscale (by omega) (by omega)

/-- An amount in hundredths below `10 ^ 13` is sent as a plain numeral of its value, with no
exponent, no zero at the end of its fraction, and no point if it is whole. The amount that is read
from it is the same, wherever the numeral stands in a document. -/
theorem sent_amount_returns {a : Decimal} {hundredths : Int}
    (hplaces : a.value * 10 ^ 2 = hundredths) (hsize : |a.value| < 10 ^ 13) :
    ∃ n : Numeral, n.IsWellFormed ∧ n.exponent = none ∧ n.fraction.getLast? ≠ some 0 ∧
      ((∃ whole : Int, a.value = whole) → n.fraction = []) ∧
      (n.negative = true ↔ a.value < 0) ∧ n.value = a.value ∧
      a.toJson.chars = n.chars 'e' false ∧
      ∀ (expected : String) {rest : List UInt8}, Ends rest → ∃ number d,
        StateT.run (onlyNumber expected) (Text.bytes a.toJson.chars ++ rest) = .ok (number, rest) ∧
          ofNumber number = .ok d ∧ d.value = a.value := by
  have hscale := normalize_scale_le hplaces
  have hlast := normalize_last a
  have htext : a.toJson.chars = a.normalize.numeral.chars 'e' false :=
    (to_json_chars hscale hsize).trans (a.normalize.numeral_chars 'e' false).symm
  have hvalue : a.normalize.numeral.value = a.value :=
    a.normalize.numeral_value.trans (value_normalize a)
  have hshort : a.normalize.numeral.IsShort := by
    rw [← value_normalize, abs_value_eq, div_lt_iff₀ (by positivity)] at hsize
    have hmagnitude : a.normalize.coefficient.natAbs < 10 ^ 13 * 10 ^ a.normalize.scale :=
      mod_cast hsize
    have hpower : 10 ^ a.normalize.scale ≤ 10 ^ 2 := Nat.pow_le_pow_right (by decide) hscale
    refine Numeral.short_of_digits rfl ?_ ?_
    · rw [numeral_digits]
      omega
    · rw [numeral_places]
      omega
  refine ⟨a.normalize.numeral, numeral_well_formed _, rfl, ?_, ?_, ?_, hvalue, htext, ?_⟩
  · rcases Nat.eq_zero_or_pos a.normalize.scale with hwhole | hpos
    · rw [List.eq_nil_of_length_eq_zero (a.normalize.numeral_places.trans hwhole)]
      exact Option.some_ne_none 0 |>.symm
    · have hne := hlast.resolve_left hpos.ne'
      rw [numeral_last _ hpos.ne', ne_eq, Option.some_inj]
      omega
  · rintro ⟨whole, hwhole⟩
    have hunits : a.value * 10 ^ 0 = whole := by rw [hwhole, pow_zero, mul_one]
    have hnone := normalize_scale_le hunits
    exact List.eq_nil_of_length_eq_zero (by rw [numeral_places]; omega)
  · rw [← value_normalize, ← is_negative_iff]
    exact Iff.rfl
  · intro expected rest hrest
    obtain ⟨number, d, hnumber, hread, hd⟩ :=
      exact_of_numeral (numeral_well_formed _) hvalue.symm (.inr (.inr hshort))
    refine ⟨number, d, ?_, hread, hd⟩
    rw [htext]
    exact run_only_number ⟨'e', false, .inl rfl, rfl⟩ hrest (numeral_well_formed _) hnumber expected

/-- A negative amount with a zero at its end, as a whole document. -/
theorem sent_amount_returns_negative :
    ∃ n : Numeral, n.fraction.getLast? ≠ some 0 ∧ n.negative = true ∧ n.value = -(5 / 4) ∧
      (⟨-1250, 3, by decide, by decide⟩ : Decimal).toJson.chars = n.chars 'e' false ∧
      ∃ number d, StateT.run (onlyNumber "a JSON number")
          (Text.bytes (⟨-1250, 3, by decide, by decide⟩ : Decimal).toJson.chars ++ []) =
            .ok (number, []) ∧
        ofNumber number = .ok d ∧ d.value = -(5 / 4) := by
  have hvalue : (⟨-1250, 3, by decide, by decide⟩ : Decimal).value = -(5 / 4) := by
    rw [value]
    norm_num
  have hhundredths :
      (⟨-1250, 3, by decide, by decide⟩ : Decimal).value * 10 ^ 2 = (-125 : Int) := by
    rw [hvalue]
    norm_num
  have hend : Ends [] := by rintro b ⟨⟩
  obtain ⟨n, -, -, hlast, -, hnegative, hn, htext, hread⟩ :=
    sent_amount_returns hhundredths (by rw [hvalue, abs_neg]; norm_num)
  have hback := hread "a JSON number" hend
  rw [hvalue] at hnegative hn hback
  exact ⟨n, hlast, hnegative.mpr (by norm_num), hn, htext, hback⟩

example : (⟨-1250, 3, by decide, by decide⟩ : Decimal).toJson.chars = "-1.25".toList := by
  decide +kernel

end Decimal

end Rewards
