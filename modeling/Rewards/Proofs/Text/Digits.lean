import Rewards.Text.Natural

/-!
# Digits of natural numbers

The digits of a number, with zeros before them or without, have its value, `value_padded`. So a
number is read from its digits, `natural_digits`.
-/

namespace Rewards.Text

/-- The digits of a number are digits. -/
theorem is_digit_of_mem {n : Nat} {c : Char} (h : c ∈ Nat.toDigits 10 n) : c.isDigit = true :=
  Nat.isDigit_of_mem_toDigits (by decide) (by decide) h

/-- The value of digits is that of the number that they write. -/
theorem digits_value_eq (cs : List Char) : digitsValue cs = Nat.ofDigitChars 10 cs 0 := by
  simp only [digitsValue, Nat.ofDigitChars_eq_foldl, Nat.mul_comm]

/-- A number is read from its digits. -/
theorem natural_digits {n limit : Nat} (h : n < limit) :
    natural? limit (Nat.toDigits 10 n) = some n ∧
      natural? limit ('+' :: Nat.toDigits 10 n) = some n := by
  have hall : (Nat.toDigits 10 n).all Char.isDigit = true :=
    List.all_eq_true.mpr fun c hc => is_digit_of_mem hc
  have hvalue : digitsValue (Nat.toDigits 10 n) = n := by
    rw [digits_value_eq, Nat.ofDigitChars_ten_toDigits]
  have hread : (if (Nat.toDigits 10 n).isEmpty || !(Nat.toDigits 10 n).all Char.isDigit then none
      else if digitsValue (Nat.toDigits 10 n) < limit then
        some (digitsValue (Nat.toDigits 10 n)) else none) = some n := by
    rw [hall, hvalue, if_pos h]
    obtain ⟨c, cs, hcons⟩ := List.exists_cons_of_ne_nil (Nat.toDigits_ne_nil (n := n) (b := 10))
    rw [hcons]
    rfl
  refine ⟨?_, hread⟩
  unfold natural?
  split
  · rename_i rest heq
    rw [heq, List.all_cons, Bool.and_eq_true] at hall
    exact absurd hall.1 (by decide)
  · exact hread

/-- A natural number is read from digits with an optional plus sign before them. -/
theorem natural_eq_some_iff {limit n : Nat} {cs : List Char} :
    natural? limit cs = some n ↔
      ∃ sign digits, (sign = [] ∨ sign = ['+']) ∧ cs = sign ++ digits ∧ digits ≠ [] ∧
        digits.all Char.isDigit = true ∧ digitsValue digits = n ∧ n < limit := by
  have hread (digits : List Char) :
      (if digits.isEmpty || !digits.all Char.isDigit then none
        else if digitsValue digits < limit then some (digitsValue digits)
        else none) = some n ↔
      digits ≠ [] ∧ digits.all Char.isDigit = true ∧ digitsValue digits = n ∧ n < limit := by
    cases digits with
    | nil => simp
    | cons c rest =>
        simp only [List.isEmpty_cons]
        simp
        grind
  unfold natural?
  rw [hread]
  constructor
  · intro h
    split at h
    · rename_i rest
      exact ⟨['+'], rest, .inr rfl, rfl, h⟩
    · exact ⟨[], cs, .inl rfl, rfl, h⟩
  · rintro ⟨sign, digits, rfl | rfl, rfl, h⟩
    · split
      · -- A plus sign is no digit.
        rename_i rest
        cases h.2.1
      · exact h
    · exact h

/-! ## Numbers with leading zeros -/

section Padded

variable {length n : Nat}

/-- All characters of a padded number are digits. -/
theorem digit_of_padded {c : Char} (h : c ∈ paddedDigits length n) : c.isDigit = true := by
  rcases List.mem_append.mp h with hzero | hdigit
  · rw [List.eq_of_mem_replicate hzero]
    rfl
  · exact is_digit_of_mem hdigit

/-- A padded number has the length that it is padded to, if it fits. -/
theorem length_padded (hlength : 0 < length) (h : n < Nat.pow 10 length) :
    (paddedDigits length n).length = length := by
  have hdigits : (Nat.toDigits 10 n).length ≤ length :=
    (Nat.length_toDigits_le_iff (by decide) hlength).mpr h
  rw [paddedDigits, List.length_append, List.length_replicate]
  omega

/-- The value of a padded number. -/
theorem value_padded (length n : Nat) : digitsValue (paddedDigits length n) = n := by
  rw [digits_value_eq, paddedDigits, Nat.ofDigitChars_append, Nat.ofDigitChars_replicate_zero,
    Nat.mul_zero, Nat.ofDigitChars_ten_toDigits]

/-- A padded number begins with a digit. -/
theorem padded_cons (length n : Nat) :
    ∃ d ds, paddedDigits length n = d :: ds ∧ d.isDigit = true := by
  have hnonempty : paddedDigits length n ≠ [] :=
    fun hempty => Nat.toDigits_ne_nil (List.append_eq_nil_iff.mp hempty).2
  obtain ⟨d, ds, hdigits⟩ := List.exists_cons_of_ne_nil hnonempty
  refine ⟨d, ds, hdigits, ?_⟩
  have hd : d ∈ paddedDigits length n := by
    rw [hdigits]
    exact List.mem_cons_self
  exact digit_of_padded hd

end Padded

end Rewards.Text
