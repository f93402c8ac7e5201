import Rewards.Proofs.Order.Sums
import Rewards.Proofs.Text.Blanks

/-!
# Texts of order numbers

What comes of a text that is read as an order number is told by its Luhn sum, `parse_cases`. The
text of a number is read as that number. Leading zeros add nothing to a sum, so a number with more
of them is a number too, but another one, `OrderNumber.padded_injective`.
-/

namespace Rewards

/-! ## Leading zeros -/

namespace Luhn

/-- Zeros add nothing to a sum. -/
theorem sum_from_right_zeros (isDoubled : Bool) (count : Nat) :
    sumFromRight isDoubled (List.replicate count 0) = 0 := by
  induction count generalizing isDoubled with
  | zero => rfl
  | succ count ih =>
      rw [List.replicate_succ, sumFromRight, ih]
      cases isDoubled <;> rfl

/-- Zeros at the left end, which are the last to be added, change nothing. -/
theorem sum_from_right_append_zeros (isDoubled : Bool) (digits : List Nat) (count : Nat) :
    sumFromRight isDoubled (digits ++ List.replicate count 0) = sumFromRight isDoubled digits := by
  induction digits generalizing isDoubled with
  | nil => exact sum_from_right_zeros isDoubled count
  | cons d digits ih => rw [List.cons_append, sumFromRight, sumFromRight, ih]

/-- Zeros before digits add nothing to their sum. -/
theorem sum_zeros (cs : List Char) (count : Nat) :
    sum ((List.replicate count '0' ++ cs).map digitValue) = sum (cs.map digitValue) := by
  have hzero : digitValue '0' = 0 := rfl
  rw [sum, sum, List.map_append, List.map_replicate, hzero, List.reverse_append,
    List.reverse_replicate, sum_from_right_append_zeros]

/-- Digits are digits with zeros before them. -/
theorem IsDigits.zeros {cs : List Char} (h : IsDigits cs) (count : Nat) :
    IsDigits (List.replicate count '0' ++ cs) := by
  refine ⟨List.append_ne_nil_of_right_ne_nil _ h.some, ?_⟩
  rw [List.all_append, h.digits, Bool.and_true, List.all_eq_true]
  intro c hc
  rw [List.eq_of_mem_replicate hc]
  rfl

end Luhn

namespace OrderNumber

open Luhn

/-- A number consists of digits. -/
theorem is_digits (number : OrderNumber) : IsDigits number.text.toList :=
  digits_of_check number.isLuhn

/-- A number with further zeros before it. -/
def padded (number : OrderNumber) (zeros : Nat) : OrderNumber where
  text := String.ofList (List.replicate zeros '0' ++ number.text.toList)
  isLuhn := by
    have hdigits := number.is_digits.zeros zeros
    rw [← String.toList_ofList (l := List.replicate zeros '0' ++ number.text.toList)] at hdigits
    rw [check_of_digits hdigits, String.toList_ofList, sum_zeros,
      ← check_of_digits number.is_digits]
    exact number.isLuhn

/-- Different counts of zeros make different numbers. -/
theorem padded_injective (number : OrderNumber) {first second : Nat}
    (h : number.padded first = number.padded second) : first = second := by
  have htext := congrArg (fun n : OrderNumber => n.text.toList.length) h
  simp only [padded, String.toList_ofList, List.length_append, List.length_replicate] at htext
  omega

/-! ## Reading -/

/-- What is not digits is refused. -/
theorem parse_of_other {s : String} (h : ¬ IsDigits s.toList) :
    ∃ fault : Fault, parse s = .error (.refused fault.toDomainError) := by
  unfold parse read
  by_cases hempty : s.toList.isEmpty = true
  · rw [if_pos hempty]
    exact ⟨.empty, rfl⟩
  · have hother : (!(Text.bytes s.toList).all Json.isDigit) = true := by
      rw [(digits_bytes s.toList).1, Bool.not_eq_true', ← Bool.not_eq_true]
      exact fun hdigits => h ⟨by simpa using hempty, hdigits⟩
    rw [if_neg hempty, if_pos hother]
    exact ⟨.notDigits, rfl⟩

/-- Digits are read by the verdict on their sum. -/
theorem parse_of_digits {s : String} (h : IsDigits s.toList) :
    (∃ hvalid, parse s = .ok ⟨s, hvalid⟩) ∨
    (check? s = some false ∧ parse s = .error (.refused Fault.checksum.toDomainError)) ∨
    (check? s = none ∧ parse s = .error .overflow) := by
  have hsome : ¬ s.toList.isEmpty = true := by
    simpa using h.some
  have hbytes : ¬ (!(Text.bytes s.toList).all Json.isDigit) = true := by
    rw [(digits_bytes s.toList).1, h.digits]
    exact Bool.false_ne_true
  unfold parse read
  rw [if_neg hsome, if_neg hbytes]
  split
  · exact .inl ⟨‹_›, rfl⟩
  · exact .inr (.inl ⟨‹_›, rfl⟩)
  · exact .inr (.inr ⟨‹_›, rfl⟩)

/-- A text that is not digits is refused. One that is has a Luhn sum: if that has 32 bits, it is
divisible by ten and the text is a number, or the text is refused. Otherwise there is no result. -/
theorem parse_cases (s : String) :
    (¬ IsDigits s.toList ∧ ∃ fault : Fault, parse s = .error (.refused fault.toDomainError)) ∨
    (IsDigits s.toList ∧ sum (s.toList.map digitValue) < 1 <<< 32 ∧
      ((sum (s.toList.map digitValue) % 10 = 0 ∧ ∃ hvalid, parse s = .ok ⟨s, hvalid⟩) ∨
      (sum (s.toList.map digitValue) % 10 ≠ 0 ∧
        parse s = .error (.refused Fault.checksum.toDomainError)))) ∨
    (IsDigits s.toList ∧ 1 <<< 32 ≤ sum (s.toList.map digitValue) ∧
      parse s = .error .overflow) := by
  by_cases hdigits : IsDigits s.toList
  · refine .inr ?_
    have hcheck := check_of_digits hdigits
    by_cases hfits : sum (s.toList.map digitValue) < 1 <<< 32
    · rw [if_pos hfits] at hcheck
      refine .inl ⟨hdigits, hfits, ?_⟩
      rcases parse_of_digits hdigits with ⟨hvalid, hparse⟩ | ⟨hinvalid, hparse⟩ | ⟨hnone, _⟩
      · rw [hvalid, Option.some_inj, eq_comm, beq_iff_eq] at hcheck
        exact .inl ⟨hcheck, hvalid, hparse⟩
      · rw [hinvalid, Option.some_inj, eq_comm, beq_eq_false_iff_ne] at hcheck
        exact .inr ⟨hcheck, hparse⟩
      · rw [hnone] at hcheck
        cases hcheck
    · rw [if_neg hfits] at hcheck
      refine .inr ⟨hdigits, Nat.le_of_not_lt hfits, ?_⟩
      rcases parse_of_digits hdigits with ⟨hvalid, _⟩ | ⟨hinvalid, _⟩ | ⟨_, hparse⟩
      · rw [hvalid] at hcheck
        cases hcheck
      · rw [hinvalid] at hcheck
        cases hcheck
      · exact hparse
  · exact .inl ⟨hdigits, parse_of_other hdigits⟩

/-- The text of a number is read as that number. -/
theorem parse_text (number : OrderNumber) : parse number.text = .ok number := by
  have hvalid := number.isLuhn
  rcases parse_of_digits number.is_digits with ⟨_, hparse⟩ | ⟨hinvalid, _⟩ | ⟨hnone, _⟩
  · exact hparse
  · rw [hvalid] at hinvalid
    cases hinvalid
  · rw [hvalid] at hnone
    cases hnone

/-- A number keeps the text that it is read from. -/
theorem text_of_parse {s : String} {number : OrderNumber} (h : parse s = .ok number) :
    number.text = s := by
  rcases parse_cases s with ⟨_, fault, hother⟩ | ⟨_, _, ⟨_, _, hparse⟩ | ⟨_, hother⟩⟩ |
    ⟨_, _, hother⟩
  · rw [h] at hother
    cases hother
  · rw [h] at hparse
    cases hparse
    rfl
  · rw [h] at hother
    cases hother
  · rw [h] at hother
    cases hother

/-- The text of a number has no blanks around it. -/
theorem trim_text (number : OrderNumber) : Text.trim number.text = number.text := by
  have hdigits := List.all_eq_true.mp number.is_digits.digits
  have hkept : number.text.toList.all (!Text.isBlank ·) = true := by
    rw [List.all_eq_true]
    intro c hc
    rw [Text.not_blank_of_digit (hdigits c hc)]
    rfl
  rw [Text.trim, Text.strip_of_no_blanks hkept, String.ofList_toList]

end OrderNumber

end Rewards
