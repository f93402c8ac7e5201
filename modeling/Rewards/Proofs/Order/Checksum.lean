import Rewards.Proofs.Order.Numbers

/-!
# Mistyped order numbers

A digit adds to a Luhn sum by itself, in one of two ways that depend on how far it is from the right
end. Both ways take the ten digits to ten different remainders modulo ten. So a single changed digit
never goes unnoticed, and every place of a number can be filled in exactly one way. Two neighbours
add in different ways, and the only ones that can be swapped unnoticed are a zero and a nine. The
main statement, `mistyped_number`, is about numbers whose sum is sure to have 32 bits. With one more
digit it may overflow, `long_number_overflows`.
-/

namespace Rewards

namespace Luhn

/-! ## What a digit adds -/

/-- What a digit adds to a sum. -/
def contribution (isDoubled : Bool) (d : Nat) : Nat :=
  if isDoubled then doubled d else d

/-- Behind some digits the sum goes on with the one or the other kind of position. -/
theorem sum_from_right_append (isDoubled : Bool) (xs : List Nat) :
    ∃ isNextDoubled, ∀ ys,
      sumFromRight isDoubled (xs ++ ys) =
        sumFromRight isDoubled xs + sumFromRight isNextDoubled ys := by
  induction xs generalizing isDoubled with
  | nil => exact ⟨isDoubled, fun ys => (Nat.zero_add _).symm⟩
  | cons x xs ih =>
      obtain ⟨isNextDoubled, hrest⟩ := ih (!isDoubled)
      refine ⟨isNextDoubled, fun ys => ?_⟩
      rw [List.cons_append, sumFromRight, sumFromRight, hrest, Nat.add_assoc]

/-- Two neighbours add to a sum in different ways, and what the digits around them add does not
depend on them. -/
theorem sum_pair (before after : List Nat) :
    ∃ isDoubled rest, ∀ d e,
      sum (before ++ d :: e :: after) =
        contribution (!isDoubled) d + contribution isDoubled e + rest := by
  obtain ⟨isDoubled, hright⟩ := sum_from_right_append false after.reverse
  refine ⟨isDoubled, sumFromRight false after.reverse +
    sumFromRight isDoubled before.reverse, fun d e => ?_⟩
  have hreverse : (before ++ d :: e :: after).reverse =
      after.reverse ++ e :: d :: before.reverse := by
    simp
  rw [sum, hreverse, hright, sumFromRight, sumFromRight, Bool.not_not]
  simp only [contribution]
  omega

/-- A digit adds to a sum in one of two ways, and what the digits around it add does not depend on
it. -/
theorem sum_at (before after : List Nat) :
    ∃ isDoubled rest, ∀ d, sum (before ++ d :: after) = contribution isDoubled d + rest := by
  obtain ⟨isDoubled, hright⟩ := sum_from_right_append false after.reverse
  refine ⟨isDoubled, sumFromRight false after.reverse +
    sumFromRight (!isDoubled) before.reverse, fun d => ?_⟩
  have hreverse : (before ++ d :: after).reverse = after.reverse ++ d :: before.reverse := by
    simp
  rw [sum, hreverse, hright, sumFromRight, contribution]
  omega

/-- Different digits add different remainders. -/
theorem contribution_injective :
    ∀ isDoubled, ∀ d < 10, ∀ e < 10,
      contribution isDoubled d % 10 = contribution isDoubled e % 10 → d = e := by
  decide

/-- Some digit adds any remainder that is wanted. -/
theorem exists_contribution :
    ∀ isDoubled, ∀ missing < 10, ∃ d < 10, contribution isDoubled d % 10 = missing := by
  decide

/-- Two digits can be swapped without a trace exactly if they are equal or a zero and a nine. -/
theorem contribution_swap :
    ∀ isDoubled, ∀ d < 10, ∀ e < 10,
      ((contribution (!isDoubled) d + contribution isDoubled e) % 10 =
          (contribution (!isDoubled) e + contribution isDoubled d) % 10 ↔
        d = e ∨ (d = 0 ∧ e = 9) ∨ (d = 9 ∧ e = 0)) := by
  decide

/-! ## Digits as characters -/

/-- A digit is told by its value. -/
theorem digit_value_injective {c d : Char} (hc : c.isDigit = true) (hd : d.isDigit = true)
    (h : digitValue c = digitValue d) : c = d := by
  rw [Char.isDigit_iff_toNat] at hc hd
  have hzero : '0'.toNat = 48 := rfl
  unfold digitValue at h
  exact Char.toNat_inj.mp (by omega)

/-- Every value is that of a digit. -/
theorem exists_digit {d : Nat} (hd : d < 10) : ∃ c : Char, c.isDigit = true ∧ digitValue c = d :=
  ⟨d.digitChar, by simpa using hd, Nat.toNat_digitChar_sub_48_of_lt_ten hd⟩

end Luhn

namespace OrderNumber

open Luhn

/-- The characters are those of an order number. -/
def Accepts (cs : List Char) : Prop := ∃ number, parse (String.ofList cs) = .ok number

/-- Digits are an order number exactly if their sum has 32 bits and is divisible by ten. -/
theorem accepts_iff (cs : List Char) :
    Accepts cs ↔ IsDigits cs ∧ sum (cs.map digitValue) < 1 <<< 32 ∧
      sum (cs.map digitValue) % 10 = 0 := by
  have hcases := parse_cases (String.ofList cs)
  rw [String.toList_ofList] at hcases
  constructor
  · rintro ⟨number, hparse⟩
    rw [hparse] at hcases
    rcases hcases with ⟨_, fault, hother⟩ | ⟨hdigits, hfits, ⟨hsum, _⟩ | ⟨_, hother⟩⟩ |
      ⟨_, _, hother⟩
    · cases hother
    · exact ⟨hdigits, hfits, hsum⟩
    · cases hother
    · cases hother
  · rintro ⟨hdigits, hfits, hsum⟩
    rcases hcases with ⟨hother, _⟩ | ⟨_, _, ⟨_, hvalid, hparse⟩ | ⟨hother, _⟩⟩ | ⟨_, hlarge, _⟩
    · exact absurd hdigits hother
    · exact ⟨_, hparse⟩
    · exact absurd hsum hother
    · exact absurd hfits (Nat.not_lt.mpr hlarge)

/-- Digits whose sum has 32 bits and is not divisible by ten are refused for it. -/
theorem parse_checksum {cs : List Char} (hdigits : IsDigits cs)
    (hfits : sum (cs.map digitValue) < 1 <<< 32) (hsum : sum (cs.map digitValue) % 10 ≠ 0) :
    parse (String.ofList cs) = .error (.refused Fault.checksum.toDomainError) := by
  have hcases := parse_cases (String.ofList cs)
  rw [String.toList_ofList] at hcases
  rcases hcases with ⟨hother, _⟩ | ⟨_, _, ⟨hother, _⟩ | ⟨_, hparse⟩⟩ | ⟨_, hlarge, _⟩
  · exact absurd hdigits hother
  · exact absurd hother hsum
  · exact hparse
  · exact absurd hfits (Nat.not_lt.mpr hlarge)

/-- Digits whose sum has more than 32 bits have no result. -/
theorem parse_overflow {cs : List Char} (hdigits : IsDigits cs)
    (hlarge : 1 <<< 32 ≤ sum (cs.map digitValue)) :
    parse (String.ofList cs) = .error .overflow := by
  have hcases := parse_cases (String.ofList cs)
  rw [String.toList_ofList] at hcases
  rcases hcases with ⟨hother, _⟩ | ⟨_, hfits, _⟩ | ⟨_, _, hparse⟩
  · exact absurd hdigits hother
  · exact absurd hfits (Nat.not_lt.mpr hlarge)
  · exact hparse

/-- Another digit anywhere in a number is noticed. -/
theorem changed_digit {before after : List Char} {c d : Char}
    (hshort : (before ++ c :: after).length < 477218589) (h : Accepts (before ++ c :: after))
    (hd : d.isDigit = true) (hne : d ≠ c) :
    parse (String.ofList (before ++ d :: after)) =
      .error (.refused Fault.checksum.toDomainError) := by
  obtain ⟨⟨_, hdigits⟩, _, hsum⟩ := (accepts_iff _).mp h
  rw [List.all_append, List.all_cons, Bool.and_eq_true, Bool.and_eq_true] at hdigits
  obtain ⟨hbefore, hc, hafter⟩ := hdigits
  have hchanged : IsDigits (before ++ d :: after) := ⟨by simp, by simp [hbefore, hd, hafter]⟩
  have hlength : (before ++ d :: after).length < 477218589 := by
    rwa [List.length_append, List.length_cons] at hshort ⊢
  refine parse_checksum hchanged (hchanged.sum_lt hlength) fun hother => hne ?_
  obtain ⟨isDoubled, rest, heq⟩ := sum_at (before.map digitValue) (after.map digitValue)
  rw [List.map_append, List.map_cons, heq] at hsum hother
  exact digit_value_injective hd hc
    (contribution_injective isDoubled _ (digit_value_lt hd) _ (digit_value_lt hc) (by omega))

/-- Two different neighbours are swapped without notice exactly if they are a zero and a nine. -/
theorem swapped_digits {before after : List Char} {c d : Char}
    (hshort : (before ++ c :: d :: after).length < 477218589)
    (h : Accepts (before ++ c :: d :: after)) (hne : c ≠ d) :
    if (c = '0' ∧ d = '9') ∨ (c = '9' ∧ d = '0') then Accepts (before ++ d :: c :: after)
    else
      parse (String.ofList (before ++ d :: c :: after)) =
        .error (.refused Fault.checksum.toDomainError) := by
  obtain ⟨⟨_, hdigits⟩, _, hsum⟩ := (accepts_iff _).mp h
  rw [List.all_append, List.all_cons, List.all_cons, Bool.and_eq_true, Bool.and_eq_true,
    Bool.and_eq_true] at hdigits
  obtain ⟨hbefore, hc, hd, hafter⟩ := hdigits
  have hswapped : IsDigits (before ++ d :: c :: after) :=
    ⟨by simp, by simp [hbefore, hc, hd, hafter]⟩
  have hlength : (before ++ d :: c :: after).length < 477218589 := by
    rwa [List.length_append, List.length_cons, List.length_cons] at hshort ⊢
  have hvalues : digitValue c ≠ digitValue d := fun heq => hne (digit_value_injective hc hd heq)
  have hpair : (c = '0' ∧ d = '9') ∨ (c = '9' ∧ d = '0') ↔
      (digitValue c = 0 ∧ digitValue d = 9) ∨ (digitValue c = 9 ∧ digitValue d = 0) := by
    have hiff {x : Char} (hx : x.isDigit = true) (y : Char) (hy : y.isDigit = true) :
        x = y ↔ digitValue x = digitValue y :=
      ⟨congrArg digitValue, digit_value_injective hx hy⟩
    rw [hiff hc '0' rfl, hiff hc '9' rfl, hiff hd '0' rfl, hiff hd '9' rfl]
    rfl
  obtain ⟨isDoubled, rest, heq⟩ := sum_pair (before.map digitValue) (after.map digitValue)
  have htrace := contribution_swap isDoubled _ (digit_value_lt hc) _ (digit_value_lt hd)
  rw [or_iff_right hvalues] at htrace
  rw [List.map_append, List.map_cons, List.map_cons, heq] at hsum
  have hother : sum ((before ++ d :: c :: after).map digitValue) % 10 = 0 ↔
      (c = '0' ∧ d = '9') ∨ (c = '9' ∧ d = '0') := by
    rw [List.map_append, List.map_cons, List.map_cons, heq, hpair, ← htrace]
    omega
  split
  · rename_i hexchange
    exact (accepts_iff _).mpr ⟨hswapped, hswapped.sum_lt hlength, hother.mpr hexchange⟩
  · rename_i hexchange
    exact parse_checksum hswapped (hswapped.sum_lt hlength) (mt hother.mp hexchange)

/-- Every place in digits can be filled in exactly one way. -/
theorem exists_unique_digit {before after : List Char}
    (hshort : (before ++ after).length + 1 < 477218589)
    (h : (before ++ after).all Char.isDigit = true) :
    ∃! c : Char, c.isDigit = true ∧ Accepts (before ++ c :: after) := by
  obtain ⟨isDoubled, rest, heq⟩ := sum_at (before.map digitValue) (after.map digitValue)
  obtain ⟨d, hd, hvalue⟩ := exists_contribution isDoubled ((10 - rest % 10) % 10) (by omega)
  obtain ⟨c, hc, rfl⟩ := exists_digit hd
  rw [List.all_append, Bool.and_eq_true] at h
  have hlength : (before ++ c :: after).length < 477218589 := by
    rwa [List.length_append, List.length_cons, ← Nat.add_assoc, ← List.length_append]
  have hdigits : IsDigits (before ++ c :: after) := ⟨by simp, by simp [h, hc]⟩
  have haccepts : Accepts (before ++ c :: after) := by
    refine (accepts_iff _).mpr ⟨hdigits, hdigits.sum_lt hlength, ?_⟩
    rw [List.map_append, List.map_cons, heq]
    omega
  refine ⟨c, ⟨hc, haccepts⟩, fun other hother => ?_⟩
  by_contra hne
  obtain ⟨_, hparse⟩ := hother.2
  rw [changed_digit hlength haccepts hother.1 hne] at hparse
  cases hparse

/-- The checksum of order numbers of less than 477218589 digits detects mistakes. Another digit in
any place of a number is refused. Two different neighbours that are swapped in any place are
refused, unless they are a zero and a nine: then the result is a number. And in any place of any
digits, the right end included, exactly one digit makes a number. -/
theorem mistyped_number :
    (∀ (before after : List Char) (c d : Char), (before ++ c :: after).length < 477218589 →
      Accepts (before ++ c :: after) → d.isDigit = true → d ≠ c →
      parse (String.ofList (before ++ d :: after)) =
        .error (.refused Fault.checksum.toDomainError)) ∧
    (∀ (before after : List Char) (c d : Char), (before ++ c :: d :: after).length < 477218589 →
      Accepts (before ++ c :: d :: after) → c ≠ d →
      if (c = '0' ∧ d = '9') ∨ (c = '9' ∧ d = '0') then Accepts (before ++ d :: c :: after)
      else
        parse (String.ofList (before ++ d :: c :: after)) =
          .error (.refused Fault.checksum.toDomainError)) ∧
    (∀ before after : List Char, (before ++ after).length + 1 < 477218589 →
      (before ++ after).all Char.isDigit = true →
      ∃! c : Char, c.isDigit = true ∧ Accepts (before ++ c :: after)) :=
  ⟨fun _ _ _ _ => changed_digit, fun _ _ _ _ => swapped_digits, fun _ _ => exists_unique_digit⟩

/-- In the number `10900` another digit than the nine is refused, and so are the first two digits
swapped. The zero and the nine after it can be swapped. Nothing but a zero completes `1090`. -/
theorem mistyped_number_10900 :
    Accepts "10900".toList ∧
      parse "10700" = .error (.refused Fault.checksum.toDomainError) ∧
      parse "01900" = .error (.refused Fault.checksum.toDomainError) ∧ Accepts "19000".toList ∧
      ∃! c : Char, c.isDigit = true ∧ Accepts ("1090".toList ++ [c]) := by
  have haccepts : Accepts "10900".toList := ⟨⟨"10900", by decide⟩, rfl⟩
  obtain ⟨hchanged, hswapped, hplace⟩ := mistyped_number
  have hnine := hswapped ['1'] ['0', '0'] '0' '9' (by decide) haccepts (by decide)
  rw [if_pos (by decide)] at hnine
  have hone := hswapped [] ['9', '0', '0'] '1' '0' (by decide) haccepts (by decide)
  rw [if_neg (by decide)] at hone
  exact ⟨haccepts, hchanged ['1', '0'] ['0', '0'] '9' '7' (by decide) haccepts rfl (by decide),
    hone, hnine, hplace "1090".toList [] (by decide) (by decide)⟩

/-! ## Longer numbers -/

/-- Behind two digits, nines in an odd number of places add nine each. -/
theorem sum_before_nines (c d : Char) {count : Nat} (hodd : count % 2 = 1) :
    sum ((c :: d :: List.replicate count '9').map digitValue) =
      9 * count + doubled (digitValue d) + digitValue c := by
  have hnines (isDoubled : Bool) (count : Nat) (rest : List Nat) :
      sumFromRight isDoubled (List.replicate count 9 ++ rest) =
        9 * count + sumFromRight (isDoubled ^^ (count % 2 == 1)) rest := by
    induction count generalizing isDoubled with
    | zero => simp
    | succ count ih =>
        have hnine : (if isDoubled = true then doubled 9 else 9) = 9 := by
          cases isDoubled <;> rfl
        have hparity :
            (!isDoubled ^^ (count % 2 == 1)) = (isDoubled ^^ ((count + 1) % 2 == 1)) := by
          rw [next_is_doubled]
          cases isDoubled <;> cases (count % 2 == 1) <;> rfl
        rw [List.replicate_succ, List.cons_append, sumFromRight, hnine, ih, hparity]
        omega
  have hnine : digitValue '9' = 9 := rfl
  rw [sum, List.map_cons, List.map_cons, List.map_replicate, hnine, List.reverse_cons,
    List.reverse_cons, List.reverse_replicate, List.append_assoc, hnines, hodd]
  simp [sumFromRight]
  omega

/-- Two digits and nines are digits. -/
theorem digits_before_nines {c d : Char} (hc : c.isDigit = true) (hd : d.isDigit = true)
    (count : Nat) : IsDigits (c :: d :: List.replicate count '9') := by
  refine ⟨List.cons_ne_nil _ _, ?_⟩
  rw [List.all_cons, List.all_cons, hc, hd, Bool.true_and, Bool.true_and, List.all_eq_true]
  intro e he
  rw [List.eq_of_mem_replicate he]
  rfl

/-- The sum over `08` and 477218587 nines has 32 bits, and they are an order number. That over the
same digits with a six in the first place has not, and there is no verdict on them. -/
theorem long_number_overflows :
    Accepts ('0' :: '8' :: List.replicate 477218587 '9') ∧
      parse (String.ofList ('6' :: '8' :: List.replicate 477218587 '9')) = .error .overflow := by
  have hnumber := sum_before_nines '0' '8' (show 477218587 % 2 = 1 from rfl)
  have hother := sum_before_nines '6' '8' (show 477218587 % 2 = 1 from rfl)
  refine ⟨(accepts_iff _).mpr ⟨digits_before_nines rfl rfl _, ?_, ?_⟩,
    parse_overflow (digits_before_nines rfl rfl _) ?_⟩
  · rw [hnumber]
    decide
  · rw [hnumber]
    decide
  · rw [hother]
    decide

end OrderNumber

end Rewards
