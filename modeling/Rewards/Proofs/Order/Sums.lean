import Rewards.Order.Number
import Rewards.Proofs.Text.Encoding

/-!
# Luhn sums

The sum over the bytes of a text has 32 bits. `sum` is the one over natural numbers. As long as it
has 32 bits they are the same, and otherwise that over the bytes overflows, `accumulate_digits`. A
digit adds 9 at most, so no text of less than 477218589 bytes is too long, `accumulate_short`.
-/

namespace Rewards.Luhn

/-! ## Sums over natural numbers -/

/-- The value of a digit. -/
def digitValue (c : Char) : Nat := c.toNat - '0'.toNat

/-- The contribution of a digit in a doubled position: the sum of the digits of its double. -/
def doubled (d : Nat) : Nat :=
  if 9 < 2 * d then 2 * d - 9 else 2 * d

/-- The sum over digits from the right to the left; every second digit is doubled, and `isDoubled`
says whether the first one is. -/
def sumFromRight (isDoubled : Bool) : List Nat → Nat
  | [] => 0
  | d :: ds => (if isDoubled then doubled d else d) + sumFromRight (!isDoubled) ds

/-- The Luhn sum of digits in their written order. -/
def sum (digits : List Nat) : Nat :=
  sumFromRight false digits.reverse

/-- A digit adds 9 at most. -/
theorem sum_from_right_le {digits : List Nat} (h : ∀ d ∈ digits, d < 10) (isDoubled : Bool) :
    sumFromRight isDoubled digits ≤ 9 * digits.length := by
  induction digits generalizing isDoubled with
  | nil => exact Nat.le_refl 0
  | cons d digits ih =>
      have hd := h d List.mem_cons_self
      have hrest := ih (fun e he => h e (List.mem_cons_of_mem d he)) (!isDoubled)
      have hfirst : (if isDoubled = true then doubled d else d) ≤ 9 := by
        unfold doubled
        split
        · split <;> omega
        · omega
      rw [sumFromRight, List.length_cons]
      omega

/-! ## Sums in 32 bits -/

/-- The value of the digit of a byte. -/
def byteValue (b : UInt8) : Nat := b.toNat - 48

/-- A byte of a digit is one of ten. -/
theorem is_digit_iff (b : UInt8) : Json.isDigit b = true ↔ 48 ≤ b.toNat ∧ b.toNat ≤ 57 := by
  simp only [Json.isDigit, Bool.and_eq_true, decide_eq_true_eq, UInt8.le_iff_toNat_le,
    UInt8.reduceToNat]

/-- A digit adds the same in 32 bits, and 9 at most. -/
theorem share_eq {b : UInt8} (h : Json.isDigit b = true) (index : Nat) :
    (share index (b - 48).toUInt32).toNat =
        (if index % 2 == 1 then doubled (byteValue b) else byteValue b) ∧
      (share index (b - 48).toUInt32).toNat ≤ 9 := by
  have hdigit : ∀ d < 10, ∀ i < 2,
      (share i (UInt8.ofNat (48 + d) - 48).toUInt32).toNat =
        (if i % 2 == 1 then doubled (byteValue (UInt8.ofNat (48 + d)))
          else byteValue (UInt8.ofNat (48 + d))) ∧
      (share i (UInt8.ofNat (48 + d) - 48).toUInt32).toNat ≤ 9 := by
    decide
  rw [is_digit_iff] at h
  have hb : b = UInt8.ofNat (48 + (b.toNat - 48)) := by
    rw [← UInt8.toNat_inj, UInt8.toNat_ofNat']
    omega
  have hshare (digit : UInt32) : share index digit = share (index % 2) digit := by
    unfold share
    rw [Nat.mod_mod]
  have hresult := hdigit (b.toNat - 48) (by omega) (index % 2) (Nat.mod_lt _ (by decide))
  rwa [← hb, Nat.mod_mod, ← hshare] at hresult

/-- A sum that has 32 bits is the one over natural numbers. -/
theorem add_of_lt {a b : UInt32} (h : a.toNat + b.toNat < 1 <<< 32) :
    add? a b = some (a + b) ∧ (a + b).toNat = a.toNat + b.toNat := by
  refine ⟨if_pos h, ?_⟩
  rw [UInt32.toNat_add]
  exact Nat.mod_eq_of_lt (by omega)

/-- The position after a doubled one is not doubled, and the other way round. -/
theorem next_is_doubled (index : Nat) : ((index + 1) % 2 == 1) = !(index % 2 == 1) := by
  rcases Nat.mod_two_eq_zero_or_one index with hindex | hindex <;> simp [Nat.add_mod, hindex]

/-- Digits have the sum over natural numbers, if that has 32 bits, or else their sum overflows. -/
theorem accumulate_digits {bytes : List UInt8} (h : bytes.all Json.isDigit = true) (index : Nat)
    (sum : UInt32) :
    accumulate index sum bytes =
      if sum.toNat + sumFromRight (index % 2 == 1) (bytes.map byteValue) < 1 <<< 32 then
        .ok (UInt32.ofNat (sum.toNat + sumFromRight (index % 2 == 1) (bytes.map byteValue)))
      else .error .overflow := by
  induction bytes generalizing index sum with
  | nil =>
      have hfits : sum.toNat < 1 <<< 32 := sum.toNat_lt
      rw [List.map_nil, sumFromRight, Nat.add_zero, if_pos hfits, UInt32.ofNat_toNat]
      rfl
  | cons b bytes ih =>
      rw [List.all_cons, Bool.and_eq_true] at h
      obtain ⟨hshare, -⟩ := share_eq h.1 index
      rw [accumulate, if_pos h.1, List.map_cons, sumFromRight, ← hshare, ← next_is_doubled,
        ← Nat.add_assoc]
      by_cases hfits : sum.toNat + (share index (b - 48).toUInt32).toNat < 1 <<< 32
      · obtain ⟨hadd, hvalue⟩ := add_of_lt hfits
        rw [hadd, ← hvalue]
        exact ih h.2 (index + 1) _
      · rw [add?, if_neg hfits, if_neg (by omega)]

/-- Bytes that are not all digits have no sum. -/
theorem accumulate_other {bytes : List UInt8} (h : bytes.all Json.isDigit = false) (index : Nat)
    (sum : UInt32) : ∃ stop, accumulate index sum bytes = .error stop := by
  induction bytes generalizing index sum with
  | nil => cases h
  | cons b bytes ih =>
      rw [accumulate]
      split
      · rename_i hb
        rw [List.all_cons, hb, Bool.true_and] at h
        cases add? sum (share index (b - 48).toUInt32) with
        | none => exact ⟨_, rfl⟩
        | some next => exact ih h (index + 1) next
      · exact ⟨_, rfl⟩

/-- The sum over few bytes does not overflow, whether they are digits or not. -/
theorem accumulate_short {bytes : List UInt8} (index : Nat) {sum : UInt32}
    (h : sum.toNat + 9 * bytes.length < 1 <<< 32) :
    accumulate index sum bytes ≠ .error .overflow := by
  induction bytes generalizing index sum with
  | nil => exact nofun
  | cons b bytes ih =>
      rw [List.length_cons] at h
      rw [accumulate]
      split
      · rename_i hb
        obtain ⟨-, hsmall⟩ := share_eq hb index
        obtain ⟨hadd, hvalue⟩ :=
          add_of_lt (a := sum) (b := share index (b - 48).toUInt32) (by omega)
        rw [hadd]
        exact ih (index + 1) (by omega)
      · exact nofun

/-! ## Bytes and characters -/

/-- A character is a digit if its bytes are, and has their value. -/
theorem digits_encode (c : Char) :
    (String.utf8EncodeChar c).all Json.isDigit = c.isDigit ∧
      (c.isDigit = true → (String.utf8EncodeChar c).map byteValue = [digitValue c]) := by
  have hzero : '0'.toNat = 48 := rfl
  have hnine : '9'.toNat = 57 := rfl
  obtain ⟨a, tail, hencoded, hsequence⟩ := Text.sequence_encode c
  rw [hencoded]
  cases hsequence with
  | one ha hsmall =>
      have hdigit : Json.isDigit a = c.isDigit := by
        rw [Bool.eq_iff_iff, is_digit_iff, Char.isDigit_iff_toNat, ha, hzero, hnine]
      refine ⟨by rw [List.all_cons, List.all_nil, Bool.and_true, hdigit], fun _ => ?_⟩
      rw [List.map_singleton, byteValue, ha, digitValue, hzero]
  | two ha | three ha | four ha =>
      -- The first byte is larger than that of any digit, and so is the character.
      have hbyte : Json.isDigit a = false := by
        rw [Bool.eq_false_iff, Ne, is_digit_iff]
        omega
      have hchar : c.isDigit = false := by
        rw [Bool.eq_false_iff, Ne, Char.isDigit_iff_toNat, hzero, hnine]
        omega
      refine ⟨by rw [List.all_cons, hbyte, hchar, Bool.false_and], fun h => ?_⟩
      rw [hchar] at h
      cases h

/-- A text consists of digits if its bytes do, and then has their values. -/
theorem digits_bytes (cs : List Char) :
    (Text.bytes cs).all Json.isDigit = cs.all Char.isDigit ∧
      (cs.all Char.isDigit = true → (Text.bytes cs).map byteValue = cs.map digitValue) := by
  induction cs with
  | nil => exact ⟨rfl, fun _ => rfl⟩
  | cons c cs ih =>
      obtain ⟨hdigits, hvalues⟩ := ih
      obtain ⟨hdigit, hvalue⟩ := digits_encode c
      unfold Text.bytes at hdigits hvalues ⊢
      rw [List.flatMap_cons, List.all_append, hdigits, hdigit, List.all_cons]
      refine ⟨rfl, fun h => ?_⟩
      rw [Bool.and_eq_true] at h
      rw [List.map_append, hvalue h.1, hvalues h.2, List.map_cons]
      rfl

/-- A digit is less than ten. -/
theorem digit_value_lt {c : Char} (h : c.isDigit = true) : digitValue c < 10 := by
  rw [Char.isDigit_iff_toNat] at h
  have hzero : '0'.toNat = 48 := rfl
  have hnine : '9'.toNat = 57 := rfl
  unfold digitValue
  omega

/-! ## The verdict on a text -/

/-- There is a character, and all of them are digits. -/
structure IsDigits (cs : List Char) : Prop where
  some : cs ≠ []
  digits : cs.all Char.isDigit = true

/-- The values of digits are less than ten. -/
theorem IsDigits.values_lt {cs : List Char} (h : IsDigits cs) :
    ∀ d ∈ (cs.map digitValue).reverse, d < 10 := by
  intro d hd
  rw [List.mem_reverse, List.mem_map] at hd
  obtain ⟨c, hc, rfl⟩ := hd
  exact digit_value_lt (List.all_eq_true.mp h.digits c hc)

/-- The sum over digits that are few has 32 bits. -/
theorem IsDigits.sum_lt {cs : List Char} (h : IsDigits cs) (hshort : cs.length < 477218589) :
    sum (cs.map digitValue) < 1 <<< 32 := by
  have hbound := sum_from_right_le h.values_lt false
  rw [List.length_reverse, List.length_map] at hbound
  rw [sum]
  omega

/-- The verdict on digits is that of the sum over natural numbers, if that has 32 bits. -/
theorem check_of_digits {s : String} (h : IsDigits s.toList) :
    check? s =
      if sum (s.toList.map digitValue) < 1 <<< 32 then
        some (sum (s.toList.map digitValue) % 10 == 0)
      else none := by
  obtain ⟨hbytes, hvalues⟩ := digits_bytes s.toList
  have hreverse : (Text.bytes s.toList).reverse.all Json.isDigit = true := by
    rw [List.all_reverse, hbytes, h.digits]
  have hsum : (0 : UInt32).toNat +
      sumFromRight (0 % 2 == 1) ((Text.bytes s.toList).reverse.map byteValue) =
        sum (s.toList.map digitValue) := by
    rw [List.map_reverse, hvalues h.digits, UInt32.toNat_zero, Nat.zero_add]
    rfl
  rw [check?, if_neg (by simpa using h.some), accumulate_digits hreverse, hsum]
  by_cases hfits : sum (s.toList.map digitValue) < 1 <<< 32
  · have hvalue : (UInt32.ofNat (sum (s.toList.map digitValue))).toNat =
        sum (s.toList.map digitValue) := by
      rw [UInt32.toNat_ofNat']
      exact Nat.mod_eq_of_lt (by omega)
    have hrest : (UInt32.ofNat (sum (s.toList.map digitValue)) % 10 == 0) =
        (sum (s.toList.map digitValue) % 10 == 0) := by
      rw [Bool.eq_iff_iff, beq_iff_eq, beq_iff_eq, ← UInt32.toNat_inj, UInt32.toNat_mod, hvalue]
      rfl
    rw [if_pos hfits, if_pos hfits, ← hrest]
  · rw [if_neg hfits, if_neg hfits]

/-- Without a verdict, the sum has overflown. -/
theorem overflow_of_check {s : String} (h : check? s = none) :
    accumulate 0 0 (Text.bytes s.toList).reverse = .error .overflow := by
  rw [check?] at h
  split at h
  · cases h
  · split at h
    · cases h
    · cases h
    · assumption

/-- What is accepted consists of digits. -/
theorem digits_of_check {s : String} (h : check? s = some true) : IsDigits s.toList := by
  rw [check?] at h
  split at h
  · cases h
  · rename_i hsome
    refine ⟨by simpa using hsome, ?_⟩
    by_contra hother
    have hbytes : (Text.bytes s.toList).reverse.all Json.isDigit = false := by
      rw [List.all_reverse, (digits_bytes s.toList).1, Bool.eq_false_iff]
      exact hother
    obtain ⟨stop, hstop⟩ := accumulate_other hbytes 0 0
    rw [hstop] at h
    cases stop <;> cases h

end Rewards.Luhn
