import Mathlib.Data.Nat.Digits.Defs
import Rewards.Proofs.Json.Results
import Rewards.Proofs.Json.Strings
import Rewards.Proofs.Order.Checksum
import Rewards.Proofs.Service.Effects

/-!
# Which texts are order numbers

`IsLuhn` says in full which texts are order numbers. Texts of digits whose sum has more than 32 bits
are an exception, and none of them has less than 477218589 bytes. The main statement is
`accepted_texts`: all ways to an order number accept these texts and no others.
-/

namespace Rewards

/-! ## The texts that are accepted -/

/-- What the digit at a position adds to the sum: itself, or the digits of its double. -/
def Luhn.weight (position digit : Nat) : Nat :=
  if position % 2 = 0 then digit else (Nat.digits 10 (2 * digit)).sum

/-- The sum over the positions of a text from the right. -/
def Luhn.positionSum (s : String) : Nat :=
  (s.toList.reverse.zipIdx.map fun (c, position) =>
    Luhn.weight position (Luhn.digitValue c)).sum

/-- The text is not empty, consists of digits, and the sum over the positions from the right is
divisible by ten. -/
def IsLuhn (s : String) : Prop :=
  s ≠ "" ∧ (∀ c ∈ s.toList, '0' ≤ c ∧ c ≤ '9') ∧ 10 ∣ Luhn.positionSum s

/-- The text consists of digits, and the sum over the positions has more than 32 bits. -/
def IsTooLong (s : String) : Prop :=
  (∀ c ∈ s.toList, '0' ≤ c ∧ c ≤ '9') ∧ 2 ^ 32 ≤ Luhn.positionSum s

/-- A digit adds to the sum by its weight. -/
theorem Luhn.weight_eq {d : Nat} (h : d < 10) (position : Nat) :
    weight position d = if position % 2 == 1 then doubled d else d := by
  have hdouble : ∀ d < 10, (Nat.digits 10 (2 * d)).sum = doubled d := by decide +kernel
  unfold weight
  rcases Nat.mod_two_eq_zero_or_one position with hposition | hposition
  · simp [hposition]
  · simp [hposition, hdouble d h]

/-- The sum over digits is that of their weights. -/
theorem Luhn.sum_from_right_weights {ds : List Nat} (h : ∀ d ∈ ds, d < 10) (first : Nat) :
    sumFromRight (first % 2 == 1) ds =
      ((ds.zipIdx first).map fun (d, position) => weight position d).sum := by
  induction ds generalizing first with
  | nil => rfl
  | cons d ds ih =>
      rw [sumFromRight, List.zipIdx_cons, List.map_cons, List.sum_cons, ← next_is_doubled,
        ih fun e he => h e (List.mem_cons_of_mem d he), ← weight_eq (h d List.mem_cons_self)]

/-- A text is made of digits if all of its characters are, and there is one. -/
theorem Luhn.is_digits_iff (s : String) :
    IsDigits s.toList ↔ s ≠ "" ∧ ∀ c ∈ s.toList, '0' ≤ c ∧ c ≤ '9' := by
  have hdigit (c : Char) : c.isDigit = true ↔ '0' ≤ c ∧ c ≤ '9' := by
    rw [Char.isDigit_iff_toNat]
    rfl
  have hall : (∀ c ∈ s.toList, '0' ≤ c ∧ c ≤ '9') ↔ s.toList.all Char.isDigit = true := by
    simp only [List.all_eq_true, hdigit]
  rw [hall, Ne, ← String.toList_eq_nil_iff]
  exact ⟨fun h => ⟨h.some, h.digits⟩, fun h => ⟨h.1, h.2⟩⟩

/-- The sum over digits is that over the positions. -/
theorem Luhn.sum_eq_positions {s : String} (h : IsDigits s.toList) :
    sum (s.toList.map digitValue) = positionSum s := by
  have hweights := sum_from_right_weights h.values_lt 0
  rw [← List.map_reverse, List.zipIdx_map, List.map_map] at hweights
  rw [sum, ← List.map_reverse]
  exact hweights

/-- Valid texts consist of digits whose sum is divisible by ten. -/
theorem is_luhn_iff (s : String) :
    IsLuhn s ↔ Luhn.IsDigits s.toList ∧ Luhn.sum (s.toList.map Luhn.digitValue) % 10 = 0 := by
  rw [IsLuhn, ← and_assoc, ← Luhn.is_digits_iff]
  refine and_congr_right fun hdigits => ?_
  rw [Luhn.sum_eq_positions hdigits, Nat.dvd_iff_mod_eq_zero]

/-- Texts that are too long consist of digits whose sum has more than 32 bits. -/
theorem is_too_long_iff (s : String) :
    IsTooLong s ↔
      Luhn.IsDigits s.toList ∧ 1 <<< 32 ≤ Luhn.sum (s.toList.map Luhn.digitValue) := by
  constructor
  · rintro ⟨hall, hlarge⟩
    have hsome : s ≠ "" := by
      rintro rfl
      exact absurd hlarge (by decide)
    have hdigits := (Luhn.is_digits_iff s).mpr ⟨hsome, hall⟩
    exact ⟨hdigits, by rwa [Luhn.sum_eq_positions hdigits]⟩
  · rintro ⟨hdigits, hlarge⟩
    rw [Luhn.sum_eq_positions hdigits] at hlarge
    exact ⟨((Luhn.is_digits_iff s).mp hdigits).2, hlarge⟩

section Short

variable {s : String} (h : (Text.utf8 s).length < 477218589)
include h

/-- The sum over a text that is not too long does not overflow. -/
theorem Luhn.accumulate_ne_overflow :
    accumulate 0 0 (Text.utf8 s).reverse ≠ .error .overflow := by
  refine accumulate_short 0 ?_
  rw [List.length_reverse, UInt32.toNat_zero]
  omega

/-- A short text is not too long. -/
theorem not_too_long : ¬ IsTooLong s := by
  have hlength : s.toList.length ≤ (Text.utf8 s).length := by
    rw [Text.utf8_of_chars]
    exact Text.length_le_bytes s.toList
  rw [is_too_long_iff, not_and, Nat.not_le]
  exact fun hdigits => hdigits.sum_lt (Nat.lt_of_le_of_lt hlength h)

/-- The verdict on a short text. -/
theorem Luhn.check_iff : ∃ verdict, check? s = some verdict ∧ (verdict = true ↔ IsLuhn s) := by
  rw [is_luhn_iff]
  by_cases hdigits : IsDigits s.toList
  · have hfits : sum (s.toList.map digitValue) < 1 <<< 32 :=
      Nat.lt_of_not_le fun hlarge => not_too_long h ((is_too_long_iff s).mpr ⟨hdigits, hlarge⟩)
    refine ⟨_, (check_of_digits hdigits).trans (if_pos hfits), ?_⟩
    rw [beq_iff_eq, and_iff_right hdigits]
  · cases hcheck : check? s with
    | none =>
        have hbytes := overflow_of_check hcheck
        rw [← Text.utf8_of_chars] at hbytes
        exact absurd hbytes (accumulate_ne_overflow h)
    | some verdict =>
        refine ⟨verdict, rfl, iff_of_false ?_ fun hvalid => hdigits hvalid.1⟩
        rintro rfl
        exact hdigits (digits_of_check hcheck)

end Short

namespace OrderNumber

variable {s : String} {number : OrderNumber}

/-- A text is read exactly if it is valid and not too long, and kept as it is. -/
theorem parse_ok_iff :
    parse s = .ok number ↔ IsLuhn s ∧ ¬ IsTooLong s ∧ number.text = s := by
  rw [is_luhn_iff, is_too_long_iff]
  constructor
  · intro h
    obtain rfl := text_of_parse h
    rcases parse_cases number.text with ⟨hother, _⟩ | ⟨hdigits, hfits, ⟨hsum, _⟩ | ⟨_, hother⟩⟩ |
      ⟨_, _, hother⟩
    · exact absurd number.is_digits hother
    · exact ⟨⟨hdigits, hsum⟩, fun hlong => absurd hlong.2 (Nat.not_le.mpr hfits), rfl⟩
    · rw [h] at hother
      cases hother
    · rw [h] at hother
      cases hother
  · rintro ⟨-, -, rfl⟩
    exact parse_text number

/-- A text is refused exactly if it is not valid, and not too long. -/
theorem parse_refused_iff :
    (∃ e, parse s = .error (.refused e)) ↔ ¬ IsLuhn s ∧ ¬ IsTooLong s := by
  rw [is_luhn_iff, is_too_long_iff]
  rcases parse_cases s with ⟨hother, fault, hparse⟩ |
    ⟨hdigits, hfits, ⟨hsum, _, hparse⟩ | ⟨hsum, hparse⟩⟩ | ⟨hdigits, hlarge, hparse⟩
  · exact iff_of_true ⟨_, hparse⟩ ⟨fun h => hother h.1, fun h => hother h.1⟩
  · rw [hparse]
    exact iff_of_false nofun fun h => h.1 ⟨hdigits, hsum⟩
  · exact iff_of_true ⟨_, hparse⟩
      ⟨fun h => hsum h.2, fun h => absurd h.2 (Nat.not_le.mpr hfits)⟩
  · rw [hparse]
    exact iff_of_false nofun fun h => h.2 ⟨hdigits, hlarge⟩

/-- A number is read from a document as it was written. -/
theorem takes_reader (number : OrderNumber) :
    Json.Reader.Takes reader number.toJson.chars number := by
  refine (Json.Reader.takes_text number.text _).map ?_
  rw [parse_text]
  exact Json.Reader.takes_pure number

/-- A document is read exactly if it is a string that is valid and not too long, in whatever
spelling. -/
theorem run_reader_iff {document : List UInt8} :
    Json.Reader.run reader document = .ok number ↔
      ∃ s, Json.Reader.run (Json.Reader.string "a string") document = .ok s ∧ IsLuhn s ∧
        ¬ IsTooLong s ∧ number.text = s := by
  simp only [Json.Reader.run_ok_iff, ← parse_ok_iff]
  constructor
  · rintro ⟨rest, hread, hrest⟩
    obtain ⟨s, between, hstring, hnumber⟩ := Json.Reader.run_bind_ok_iff.mp hread
    cases hparse : parse s with
    | error e =>
        rw [hparse] at hnumber
        cases e <;> cases hnumber
    | ok read =>
        rw [hparse] at hnumber
        cases hnumber
        exact ⟨s, ⟨rest, hstring, hrest⟩, hparse⟩
  · rintro ⟨s, ⟨rest, hstring, hrest⟩, hparse⟩
    refine ⟨rest, Json.Reader.run_bind_ok_iff.mpr ⟨s, rest, hstring, ?_⟩, hrest⟩
    rw [hparse]
    rfl

/-- A text that was written into a document is read exactly if it is valid and not too long. -/
theorem run_reader_text_iff :
    Json.Reader.run reader (Text.utf8 (Json.Value.text s).toText) = .ok number ↔
      IsLuhn s ∧ ¬ IsTooLong s ∧ number.text = s := by
  have htext := (Json.Reader.takes_text s "a string").run
  rw [run_reader_iff, Json.Value.toText, Text.utf8_of_list, Json.Value.chars, htext]
  constructor
  · rintro ⟨_, hsame, hnumber⟩
    cases hsame
    exact hnumber
  · exact fun hnumber => ⟨s, rfl, hnumber⟩

/-- A number that is uploaded is refused exactly if it is not valid, and not too long. -/
theorem submit_refused_iff {ω : Type} (x : Surroundings ω) (store : Store) (w : ω) (user : UserId)
    (body : String) :
    (∃ e, (InMemory.perform (x.service.submitOrder user body).run store w).result =
      .error (.refused (.invalidOrderNumber e))) ↔
      ¬ IsLuhn (Text.trim body) ∧ ¬ IsTooLong (Text.trim body) := by
  rw [← parse_refused_iff]
  cases hparse : parse (Text.trim body) with
  | error failure =>
      rw [Service.submitOrder, InMemory.perform_run_bind, Service.perform_read_number, hparse]
      cases failure with
      | refused e => exact iff_of_true ⟨e, rfl⟩ ⟨e, rfl⟩
      | overflow =>
          refine iff_of_false ?_ ?_
          · rintro ⟨e, hrefused⟩
            cases hrefused
          · rintro ⟨e, hrefused⟩
            cases hrefused
  | ok number =>
      rw [Service.perform_submit x store w hparse]
      refine iff_of_false ?_ ?_
      · rintro ⟨e, hrefused⟩
        -- The store knows no refusal of a number.
        rcases Store.create_order_cases store number user (x.clock.run w).1 with
          ⟨order, -, -, heq⟩ | ⟨order, -, -, heq⟩ | ⟨-, heq⟩ <;>
        · rw [heq] at hrefused
          cases hrefused
      · rintro ⟨e, hrefused⟩
        cases hrefused

/-- All ways to an order number accept the same texts, and keep them as they are. The sum over a
text of less than 477218589 bytes does not overflow, its verdict is that of the others, and the text
is not too long for any of them. -/
theorem accepted_texts :
    (∀ s : String, (Text.utf8 s).length < 477218589 →
      Luhn.accumulate 0 0 (Text.utf8 s).reverse ≠ .error .overflow ∧
      (∃ verdict, Luhn.check? s = some verdict ∧ (verdict = true ↔ IsLuhn s)) ∧
      ¬ IsTooLong s) ∧
    (∀ (s : String) (number : OrderNumber),
      (parse s = .ok number ↔ IsLuhn s ∧ ¬ IsTooLong s ∧ number.text = s) ∧
      (Json.Reader.run reader (Text.utf8 (Json.Value.text s).toText) = .ok number ↔
        IsLuhn s ∧ ¬ IsTooLong s ∧ number.text = s)) ∧
    (∀ (document : List UInt8) (number : OrderNumber),
      Json.Reader.run reader document = .ok number ↔
        ∃ s, Json.Reader.run (Json.Reader.string "a string") document = .ok s ∧ IsLuhn s ∧
          ¬ IsTooLong s ∧ number.text = s) ∧
    (∀ {ω : Type} (x : Surroundings ω) (store : Store) (w : ω) (user : UserId) (body : String),
      (∃ e, (InMemory.perform (x.service.submitOrder user body).run store w).result =
        .error (.refused (.invalidOrderNumber e))) ↔
        ¬ IsLuhn (Text.trim body) ∧ ¬ IsTooLong (Text.trim body)) :=
  ⟨fun _ hshort => ⟨Luhn.accumulate_ne_overflow hshort, Luhn.check_iff hshort, not_too_long hshort⟩,
    fun _ _ => ⟨parse_ok_iff, run_reader_text_iff⟩, fun _ _ => run_reader_iff,
    fun x store w user body => submit_refused_iff x store w user body⟩

/-- The sum over a number with a leading zero does not overflow, and the number is kept as it is,
also when it is read from a document. -/
theorem accepted_texts_0125 :
    Luhn.accumulate 0 0 (Text.utf8 "0125").reverse ≠ .error .overflow ∧ IsLuhn "0125" ∧
      Json.Reader.run reader (Text.utf8 (Json.Value.text "0125").toText) =
        .ok ⟨"0125", by decide +kernel⟩ := by
  obtain ⟨hsums, htexts, -⟩ := accepted_texts
  obtain ⟨hfits, ⟨verdict, hcheck, hverdict⟩, hlong⟩ := hsums "0125" (by decide +kernel)
  have hsum : Luhn.check? "0125" = some true := by decide +kernel
  rw [hsum, Option.some_inj] at hcheck
  have hvalid : IsLuhn "0125" := hverdict.mp hcheck.symm
  exact ⟨hfits, hvalid, (htexts "0125" _).2.mpr ⟨hvalid, hlong, rfl⟩⟩

end OrderNumber

end Rewards
