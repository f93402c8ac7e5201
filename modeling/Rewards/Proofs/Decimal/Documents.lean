import Rewards.Proofs.Decimal.Rendering
import Rewards.Proofs.Json.Strings

/-!
# Amounts as texts of documents

Where the scale of an amount matters it stands in documents as a text. The text is read as this
amount, with its scale, `read_chars_chars`, also in a document, `takes_reader`.
-/

namespace Rewards.Decimal

open Json (Numeral digitChars)

/-- Digits have the value of their numbers. -/
theorem value_of_digit_chars {ds : List Nat} (h : ∀ d ∈ ds, d < 10) (m : Nat) :
    Nat.ofDigitChars 10 (digitChars ds) m = ds.foldl (fun n d => n * 10 + d) m := by
  have hdigit : ∀ d < 10, (Nat.digitChar d).toNat - '0'.toNat = d := by decide
  induction ds generalizing m with
  | nil => rfl
  | cons d ds ih =>
      rw [digitChars, List.map_cons, Nat.ofDigitChars_cons, hdigit d (h d List.mem_cons_self),
        Nat.mul_comm, List.foldl_cons]
      exact ih (fun e he => h e (List.mem_cons_of_mem d he)) _

variable (d : Decimal)

/-- The digits of an amount, around its point. -/
def digits : List Char := digitChars d.numeral.whole ++ digitChars d.numeral.fraction

/-- These are digits. -/
theorem digit_of_digits {c : Char} (h : c ∈ d.digits) : c.isDigit = true := by
  have hwell := d.numeral_well_formed
  rw [digits, digitChars, digitChars, ← List.map_append, List.mem_map] at h
  obtain ⟨n, hn, rfl⟩ := h
  have hsmall : n < 10 := (List.mem_append.mp hn).elim (hwell.whole n) (hwell.fraction n)
  rw [Nat.isDigit_digitChar, decide_eq_true hsmall]

/-- Their value is the coefficient without its sign. -/
theorem value_digits : Nat.ofDigitChars 10 d.digits 0 = d.coefficient.natAbs := by
  have hwell := d.numeral_well_formed
  have hsmall : ∀ n ∈ d.numeral.whole ++ d.numeral.fraction, n < 10 :=
    fun n hn => (List.mem_append.mp hn).elim (hwell.whole n) (hwell.fraction n)
  have hvalue := value_of_digit_chars hsmall 0
  rw [digitChars, List.map_append] at hvalue
  exact hvalue.trans d.numeral_digits

/-- An amount is written as its digits, with a sign and a point among them. -/
theorem chars_eq : d.chars = withSign d.numeral.negative
    (pointed (digitChars d.numeral.whole) (digitChars d.numeral.fraction)) := by
  have hnone : Numeral.exponentChars 'e' false d.numeral.exponent = [] := rfl
  rw [← d.numeral_chars 'e' false, Numeral.chars, hnone, List.append_nil]

/-- The characters of an amount are read as this amount, with its scale. -/
theorem read_chars_chars : readChars d.chars = .ok d := by
  have hwhole : digitChars d.numeral.whole ≠ [] := by
    rw [digitChars, Ne, List.map_eq_nil_iff]
    exact d.numeral_well_formed.whole_ne_nil
  have hplaces : (digitChars d.numeral.fraction).length = d.scale := by
    rw [digitChars, List.length_map, d.numeral_places]
  obtain ⟨e, hread, hcoefficient, hscale⟩ := read_plain_eq d.numeral.negative
    (fun c hc => d.digit_of_digits hc) hwhole (d.value_digits ▸ d.coefficient_lt)
    (hplaces ▸ d.scale_le)
  have hsame : e.coefficient = d.coefficient := by
    have hvalue := d.value_digits
    rw [digits] at hvalue
    rw [hcoefficient, hvalue, numeral]
    simp only [decide_eq_true_eq]
    split <;> omega
  have heq : e = d := by
    cases e
    cases d
    cases hsame
    cases hscale.trans hplaces
    rfl
  rw [readChars, chars_eq, hread, heq]

/-- An amount is read from a document as it was written. -/
theorem takes_reader : Json.Reader.Takes reader (Json.Value.text d.toText).chars d := by
  have hwritten : Json.Reader.Takes (written d.toText.toList) [] d := by
    rw [written, toText, String.toList_ofList, read_chars_chars]
    exact Json.Reader.takes_pure d
  refine Json.Reader.takes_peek (by decide) ?_
  rw [if_pos (beq_self_eq_true _)]
  exact Json.Reader.takes_quoted (f := fun s => written s.toList) hwritten

end Rewards.Decimal
