import Mathlib.Data.List.Basic
import Rewards.Http.Message
import Rewards.Proofs.Json.Texts
import Rewards.Proofs.Text.Blanks

/-!
# Headers

A header has a name and bytes, and a name may be sent more than once. The value that counts is the
first, `first_value_eq_some_iff`. Its bytes are read as a text if all of them are visible,
`visible_text_eq_some_iff`; those of a text are if the text is printable, `visible_text_utf8_iff`.
-/

namespace Rewards.Http

open Text (utf8)

/-- The first value that is sent under a name. -/
theorem first_value_eq_some_iff {headers : List (String × List UInt8)} {name : String}
    {value : List UInt8} :
    (valuesOf headers name).head? = some value ↔
      ∃ before later, headers = before ++ (name, value) :: later ∧
        ∀ header ∈ before, header.1 ≠ name := by
  rw [valuesOf, List.head?_map, List.head?_filter, Option.map_eq_some_iff]
  simp only [List.find?_eq_some_iff_append]
  constructor
  · rintro ⟨⟨key, _⟩, ⟨hkey, before, later, rfl, hbefore⟩, rfl⟩
    obtain rfl : key = name := by simpa using hkey
    exact ⟨before, later, rfl, fun header h => by simpa using hbefore header h⟩
  · rintro ⟨before, later, rfl, hbefore⟩
    refine ⟨(name, value), ⟨by simp, before, later, rfl, ?_⟩, rfl⟩
    exact fun header h => by simpa using hbefore header h

/-! ## Visible bytes -/

/-- The character of a byte. -/
def character (b : UInt8) : Char := Char.ofNat b.toNat

/-- A byte of a visible text. -/
def IsVisible (b : UInt8) : Prop := (32 ≤ b.toNat ∧ b.toNat < 127) ∨ b.toNat = 9

section Bytes

variable {b : UInt8} {value : List UInt8}

theorem character_to_nat (h : IsVisible b) : (character b).toNat = b.toNat := by
  have hvalid : b.toNat.isValidChar := by
    unfold IsVisible at h
    exact .inl (by omega)
  have hchar : character b = Char.ofNatAux b.toNat hvalid := dif_pos hvalid
  rw [hchar]
  rfl

/-- The blanks of a visible text are spaces and tabs. -/
theorem blank_iff (h : IsVisible b) : Text.isBlank (character b) = true ↔ b = 9 ∨ b = 32 := by
  simp only [Text.isBlank, character_to_nat h, ← UInt8.toNat_inj]
  unfold IsVisible at h
  simp
  omega

/-- The digits of a visible text are the bytes from 48 to 57. -/
theorem digit_iff (h : IsVisible b) : (character b).isDigit = true ↔ 48 ≤ b ∧ b ≤ 57 := by
  have hvalue := character_to_nat h
  simp only [Char.isDigit, Bool.and_eq_true, decide_eq_true_eq, UInt8.le_iff_toNat_le]
  rw [← hvalue]
  exact Iff.rfl

/-- The plus sign of a visible text is byte 43. -/
theorem plus_iff (h : IsVisible b) : character b = '+' ↔ b = 43 := by
  rw [← Char.toNat_inj, character_to_nat h, ← UInt8.toNat_inj]
  exact Iff.rfl

/-- The text of bytes that are visible. -/
theorem visible_text_eq_some_iff {cs : List Char} :
    visibleText? value = some cs ↔
      (∀ b ∈ value, IsVisible b) ∧ value.map character = cs := by
  unfold visibleText?
  simp only [Option.ite_none_right_eq_some, List.all_eq_true, Option.some.injEq]
  refine and_congr_left fun _ => forall₂_congr fun b _ => ?_
  simp [IsVisible, UInt8.le_iff_toNat_le, UInt8.lt_iff_toNat_lt, ← UInt8.toNat_inj]

/-- Spaces and tabs are visible. -/
theorem visible_of_blank (h : b = 9 ∨ b = 32) : IsVisible b := by
  rcases h with rfl | rfl
  · exact .inr rfl
  · exact .inl ⟨by decide, by decide⟩

/-- Digits are visible. -/
theorem visible_of_digit (h : 48 ≤ b ∧ b ≤ 57) : IsVisible b := by
  rw [UInt8.le_iff_toNat_le, UInt8.le_iff_toNat_le] at h
  exact .inl ⟨le_trans (by decide) h.1, lt_of_le_of_lt h.2 (by decide)⟩

/-- The characters of spaces and tabs are blanks. -/
theorem all_blanks (h : ∀ b ∈ value, b = 9 ∨ b = 32) :
    (value.map character).all Text.isBlank = true := by
  rw [List.all_map, List.all_eq_true]
  exact fun b hb => (blank_iff (visible_of_blank (h b hb))).mpr (h b hb)

/-- The characters of digits are digits. -/
theorem all_digits (h : ∀ b ∈ value, 48 ≤ b ∧ b ≤ 57) :
    (value.map character).all Char.isDigit = true := by
  rw [List.all_map, List.all_eq_true]
  exact fun b hb => (digit_iff (visible_of_digit (h b hb))).mpr (h b hb)

end Bytes

/-! ## Printable texts -/

/-- A character of a header that can be read. -/
def IsPrintable (c : Char) : Prop := (32 ≤ c.toNat ∧ c.toNat < 127) ∨ c.toNat = 9

instance (c : Char) : Decidable (IsPrintable c) := inferInstanceAs (Decidable (_ ∨ _))

/-- A text of printable characters. -/
def IsPrintableText (s : String) : Prop := ∀ c ∈ s.toList, IsPrintable c

instance (s : String) : Decidable (IsPrintableText s) := List.decidableBAll IsPrintable s.toList

theorem IsPrintable.ascii {c : Char} (h : IsPrintable c) : Text.IsAscii c := by
  unfold IsPrintable at h
  unfold Text.IsAscii
  omega

/-- The last byte of any other character is beyond ASCII. -/
theorem high_byte_mem {c : Char} (h : ¬Text.IsAscii c) :
    UInt8.ofNat (c.toNat % 64 + 128) ∈ String.utf8EncodeChar c := by
  have hmany : ¬c.val.toNat ≤ 127 := fun hle => h (Nat.lt_succ_iff.mpr hle)
  simp only [String.utf8EncodeChar, if_neg hmany]
  split
  · simp
  · split <;> simp

/-- The bytes of a character are visible if it is printable, and only then. -/
theorem visible_encode_iff {c : Char} :
    (∀ b ∈ String.utf8EncodeChar c, IsVisible b) ↔ IsPrintable c := by
  by_cases hascii : Text.IsAscii c
  · rw [Text.encode_ascii hascii, List.forall_mem_singleton, IsVisible, Text.byte_to_nat hascii]
    rfl
  · refine iff_of_false (fun h => ?_) fun h => hascii h.ascii
    have hvisible := h _ (high_byte_mem hascii)
    simp only [IsVisible, UInt8.toNat_ofNat'] at hvisible
    omega

/-- The byte of a printable character stands for it. -/
theorem IsPrintable.character {c : Char} (h : IsPrintable c) :
    (String.utf8EncodeChar c).map character = [c] := by
  have hvisible := visible_encode_iff.mpr h
  rw [Text.encode_ascii h.ascii] at hvisible ⊢
  refine congrArg (fun c => [c]) (Char.toNat_inj.mp ?_)
  rw [character_to_nat (hvisible _ (List.mem_singleton_self _)),
    Text.byte_to_nat h.ascii]

/-- A text can be read from its bytes if it is printable, and then it is that text. -/
theorem visible_text_utf8_iff {s : String} {cs : List Char} :
    visibleText? (utf8 s) = some cs ↔ IsPrintableText s ∧ s.toList = cs := by
  rw [visible_text_eq_some_iff, Text.utf8_of_chars, Text.bytes, List.forall_mem_flatMap]
  simp only [visible_encode_iff]
  refine and_congr_right fun hprintable : IsPrintableText s => ?_
  have hchars : (s.toList.flatMap String.utf8EncodeChar).map character = s.toList := by
    rw [List.map_flatMap, List.flatMap_congr fun c hc => (hprintable c hc).character,
      List.flatMap_singleton']
  rw [hchars]

/-- A text cannot be read if one of its bytes is not visible. -/
theorem visible_text_eq_none_iff {value : List UInt8} :
    visibleText? value = none ↔ ∃ b ∈ value, ¬IsVisible b := by
  rw [← not_iff_not, ← ne_eq, Option.ne_none_iff_exists']
  simp [visible_text_eq_some_iff]

end Rewards.Http
