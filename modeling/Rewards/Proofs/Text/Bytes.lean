import Rewards.Text.Utf8

/-!
# Texts as bytes

The bytes of a text are those of its characters, one after the other, and tell the text. A letter or
a digit of the Latin alphabet is a single byte.
-/

namespace Rewards.Text

/-- Listing bytes from an index on puts them behind those that have been listed. -/
theorem bytes_loop_eq (bytes : ByteArray) (i : Nat) (done : List UInt8) :
    ByteArray.toList.loop bytes i done = done.reverse ++ bytes.data.toList.drop i := by
  fun_induction ByteArray.toList.loop bytes i done with
  | case1 i done hi ih =>
      have hlength : i < bytes.data.toList.length := by simpa using hi
      rw [ih, List.drop_eq_getElem_cons hlength]
      simp [ByteArray.get!, hi]
  | case2 i done hi =>
      rw [List.drop_eq_nil_of_le (by simpa using hi), List.append_nil]

/-- The bytes of a text are those of its encoding. -/
theorem utf8_eq (s : String) : utf8 s = s.toByteArray.data.toList := by
  rw [utf8, ByteArray.toList, bytes_loop_eq]
  rfl

/-- The bytes of a text are those of its characters, one after the other. -/
theorem utf8_of_chars (s : String) : utf8 s = bytes s.toList := by
  rw [utf8_eq, ← String.utf8Encode_toList, List.utf8Encode, List.toList_data_toByteArray, bytes]

/-- The bytes of a text of characters are those of the characters. -/
theorem utf8_of_list (cs : List Char) : utf8 (String.ofList cs) = bytes cs := by
  rw [utf8_of_chars, String.toList_ofList]

/-- Texts with the same bytes are the same. -/
theorem utf8_injective {a b : String} (h : utf8 a = utf8 b) : a = b := by
  rw [utf8_eq, utf8_eq] at h
  exact String.toByteArray_inj.mp (ByteArray.ext (Array.toList_inj.mp h))

@[simp] theorem bytes_nil : bytes [] = [] := rfl

@[simp] theorem bytes_append (cs ds : List Char) : bytes (cs ++ ds) = bytes cs ++ bytes ds :=
  List.flatMap_append

/-- There are at least as many bytes as characters. -/
theorem length_le_bytes (cs : List Char) : cs.length ≤ (bytes cs).length := by
  induction cs with
  | nil => exact Nat.le_refl 0
  | cons c cs ih =>
      have hc : 0 < (String.utf8EncodeChar c).length := by
        rw [String.length_utf8EncodeChar]
        exact c.utf8Size_pos
      rw [bytes, List.flatMap_cons, List.length_append, List.length_cons]
      unfold bytes at ih
      omega

/-! ## Letters and digits -/

/-- Where the letters and the digits of the Latin alphabet are. -/
theorem alphanum_range {c : Char} (h : c.isAlphanum = true) : 48 ≤ c.toNat ∧ c.toNat ≤ 122 := by
  -- The ranges are those of the capital letters, of the small letters and of the digits.
  change ((decide ('A'.val ≤ c.val ∧ c.val ≤ 'Z'.val) ||
    (decide ('a'.val ≤ c.val) && decide (c.val ≤ 'z'.val))) || c.isDigit) = true at h
  simp only [Bool.or_eq_true, Bool.and_eq_true, decide_eq_true_eq, UInt32.le_iff_toNat_le,
    Char.isDigit_iff_toNat] at h
  obtain (⟨hlow, hhigh⟩ | ⟨hlow, hhigh⟩) | ⟨hlow, hhigh⟩ := h
  · exact ⟨Nat.le_trans (by decide) hlow, Nat.le_trans hhigh (by decide)⟩
  · exact ⟨Nat.le_trans (by decide) hlow, hhigh⟩
  · exact ⟨hlow, Nat.le_trans hhigh (by decide)⟩

/-- A letter or a digit of the Latin alphabet is a single byte, and not zero. -/
theorem utf8_of_alphanum {c : Char} (h : c.isAlphanum = true) :
    ∃ b : UInt8, String.utf8EncodeChar c = [b] ∧ b ≠ 0 := by
  have hrange := alphanum_range h
  refine ⟨UInt8.ofNat c.toNat, ?_, fun hzero => ?_⟩
  · have hsingle : c.val.toNat ≤ 127 := by
      show c.toNat ≤ 127
      omega
    simp only [String.utf8EncodeChar]
    rw [if_pos hsingle]
    rfl
  · have hvalue := congrArg UInt8.toNat hzero
    simp only [UInt8.toNat_ofNat', UInt8.toNat_ofNat] at hvalue
    omega

/-- A text of letters and digits has as many bytes as characters, and no zero byte. -/
theorem utf8_of_all_alphanum {s : String} (h : s.toList.all Char.isAlphanum = true) :
    (utf8 s).length = s.toList.length ∧ ∀ b ∈ utf8 s, b ≠ 0 := by
  rw [utf8_of_chars, bytes]
  generalize s.toList = cs at h
  induction cs with
  | nil => exact ⟨rfl, nofun⟩
  | cons c cs ih =>
      rw [List.all_cons, Bool.and_eq_true] at h
      obtain ⟨hlength, hnonzero⟩ := ih h.2
      obtain ⟨b, hencoded, hb⟩ := utf8_of_alphanum h.1
      rw [List.flatMap_cons, hencoded, List.singleton_append]
      refine ⟨by rw [List.length_cons, List.length_cons, hlength], ?_⟩
      intro byte hbyte
      rcases List.mem_cons.mp hbyte with rfl | hbyte
      · exact hb
      · exact hnonzero byte hbyte

end Rewards.Text
