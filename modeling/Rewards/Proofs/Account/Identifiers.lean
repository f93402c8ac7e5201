import Mathlib.Data.List.Basic
import Rewards.Proofs.Json.Strings
import Rewards.UserId

/-!
# Identifiers as text

The text of an identifier is read as this identifier, `Uuid.read_text`, also in a document,
`UserId.takes_reader`.
-/

namespace Rewards

open Json (IsPlain IsPlainText)

namespace Uuid

/-! ## Hexadecimal digits -/

/-- The digits of a number to the base 16 have values below 16. -/
theorem mem_to_digits {n : Nat} {c : Char} (h : c ∈ Nat.toDigits 16 n) :
    ∃ d < 16, c = Nat.digitChar d := by
  induction n using Nat.base_induction 16 (by decide) with
  | single m hm =>
      rw [Nat.toDigits_of_lt_base hm, List.mem_singleton] at h
      exact ⟨m, hm, h⟩
  | digit m k hk hm ih =>
      rw [← Nat.toDigits_append_toDigits (by decide) hm hk, Nat.toDigits_of_lt_base hk,
        List.mem_append, List.mem_singleton] at h
      rcases h with h | h
      · exact ih h
      · exact ⟨k, hk, h⟩

/-- A digit below 16 is read as its value, and is plain. -/
theorem digit_char : ∀ d < 16, isHexDigit (Nat.digitChar d) = true ∧
    hexValue (Nat.digitChar d) = d ∧ IsPlain (Nat.digitChar d) := by
  decide

/-- The value of the digits of a number. -/
theorem value_to_digits (n : Nat) :
    (Nat.toDigits 16 n).foldl (fun n c => n * 16 + hexValue c) 0 = n := by
  induction n using Nat.base_induction 16 (by decide) with
  | single m hm =>
      rw [Nat.toDigits_of_lt_base hm, List.foldl_cons, (digit_char m hm).2.1]
      simp
  | digit m k hk hm ih =>
      rw [← Nat.toDigits_append_toDigits (by decide) hm hk, Nat.toDigits_of_lt_base hk,
        List.foldl_append, ih, List.foldl_cons, (digit_char k hk).2.1, List.foldl_nil,
        Nat.mul_comm]

variable (u : Uuid)

/-- The digits of an identifier are hexadecimal. -/
theorem mem_digits {c : Char} (h : c ∈ u.digits) : isHexDigit c = true ∧ IsPlain c := by
  rcases List.mem_append.mp h with hzero | hdigit
  · rw [List.eq_of_mem_replicate hzero]
    decide
  · obtain ⟨d, hd, rfl⟩ := mem_to_digits hdigit
    exact ⟨(digit_char d hd).1, (digit_char d hd).2.2⟩

/-- An identifier has 32 digits. -/
theorem length_digits : u.digits.length = 32 := by
  have hshort : (Nat.toDigits 16 u.value).length ≤ 32 :=
    (Nat.length_toDigits_le_iff (by decide) (by decide)).mpr u.value_lt
  rw [digits, List.length_append, List.length_replicate]
  omega

/-- The digits of an identifier are those of no other one. -/
theorem of_digits : ofDigits u.digits = u := by
  have hzeros (count : Nat) :
      (List.replicate count '0').foldl (fun n c => n * 16 + hexValue c) 0 = 0 := by
    induction count with
    | zero => rfl
    | succ count ih => rw [List.replicate_succ, List.foldl_cons]; exact ih
  unfold ofDigits digits
  rw [List.foldl_append, hzeros, value_to_digits]
  unfold ofNat
  congr 1
  exact Nat.mod_eq_of_lt u.value_lt

/-! ## Groups -/

/-- The number of digits in groups. -/
def groupedLength : List Nat → Nat
  | [] => 0
  | n :: ns => n + groupedLength ns

/-- A group and the hyphen that parts it from the next one. -/
theorem hyphenated_cons (n m : Nat) (lengths : List Nat) (ds : List Char) :
    hyphenated (n :: m :: lengths) ds =
      ds.take n ++ '-' :: hyphenated (m :: lengths) (ds.drop n) := rfl

/-- The groups of digits are read as the digits. -/
theorem hyphenated_digits {lengths : List Nat} (hlengths : lengths ≠ []) {ds : List Char}
    (hlength : ds.length = groupedLength lengths) (hds : ∀ c ∈ ds, isHexDigit c = true) :
    hyphenatedDigits? lengths (hyphenated lengths ds) = some ds := by
  induction lengths generalizing ds with
  | nil => exact absurd rfl hlengths
  | cons n lengths ih =>
      cases lengths with
      | nil =>
          have hn : ds.length = n := hlength
          rw [hyphenated, hyphenatedDigits?, if_pos ⟨hn, List.all_eq_true.mpr hds⟩]
      | cons m lengths =>
          have hsplit : ds.length = n + groupedLength (m :: lengths) := hlength
          have htake : (ds.take n).length = n := by
            rw [List.length_take]
            omega
          have hdrop : (ds.drop n).length = groupedLength (m :: lengths) := by
            rw [List.length_drop]
            omega
          have hrest := ih (List.cons_ne_nil _ _) hdrop
            fun c hc => hds c (List.mem_of_mem_drop hc)
          have hgroup : (ds.take n).all isHexDigit = true :=
            List.all_eq_true.mpr fun c hc => hds c (List.mem_of_mem_take hc)
          rw [hyphenated_cons, hyphenatedDigits?, List.take_left' htake, List.drop_left' htake]
          · simp only [htake, hgroup, and_self, if_true, hrest, Option.map_some,
              List.take_append_drop]
          · simp

/-- The characters of groups are those of the digits and hyphens. -/
theorem mem_hyphenated {lengths : List Nat} {ds : List Char} {c : Char}
    (h : c ∈ hyphenated lengths ds) : c = '-' ∨ c ∈ ds := by
  induction lengths generalizing ds with
  | nil => cases h
  | cons n lengths ih =>
      cases lengths with
      | nil => exact .inr h
      | cons m lengths =>
          rw [hyphenated_cons, List.mem_append, List.mem_cons] at h
          rcases h with htaken | hhyphen | hrest
          · exact .inr (List.mem_of_mem_take htaken)
          · exact .inl hhyphen
          · exact (ih hrest).imp_right List.mem_of_mem_drop

/-- The text of an identifier is plain. -/
theorem plain_text : IsPlainText u.toText := by
  intro c hc
  rw [toText, String.toList_ofList] at hc
  rcases mem_hyphenated hc with rfl | hdigit
  · decide
  · exact (u.mem_digits hdigit).2

/-- The text of an identifier has 36 characters. -/
theorem length_chars : u.chars.length = 36 := by
  have hlength := u.length_digits
  simp only [chars, groupLengths, hyphenated, List.length_append, List.length_cons,
    List.length_take, List.length_drop, hlength]
  decide

/-- Plain characters have one byte each. -/
theorem byte_length {cs : List Char} (h : ∀ c ∈ cs, IsPlain c) : byteLength cs = cs.length := by
  have hsize (start : Nat) : cs.foldl (fun n c => n + c.utf8Size) start = start + cs.length := by
    induction cs generalizing start with
    | nil => rfl
    | cons c cs ih =>
        have hc : c.utf8Size = 1 := by
          rw [Char.utf8Size_eq_one_iff]
          exact Nat.lt_succ_iff.mp (h c List.mem_cons_self).ascii
        rw [List.foldl_cons, hc, ih fun d hd => h d (List.mem_cons_of_mem c hd), List.length_cons]
        omega
  rw [byteLength, hsize, Nat.zero_add]

/-- The text of an identifier is read as the identifier. -/
theorem read_text : read u.toText = .ok u := by
  have hplain := u.plain_text
  rw [IsPlainText, toText, String.toList_ofList] at hplain
  have hgroups : hyphenatedDigits? groupLengths u.chars = some u.digits :=
    hyphenated_digits (by decide) u.length_digits fun c hc => (u.mem_digits hc).1
  rw [read, toText, String.toList_ofList, readChars, byte_length hplain, length_chars]
  simp only [maxLength, readHyphenated, hgroups, of_digits]
  rfl

end Uuid

namespace UserId

/-- An identifier is read from a document as it was written. -/
theorem takes_reader (id : UserId) : Json.Reader.Takes reader id.toJson.chars id := by
  refine (Json.Reader.takes_text id.uuid.toText _).map ?_
  rw [Uuid.read_text]
  exact Json.Reader.takes_pure id

end UserId

end Rewards
