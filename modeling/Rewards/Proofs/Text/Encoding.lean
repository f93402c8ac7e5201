import Mathlib.Data.List.Basic
import Rewards.Proofs.Text.Bytes
import Rewards.Text.Utf8

/-!
# Decoding is the inverse of encoding

A code point is written in one to four bytes, and each has one such sequence: the bytes of its
character, `sequence_iff`. What is read at the front of bytes is such a sequence,
`sequence_of_utf8_step`. So a text is decoded from its own bytes and from no others,
`decode_utf8_iff`.
-/

namespace Rewards.Text

/-! ## Sequences -/

/-- The byte continues a sequence. -/
def Continues (b : UInt8) : Prop := 0x80 ≤ b.toNat ∧ b.toNat < 0xC0

/-- The sequence of a code point, with its first byte apart. A longer sequence than needed does not
count, and surrogates have none. -/
inductive Sequence : UInt8 → List UInt8 → Nat → Prop where
  | one {a : UInt8} {n : Nat} : a.toNat = n → n < 0x80 → Sequence a [] n
  | two {a b : UInt8} {n : Nat} :
      a.toNat = 0xC0 + n / 64 → Continues b → b.toNat % 64 = n % 64 →
      0x80 ≤ n → n < 0x800 → Sequence a [b] n
  | three {a b c : UInt8} {n : Nat} :
      a.toNat = 0xE0 + n / 4096 → Continues b → b.toNat % 64 = n / 64 % 64 →
      Continues c → c.toNat % 64 = n % 64 →
      0x800 ≤ n → n < 0x10000 → n < 0xD800 ∨ 0xDFFF < n → Sequence a [b, c] n
  | four {a b c d : UInt8} {n : Nat} :
      a.toNat = 0xF0 + n / 262144 → Continues b → b.toNat % 64 = n / 4096 % 64 →
      Continues c → c.toNat % 64 = n / 64 % 64 → Continues d → d.toNat % 64 = n % 64 →
      0x10000 ≤ n → n < 0x110000 → Sequence a [b, c, d] n

/-- Only the numbers of characters have sequences. -/
theorem Sequence.valid {a : UInt8} {tail : List UInt8} {n : Nat} (h : Sequence a tail n) :
    n.isValidChar := by
  unfold Nat.isValidChar
  cases h <;> omega

/-- A character has the number that it is made of. -/
theorem char_of_nat {n : Nat} (h : n.isValidChar) : (Char.ofNat n).toNat = n := by
  rw [Char.ofNat, dif_pos h]
  rfl

/-- A number below 256 is kept in a byte. -/
theorem byte_of_nat {n : Nat} (h : n < 256) : (UInt8.ofNat n).toNat = n := by
  rw [UInt8.toNat_ofNat']
  exact Nat.mod_eq_of_lt h

/-- The bytes of a character are a sequence. -/
theorem sequence_encode (c : Char) :
    ∃ a tail, String.utf8EncodeChar c = a :: tail ∧ Sequence a tail c.toNat := by
  have hvalid : c.toNat < 0xD800 ∨ (0xDFFF < c.toNat ∧ c.toNat < 0x110000) := c.valid
  have hvalue : c.val.toNat = c.toNat := rfl
  simp only [String.utf8EncodeChar, hvalue]
  generalize c.toNat = n at hvalid ⊢
  have hcontinues (m : Nat) : Continues (UInt8.ofNat (m % 64 + 128)) ∧
      (UInt8.ofNat (m % 64 + 128)).toNat % 64 = m % 64 := by
    unfold Continues
    rw [byte_of_nat (by omega)]
    omega
  split_ifs with hone htwo hthree
  · exact ⟨_, _, rfl, .one (byte_of_nat (by omega)) (by omega)⟩
  · refine ⟨_, _, rfl, .two ?_ (hcontinues _).1 (hcontinues _).2 (by omega) (by omega)⟩
    rw [byte_of_nat (by omega)]
    omega
  · refine ⟨_, _, rfl, .three ?_ (hcontinues _).1 (hcontinues _).2 (hcontinues _).1
      (hcontinues _).2 (by omega) (by omega) (by omega)⟩
    rw [byte_of_nat (by omega)]
    omega
  · refine ⟨_, _, rfl, .four ?_ (hcontinues _).1 (hcontinues _).2 (hcontinues _).1
      (hcontinues _).2 (hcontinues _).1 (hcontinues _).2 (by omega) (by omega)⟩
    rw [byte_of_nat (by omega)]
    omega

/-- Bytes that continue a sequence are told by their last six bits. -/
theorem Continues.eq {b c : UInt8} (hb : Continues b) (hc : Continues c)
    (h : b.toNat % 64 = c.toNat % 64) : b = c := by
  unfold Continues at hb hc
  rw [← UInt8.toNat_inj]
  omega

/-- A code point has one sequence. -/
theorem Sequence.unique {a b : UInt8} {tail rest : List UInt8} {n : Nat} (h : Sequence a tail n)
    (hother : Sequence b rest n) : a :: tail = b :: rest := by
  have hfirst {a b : UInt8} {m : Nat} (ha : a.toNat = m) (hb : b.toNat = m) : a = b :=
    UInt8.toNat_inj.mp (ha.trans hb.symm)
  cases h with
  | one ha hn =>
      cases hother with
      | one hb => rw [hfirst ha hb]
      | two | three | four => omega
  | two ha hb hbits hlow hhigh =>
      cases hother with
      | two hc hd hothers => rw [hfirst ha hc, hb.eq hd (hbits.trans hothers.symm)]
      | one | three | four => omega
  | three ha hb hbits hc hlast =>
      cases hother with
      | three hd he hothers hf hend =>
          rw [hfirst ha hd, hb.eq he (hbits.trans hothers.symm), hc.eq hf (hlast.trans hend.symm)]
      | one | two | four => omega
  | four ha hb hbits hc hmiddle hd hlast =>
      cases hother with
      | four he hf hothers hg hcentre hi hend =>
          rw [hfirst ha he, hb.eq hf (hbits.trans hothers.symm),
            hc.eq hg (hmiddle.trans hcentre.symm), hd.eq hi (hlast.trans hend.symm)]
      | one | two | three => omega

/-- The sequences are the bytes of characters. -/
theorem sequence_iff {a : UInt8} {tail : List UInt8} {c : Char} :
    Sequence a tail c.toNat ↔ String.utf8EncodeChar c = a :: tail := by
  obtain ⟨b, rest, hencoded, hsequence⟩ := sequence_encode c
  rw [hencoded]
  constructor
  · exact fun h => hsequence.unique h
  · intro h
    cases h
    exact hsequence

/-! ## Reading a sequence -/

section Conditions

variable {a b : UInt8}

theorem is_continuation_iff : isContinuation b = true ↔ Continues b := by
  simp only [isContinuation, Continues, Bool.and_eq_true, decide_eq_true_eq,
    UInt8.le_iff_toNat_le, UInt8.reduceToNat]
  omega

theorem allows_second_of_three_iff :
    allowsSecondOfThree a b = true ↔ Continues b ∧ (a.toNat = 0xE0 → 0xA0 ≤ b.toNat) ∧
      (a.toNat = 0xED → b.toNat < 0xA0) := by
  have hfirst : a = 0xE0 ↔ a.toNat = 0xE0 := UInt8.toNat_inj.symm
  have hsurrogate : a = 0xED ↔ a.toNat = 0xED := UInt8.toNat_inj.symm
  simp only [allowsSecondOfThree, hfirst, hsurrogate]
  split_ifs <;>
    simp only [is_continuation_iff, Continues, Bool.and_eq_true, decide_eq_true_eq,
      UInt8.le_iff_toNat_le, UInt8.reduceToNat] <;> omega

theorem allows_second_of_four_iff :
    allowsSecondOfFour a b = true ↔ Continues b ∧ (a.toNat = 0xF0 → 0x90 ≤ b.toNat) ∧
      (a.toNat = 0xF4 → b.toNat < 0x90) := by
  have hfirst : a = 0xF0 ↔ a.toNat = 0xF0 := UInt8.toNat_inj.symm
  have hlast : a = 0xF4 ↔ a.toNat = 0xF4 := UInt8.toNat_inj.symm
  simp only [allowsSecondOfFour, hfirst, hlast]
  split_ifs <;>
    simp only [is_continuation_iff, Continues, Bool.and_eq_true, decide_eq_true_eq,
      UInt8.le_iff_toNat_le, UInt8.reduceToNat] <;> omega

end Conditions

/-- A sequence is read, whatever follows it. -/
theorem utf8_step_of_sequence {a : UInt8} {tail : List UInt8} {n : Nat} (h : Sequence a tail n)
    (more : List UInt8) : utf8Step a (tail ++ more) = .char (Char.ofNat n) tail.length := by
  unfold utf8Step
  simp only [UInt8.lt_iff_toNat_lt, UInt8.le_iff_toNat_le, UInt8.reduceToNat, Bool.and_eq_true,
    decide_eq_true_eq]
  cases h with
  | one ha hn =>
      rw [if_pos (by omega), ha]
      rfl
  | two ha hb hbits hlow hhigh =>
      rw [if_neg (by omega), if_pos (by omega), List.singleton_append, pairStep,
        if_pos (is_continuation_iff.mpr hb), payload]
      congr 2
      omega
  | three ha hb hbits hc hlast hlow hhigh hplain =>
      rename_i b c
      have hsecond : allowsSecondOfThree a b = true := by
        unfold Continues at hb
        rw [allows_second_of_three_iff]
        refine ⟨hb, ?_⟩
        omega
      rw [if_neg (by omega), if_neg (by omega), if_pos (by omega)]
      simp only [List.cons_append, tripleStep, hsecond, is_continuation_iff.mpr hc, if_true,
        payload]
      congr 2
      omega
  | four ha hb hbits hc hmiddle hd hlast hlow hhigh =>
      rename_i b c d
      have hsecond : allowsSecondOfFour a b = true := by
        unfold Continues at hb
        rw [allows_second_of_four_iff]
        refine ⟨hb, ?_⟩
        omega
      rw [if_neg (by omega), if_neg (by omega), if_neg (by omega), if_pos (by omega)]
      simp only [List.cons_append, quadrupleStep, hsecond, is_continuation_iff.mpr hc,
        is_continuation_iff.mpr hd, if_true]
      unfold payload
      congr 2
      omega

/-! ## What is read -/

section Steps

variable {a : UInt8} {rest : List UInt8} {char : Char} {continued : Nat}

/-- The bytes begin with the sequence of a code point. -/
def BeginWithSequence (a : UInt8) (rest : List UInt8) : Prop :=
  ∃ tail more n, rest = tail ++ more ∧ Sequence a tail n

/-- Two bytes that are read are a sequence. -/
theorem sequence_of_pair_step (ha : 0xC2 ≤ a.toNat ∧ a.toNat ≤ 0xDF)
    (h : pairStep a rest = .char char continued) : BeginWithSequence a rest := by
  unfold pairStep at h
  split at h
  · cases h
  · rename_i b more
    split_ifs at h with hb
    rw [is_continuation_iff] at hb
    exact ⟨[b], more, (a.toNat - 0xC0) * 64 + b.toNat % 64, rfl,
      .two (by omega) hb (by omega) (by omega) (by omega)⟩

/-- Three bytes that are read are a sequence. -/
theorem sequence_of_triple_step (ha : 0xE0 ≤ a.toNat ∧ a.toNat ≤ 0xEF)
    (h : tripleStep a rest = .char char continued) : BeginWithSequence a rest := by
  unfold tripleStep at h
  split at h
  · cases h
  · rename_i b tail
    split_ifs at h with hb
    split at h
    · cases h
    · rename_i c more
      split_ifs at h with hc
      rw [allows_second_of_three_iff] at hb
      rw [is_continuation_iff] at hc
      obtain ⟨hb, hlow, hhigh⟩ := hb
      have hbounds := hb
      unfold Continues at hbounds
      exact ⟨[b, c], more, (a.toNat - 0xE0) * 4096 + b.toNat % 64 * 64 + c.toNat % 64, rfl,
        .three (by omega) hb (by omega) hc (by omega) (by omega) (by omega) (by omega)⟩

/-- Four bytes that are read are a sequence. -/
theorem sequence_of_quadruple_step (ha : 0xF0 ≤ a.toNat ∧ a.toNat ≤ 0xF4)
    (h : quadrupleStep a rest = .char char continued) : BeginWithSequence a rest := by
  unfold quadrupleStep at h
  split at h
  · cases h
  · rename_i b tail
    split_ifs at h with hb
    split at h
    · cases h
    · rename_i c tail
      split_ifs at h with hc
      split at h
      · cases h
      · rename_i d more
        split_ifs at h with hd
        rw [allows_second_of_four_iff] at hb
        rw [is_continuation_iff] at hc hd
        obtain ⟨hb, hlow, hhigh⟩ := hb
        have hbounds := hb
        unfold Continues at hbounds
        exact ⟨[b, c, d], more, (a.toNat - 0xF0) * 262144 + b.toNat % 64 * 4096 +
            c.toNat % 64 * 64 + d.toNat % 64, rfl,
          .four (by omega) hb (by omega) hc (by omega) hd (by omega) (by omega) (by omega)⟩

/-- What is read is a sequence. -/
theorem sequence_of_utf8_step (h : utf8Step a rest = .char char continued) :
    ∃ tail more, rest = tail ++ more ∧ tail.length = continued ∧ Sequence a tail char.toNat := by
  have hbegin : BeginWithSequence a rest := by
    unfold utf8Step at h
    simp only [UInt8.lt_iff_toNat_lt, UInt8.le_iff_toNat_le, UInt8.reduceToNat, Bool.and_eq_true,
      decide_eq_true_eq] at h
    split_ifs at h with hone htwo hthree hfour
    · exact ⟨[], rest, a.toNat, rfl, .one rfl hone⟩
    · exact sequence_of_pair_step htwo h
    · exact sequence_of_triple_step hthree h
    · exact sequence_of_quadruple_step hfour h
  -- The sequence of a code point is read as the character with this number.
  obtain ⟨tail, more, n, rfl, hsequence⟩ := hbegin
  rw [utf8_step_of_sequence hsequence] at h
  cases h
  refine ⟨tail, more, rfl, rfl, ?_⟩
  rwa [char_of_nat hsequence.valid]

end Steps

/-! ## Whole texts -/

/-- A character in front is decoded from its bytes. -/
theorem decode_from_encode (c : Char) (offset : Nat) (done : List Char) (rest : List UInt8) :
    decodeUtf8From offset done (String.utf8EncodeChar c ++ rest) =
      decodeUtf8From (offset + (String.utf8EncodeChar c).length) (c :: done) rest := by
  obtain ⟨a, tail, hencoded, hsequence⟩ := sequence_encode c
  rw [hencoded, List.cons_append, decodeUtf8From, utf8_step_of_sequence hsequence]
  simp only [Char.ofNat_toNat, List.drop_left, List.length_cons, Nat.add_assoc]

/-- Characters are decoded from their bytes. -/
theorem decode_from_chars (cs : List Char) (offset : Nat) (done : List Char) :
    decodeUtf8From offset done (cs.flatMap String.utf8EncodeChar) = .ok (done.reverse ++ cs) := by
  induction cs generalizing offset done with
  | nil => rw [List.flatMap_nil, decodeUtf8From, List.append_nil]
  | cons c cs ih => rw [List.flatMap_cons, decode_from_encode, ih, List.reverse_cons,
      List.append_assoc, List.singleton_append]

/-- The characters that are decoded have the bytes that they are decoded from. -/
theorem chars_of_decode_from {bytes : List UInt8} {offset : Nat} {done cs : List Char}
    (h : decodeUtf8From offset done bytes = .ok cs) :
    ∃ decoded, cs = done.reverse ++ decoded ∧ bytes = decoded.flatMap String.utf8EncodeChar := by
  fun_induction decodeUtf8From offset done bytes with
  | case1 offset done =>
      cases h
      exact ⟨[], by simp⟩
  | case2 offset done a rest c continued hstep ih =>
      obtain ⟨tail, more, rfl, rfl, hsequence⟩ := sequence_of_utf8_step hstep
      rw [List.drop_left] at ih h
      obtain ⟨decoded, rfl, rfl⟩ := ih h
      refine ⟨c :: decoded, by simp, ?_⟩
      rw [List.flatMap_cons, sequence_iff.mp hsequence]
      rfl
  | case3 => cases h
  | case4 => cases h

/-- A text is decoded from its own bytes and from no others. -/
theorem decode_utf8_iff {bytes : List UInt8} {s : String} :
    decodeUtf8 bytes = .ok s ↔ bytes = utf8 s := by
  rw [utf8_of_chars, Text.bytes]
  constructor
  · intro h
    unfold decodeUtf8 at h
    cases hfrom : decodeUtf8From 0 [] bytes with
    | error e =>
        rw [hfrom] at h
        cases h
    | ok cs =>
        rw [hfrom] at h
        cases h
        obtain ⟨decoded, rfl, rfl⟩ := chars_of_decode_from hfrom
        rw [String.toList_ofList]
  · rintro rfl
    rw [decodeUtf8, decode_from_chars]
    exact congrArg Except.ok (String.ofList_toList)

end Rewards.Text
