import Rewards.Proofs.Json.Texts
import Rewards.Proofs.Text.Encoding

/-!
# Reading texts from documents

A character of a text is written in one of three spellings: as it is, with a letter after a
backslash, or with the four digits of its number. Each spelling is read as the bytes of the
character. So every text is read from its own document, `takes_text`, with quotes, controls and
characters of any alphabet.
-/

namespace Rewards.Json

open Text (bytes IsAscii bytes_append bytes_cons byte_to_nat)

/-! ## Spellings -/

/-- The ways of writing a character between quotes. -/
inductive Spelling (c : Char) : List Char → Prop where
  | verbatim : 32 ≤ c.toNat → c ≠ '"' → c ≠ '\\' → Spelling c [c]
  | short (e : Char) :
      IsAscii e → e ≠ 'u' → IsAscii c → Reader.shortEscape (byte e) = some (byte c) →
      Spelling c ['\\', e]
  | unicode (high low : Char) :
      IsAscii high → IsAscii low → Reader.hexValue (byte high) = some (c.toNat / 16) →
      Reader.hexValue (byte low) = some (c.toNat % 16) → c.toNat < 32 →
      Spelling c ['\\', 'u', '0', '0', high, low]

/-- The digits of a small number to the base 16. -/
theorem small_digits : ∀ n < 32,
    (if n < 16 then '0' :: Nat.toDigits 16 n else Nat.toDigits 16 n) =
      [Nat.digitChar (n / 16), Nat.digitChar (n % 16)] := by
  decide

/-- The value of a hexadecimal digit that is written. -/
theorem hex_digit : ∀ d < 16, IsAscii (Nat.digitChar d) ∧
    Reader.hexValue (byte (Nat.digitChar d)) = some d := by
  decide

/-- A character is written in one of the spellings. -/
theorem spelling_escaped (c : Char) : Spelling c (escapedChar c) := by
  have hnamed {n : Nat} (d : Char) (hd : d.toNat = n) (hc : c.toNat = n) : c = d :=
    Char.toNat_inj.mp (hc.trans hd.symm)
  have hhex (h : c.toNat < 32) : Spelling c
      ['\\', 'u', '0', '0', Nat.digitChar (c.toNat / 16), Nat.digitChar (c.toNat % 16)] := by
    obtain ⟨hhigh, hhighValue⟩ := hex_digit (c.toNat / 16) (by omega)
    obtain ⟨hlow, hlowValue⟩ := hex_digit (c.toNat % 16) (by omega)
    exact .unicode _ _ hhigh hlow hhighValue hlowValue h
  unfold escapedChar
  split_ifs with hquote hbackslash hbackspace hfeed hline hreturn htab hsmall hcontrol
  · rw [hquote]
    exact .short '"' (by decide) (by decide) (by decide) rfl
  · rw [hbackslash]
    exact .short '\\' (by decide) (by decide) (by decide) rfl
  · rw [hnamed '\x08' rfl hbackspace]
    exact .short 'b' (by decide) (by decide) (by decide) rfl
  · rw [hnamed '\x0c' rfl hfeed]
    exact .short 'f' (by decide) (by decide) (by decide) rfl
  · rw [hline]
    exact .short 'n' (by decide) (by decide) (by decide) rfl
  · rw [hreturn]
    exact .short 'r' (by decide) (by decide) (by decide) rfl
  · rw [htab]
    exact .short 't' (by decide) (by decide) (by decide) rfl
  · have hdigits := small_digits c.toNat (by omega)
    rw [if_pos hsmall] at hdigits
    show Spelling c ('\\' :: 'u' :: '0' :: '0' :: ('0' :: Nat.toDigits 16 c.toNat))
    rw [hdigits]
    exact hhex (by omega)
  · have hdigits := small_digits c.toNat hcontrol
    rw [if_neg hsmall] at hdigits
    show Spelling c ('\\' :: 'u' :: '0' :: '0' :: Nat.toDigits 16 c.toNat)
    rw [hdigits]
    exact hhex hcontrol
  · exact .verbatim (by omega) hquote hbackslash

namespace Reader

/-! ## Reading spellings -/

/-- A byte that stands for itself between quotes. -/
def IsVerbatim (b : UInt8) : Prop := b ≠ byte '"' ∧ ¬ b < 32 ∧ b ≠ byte '\\'

/-- The bytes of a character that is written as it is stand for themselves. -/
theorem verbatim_bytes {c : Char} (hcontrol : 32 ≤ c.toNat) (hquote : c ≠ '"')
    (hbackslash : c ≠ '\\') : ∀ b ∈ String.utf8EncodeChar c, IsVerbatim b := by
  obtain ⟨a, tail, hencoded, hsequence⟩ := Text.sequence_encode c
  -- Only the byte of an ASCII character is one of these.
  have hlarge {b : UInt8} (h : 0x80 ≤ b.toNat) : IsVerbatim b := by
    have hother (d : Char) (hd : IsAscii d) : b ≠ byte d := by
      rintro rfl
      rw [byte_to_nat hd] at h
      exact Nat.not_lt_of_le h hd
    refine ⟨hother _ (by decide), ?_, hother _ (by decide)⟩
    rw [UInt8.lt_iff_toNat_lt]
    exact Nat.not_lt_of_le (Nat.le_trans (by decide) h)
  rw [hencoded]
  have htail {b : UInt8} (h : Text.Continues b) : IsVerbatim b := hlarge h.1
  cases hsequence with
  | one ha hsmall =>
      have hbyte : a = byte c := by
        rw [← UInt8.toNat_inj, ha, byte_to_nat hsmall]
      have hne (d : Char) (hd : IsAscii d) (h : c ≠ d) : a ≠ byte d := by
        rw [hbyte]
        exact fun heq => h (Text.byte_injective hsmall hd heq)
      intro b hb
      rw [List.mem_singleton.mp hb]
      refine ⟨hne _ (by decide) hquote, ?_, hne _ (by decide) hbackslash⟩
      rw [UInt8.lt_iff_toNat_lt, ha]
      exact Nat.not_lt_of_le hcontrol
  | two ha hb =>
      simp only [List.forall_mem_cons]
      exact ⟨hlarge (by omega), htail hb, nofun⟩
  | three ha hb _ hc =>
      simp only [List.forall_mem_cons]
      exact ⟨hlarge (by omega), htail hb, htail hc, nofun⟩
  | four ha hb _ hc _ hd =>
      simp only [List.forall_mem_cons]
      exact ⟨hlarge (by omega), htail hb, htail hc, htail hd, nofun⟩

variable (fuel : Nat) (done rest : List UInt8)

/-- Bytes that stand for themselves are read as they are. -/
theorem string_bytes_verbatim {bs : List UInt8} (h : ∀ b ∈ bs, IsVerbatim b) :
    stringBytes (fuel + bs.length) done (bs ++ rest) =
      stringBytes fuel (bs.reverse ++ done) rest := by
  induction bs generalizing done with
  | nil => rfl
  | cons b bs ih =>
      obtain ⟨hquote, hcontrol, hbackslash⟩ := h b List.mem_cons_self
      rw [List.length_cons, ← Nat.add_assoc, List.cons_append, stringBytes.eq_def]
      simp only [hquote, hcontrol, hbackslash, if_false, ne_eq, not_false_eq_true, if_true]
      rw [ih _ fun d hd => h d (List.mem_cons_of_mem b hd), List.reverse_cons, List.append_assoc]
      rfl

/-- A backslash and a letter are read as the byte that they stand for. -/
theorem string_bytes_short {e : Char} {b : UInt8} (he : IsAscii e) (hletter : e ≠ 'u')
    (h : shortEscape (byte e) = some b) :
    stringBytes (fuel + 1) done (byte '\\' :: byte e :: rest) =
      stringBytes fuel (b :: done) rest := by
  have hother : byte e ≠ byte 'u' :=
    fun heq => hletter (Text.byte_injective he (by decide) heq)
  have hmarks : byte '\\' ≠ byte '"' ∧ ¬ byte '\\' < 32 := by decide
  rw [stringBytes.eq_def]
  simp only [hmarks, hother, h, if_false, ne_eq, not_true_eq_false]

/-- The number of a character in four digits is read as its bytes. -/
theorem string_bytes_unicode {n : Nat} {more : List UInt8}
    (h : unicodeEscape rest = some (n, more)) :
    stringBytes (fuel + 1) done (byte '\\' :: byte 'u' :: rest) =
      stringBytes fuel ((String.utf8EncodeChar (Char.ofNat n)).reverse ++ done) more := by
  have hmarks : byte '\\' ≠ byte '"' ∧ ¬ byte '\\' < 32 := by decide
  have hsingle : Text.utf8 (String.singleton (Char.ofNat n)) =
      String.utf8EncodeChar (Char.ofNat n) := by
    rw [Text.utf8_of_chars, String.toList_singleton, Text.bytes, List.flatMap_singleton]
  rw [stringBytes.eq_def]
  simp only [hmarks, h, hsingle, if_false, if_true, ne_eq, not_true_eq_false]

/-- A spelling is read as the bytes of its character. It takes no more fuel than it has bytes. -/
theorem string_bytes_spelling {c : Char} {cs : List Char} (h : Spelling c cs) :
    ∃ used ≤ (bytes cs).length, ∀ fuel done rest,
      stringBytes (fuel + used) done (bytes cs ++ rest) =
        stringBytes fuel ((String.utf8EncodeChar c).reverse ++ done) rest := by
  cases h with
  | verbatim hcontrol hquote hbackslash =>
      have hbytes : bytes [c] = String.utf8EncodeChar c := List.flatMap_singleton ..
      refine ⟨(bytes [c]).length, Nat.le_refl _, fun fuel done rest => ?_⟩
      rw [hbytes]
      exact string_bytes_verbatim fuel done rest (verbatim_bytes hcontrol hquote hbackslash)
  | short e he hletter hc hvalue =>
      have hcode : String.utf8EncodeChar c = [byte c] := by
        have hcons := bytes_cons hc []
        rwa [bytes, List.flatMap_singleton] at hcons
      refine ⟨1, ?_, fun fuel done rest => ?_⟩
      · rw [bytes_cons (by decide)]
        exact Nat.le_add_left 1 _
      · rw [bytes_cons (by decide), bytes_cons he, hcode]
        exact string_bytes_short fuel done rest he hletter hvalue
  | unicode high low hhigh hlow hhighValue hlowValue hsmall =>
      refine ⟨1, ?_, fun fuel done rest => ?_⟩
      · rw [bytes_cons (by decide)]
        exact Nat.le_add_left 1 _
      · have hzero : hexValue (byte '0') = some 0 := by decide
        have hfour : fourHex (byte '0' :: byte '0' :: byte high :: byte low :: rest) =
            some (c.toNat, rest) := by
          have hvalue : ((0 * 16 + 0) * 16 + c.toNat / 16) * 16 + c.toNat % 16 = c.toNat := by omega
          simp only [fourHex, hzero, hhighValue, hlowValue, Option.bind_eq_bind, Option.bind_some,
            hvalue]
          rfl
        have hescape : unicodeEscape (byte '0' :: byte '0' :: byte high :: byte low :: rest) =
            some (c.toNat, rest) := by
          have hplain : (decide (c.toNat < 0xD800) || decide (0xDFFF < c.toNat)) = true := by
            rw [decide_eq_true (by omega : c.toNat < 0xD800), Bool.true_or]
          rw [unicodeEscape, hfour]
          simp only [Option.bind_eq_bind, Option.bind_some, hplain, if_true]
        have hread := string_bytes_unicode fuel done _ hescape
        rw [Char.ofNat_toNat] at hread
        rw [bytes_cons (by decide), bytes_cons (by decide), bytes_cons (by decide),
          bytes_cons (by decide), bytes_cons hhigh, bytes_cons hlow]
        exact hread

/-- Characters are read up to the quote after them. -/
theorem string_bytes_text {cs : List Char} {fuel : Nat}
    (hfuel : (bytes (cs.flatMap escapedChar)).length < fuel) (done rest : List UInt8) :
    stringBytes fuel done (bytes (cs.flatMap escapedChar) ++ byte '"' :: rest) =
      some (done.reverse ++ bytes cs, rest) := by
  induction cs generalizing fuel done with
  | nil =>
      obtain ⟨more, rfl⟩ := Nat.exists_eq_succ_of_ne_zero (Nat.ne_of_gt hfuel)
      unfold stringBytes
      simp
  | cons c cs ih =>
      obtain ⟨used, hused, hread⟩ := string_bytes_spelling (spelling_escaped c)
      rw [List.flatMap_cons, bytes_append, List.length_append] at hfuel
      obtain ⟨left, rfl⟩ := Nat.exists_eq_add_of_le' (show used ≤ fuel by omega)
      rw [List.flatMap_cons, bytes_append, List.append_assoc, hread, ih (by omega)]
      simp [bytes]

/-! ## Reading texts -/

/-- A text is read after its opening quote, whatever its characters are. -/
theorem takes_text_tail (s : String) :
    Takes stringTail (s.toList.flatMap escapedChar ++ ['"']) s := by
  intro rest
  rw [bytes_quote]
  show stringTail _ = _
  have hfuel : (bytes (s.toList.flatMap escapedChar)).length <
      (bytes (s.toList.flatMap escapedChar) ++ byte '"' :: rest).length + 1 := by
    rw [List.length_append]
    omega
  have hdecode : Text.decodeUtf8 (bytes s.toList) = .ok s := by
    rw [Text.decode_utf8_iff, Text.utf8_of_chars]
  rw [stringTail, string_bytes_text hfuel]
  simp only [List.reverse_nil, List.nil_append, hdecode]

section Quoted

variable {α : Type} {a : α} {s : String}

/-- What is made of a text after its opening quote was looked at. -/
theorem takes_quoted {f : String → Reader α} (h : Takes (f s) [] a) :
    Takes (do skip; f (← stringTail)) (textChars s) a :=
  (takes_skip (c := '"') (by decide)).bind (f := fun _ => do f (← stringTail))
    ((takes_text_tail s).map h)

/-- A text is read. -/
theorem takes_text (s : String) (expected : String) : Takes (string expected) (textChars s) s := by
  refine takes_peek (by decide) ?_
  rw [if_pos (beq_self_eq_true _)]
  exact (takes_skip (c := '"') (by decide)).bind (f := fun _ => stringTail) (takes_text_tail s)

/-- A choice is read by its name. -/
theorem takes_choice {ofName : String → Option α} (h : ofName s = some a) :
    Takes (choice ofName) (textChars s) a := by
  have hnamed : Takes (named ofName s) [] a := by
    rw [named, h]
    exact takes_pure a
  refine takes_peek (by decide) ?_
  exact takes_quoted hnamed

end Quoted

end Reader

end Rewards.Json
