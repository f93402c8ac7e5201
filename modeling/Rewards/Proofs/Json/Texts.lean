import Rewards.Json.Value
import Rewards.Proofs.Text.Bytes

/-!
# Reading documents that were written

A reader takes characters if it reads exactly their bytes, whatever follows. Readers that do are put
together with `Takes.bind`. A text of printable ASCII characters, other than quotes and backslashes,
stands in a document as it is, `text_chars_plain`, and is skipped as a value, `takes_ignored`.
-/

namespace Rewards

namespace Text

/-- A character of a single byte. -/
def IsAscii (c : Char) : Prop := c.toNat < 128

instance (c : Char) : Decidable (IsAscii c) := inferInstanceAs (Decidable (_ < _))

/-- A character of a single byte has no other byte. -/
theorem encode_ascii {c : Char} (h : IsAscii c) : String.utf8EncodeChar c = [Json.byte c] := by
  have hsingle : c.val.toNat ≤ 127 := Nat.lt_succ_iff.mp h
  simp only [String.utf8EncodeChar]
  rw [if_pos hsingle]
  rfl

/-- The first byte is that of the first character. -/
theorem bytes_cons {c : Char} (h : IsAscii c) (cs : List Char) :
    bytes (c :: cs) = Json.byte c :: bytes cs := by
  rw [bytes, List.flatMap_cons, encode_ascii h]
  rfl

/-- The byte of a character has its number. -/
theorem byte_to_nat {c : Char} (h : IsAscii c) : (Json.byte c).toNat = c.toNat := by
  have hfits : c.toNat < 2 ^ 8 := Nat.lt_trans h (by decide)
  exact Nat.mod_eq_of_lt hfits

/-- Characters with the same byte are the same. -/
theorem byte_injective {c d : Char} (hc : IsAscii c) (hd : IsAscii d)
    (h : Json.byte c = Json.byte d) : c = d := by
  rw [← Char.toNat_inj, ← byte_to_nat hc, ← byte_to_nat hd, h]

end Text

namespace Json

open Text (bytes IsAscii bytes_append bytes_cons byte_to_nat length_le_bytes)

/-- A character that stands for itself in a document: it is printable ASCII, and no quote or
backslash. -/
def IsPlain (c : Char) : Prop := 32 ≤ c.toNat ∧ c.toNat < 127 ∧ c ≠ '"' ∧ c ≠ '\\'

instance (c : Char) : Decidable (IsPlain c) := inferInstanceAs (Decidable (_ ∧ _))

theorem IsPlain.ascii {c : Char} (h : IsPlain c) : IsAscii c :=
  Nat.lt_trans h.2.1 (by decide)

section PlainBytes

variable {c : Char} (h : IsPlain c)
include h

theorem IsPlain.byte_ne_quote : byte c ≠ byte '"' :=
  fun heq => h.2.2.1 (Text.byte_injective h.ascii (by decide) heq)

theorem IsPlain.byte_ne_backslash : byte c ≠ byte '\\' :=
  fun heq => h.2.2.2 (Text.byte_injective h.ascii (by decide) heq)

theorem IsPlain.not_control : ¬ byte c < 32 := by
  rw [UInt8.lt_iff_toNat_lt, byte_to_nat h.ascii]
  exact Nat.not_lt_of_le h.1

end PlainBytes

/-- A text of plain characters. -/
def IsPlainText (s : String) : Prop := ∀ c ∈ s.toList, IsPlain c

instance (s : String) : Decidable (IsPlainText s) := List.decidableBAll IsPlain s.toList

/-- A plain character is not escaped. -/
theorem escaped_plain {c : Char} (h : IsPlain c) : escapedChar c = [c] := by
  obtain ⟨hlow, -, hquote, hbackslash⟩ := h
  have hcontrol (d : Char) (hd : d.toNat < 32) : c ≠ d := by
    rintro rfl
    omega
  unfold escapedChar
  rw [if_neg hquote, if_neg hbackslash, if_neg (by omega), if_neg (by omega),
    if_neg (hcontrol '\n' (by decide)), if_neg (hcontrol '\r' (by decide)),
    if_neg (hcontrol '\t' (by decide)), if_neg (by omega), if_neg (by omega)]

/-- A plain text stands between quotes as it is. -/
theorem text_chars_plain {s : String} (h : IsPlainText s) :
    textChars s = '"' :: (s.toList ++ ['"']) := by
  have hsame : s.toList.flatMap escapedChar = s.toList := by
    unfold IsPlainText at h
    generalize s.toList = cs at h
    induction cs with
    | nil => rfl
    | cons c cs ih =>
        rw [List.flatMap_cons, escaped_plain (h c List.mem_cons_self),
          ih fun d hd => h d (List.mem_cons_of_mem c hd)]
        rfl
  rw [textChars, hsame, List.cons_append]

namespace Reader

variable {α β : Type} {reader : Reader α} {cs ds : List Char} {a : α} {b : β}

/-- A reader goes on with what it has read. -/
theorem run_bind_ok {before after : List UInt8} (h : StateT.run reader before = .ok (a, after))
    (f : α → Reader β) : StateT.run (reader >>= f) before = StateT.run (f a) after := by
  rw [StateT.run_bind, h]
  rfl

/-! ## Taking characters -/

/-- The reader reads the bytes of the characters and nothing more, whatever follows them, and gives
this value. -/
def Takes (reader : Reader α) (cs : List Char) (a : α) : Prop :=
  ∀ rest, StateT.run reader (bytes cs ++ rest) = .ok (a, rest)

theorem takes_pure (a : α) : Takes (pure a) [] a := fun _ => rfl

/-- What two readers take one after the other. -/
theorem Takes.bind {f : α → Reader β} (h : Takes reader cs a) (hf : Takes (f a) ds b) :
    Takes (reader >>= f) (cs ++ ds) b := by
  intro rest
  rw [bytes_append, List.append_assoc, run_bind_ok (h _)]
  exact hf rest

/-- What is made of a value that was read. -/
theorem Takes.map {f : α → Reader β} (h : Takes reader cs a) (hf : Takes (f a) [] b) :
    Takes (reader >>= f) cs b := by
  have hbind := h.bind hf
  rwa [List.append_nil] at hbind

/-- A document that is taken as a whole. -/
theorem Takes.run (h : Takes reader cs a) : Reader.run reader (bytes cs) = .ok a := by
  have htaken := h []
  rw [List.append_nil] at htaken
  rw [Reader.run, htaken]
  rfl

/-! ## Marks -/

/-- A character that is not skipped as white space. -/
def IsMark (c : Char) : Prop := IsAscii c ∧ isSpace (byte c) = false

instance (c : Char) : Decidable (IsMark c) := inferInstanceAs (Decidable (_ ∧ _))

/-- A byte that comes next is looked at and stays. -/
theorem peek_byte {b : UInt8} (h : isSpace b = false) (rest : List UInt8) :
    StateT.run peek (b :: rest) = .ok (some b, b :: rest) := by
  show Except.ok _ = _
  rw [List.dropWhile_cons_of_neg (by simp [h])]
  rfl

/-- A mark that comes next is looked at and stays. -/
theorem peek_mark {c : Char} (h : IsMark c) (cs : List Char) (rest : List UInt8) :
    StateT.run peek (bytes (c :: cs) ++ rest) = .ok (some (byte c), bytes (c :: cs) ++ rest) := by
  rw [bytes_cons h.1]
  exact peek_byte h.2 _

/-- A reader that looks at what comes next. -/
theorem takes_peek {c : Char} (hc : IsMark c) {f : Option UInt8 → Reader α}
    (h : Takes (f (some (byte c))) (c :: cs) a) : Takes (peek >>= f) (c :: cs) a := by
  intro rest
  rw [run_bind_ok (peek_mark hc cs rest)]
  exact h rest

/-- One character is skipped. -/
theorem takes_skip {c : Char} (h : IsAscii c) : Takes skip [c] () := by
  intro rest
  rw [bytes_cons h]
  rfl

/-- A mark is taken. -/
theorem takes_mark {c : Char} (h : IsMark c) : Takes (mark c) [c] () := by
  refine takes_peek h ?_
  rw [if_pos (beq_self_eq_true _)]
  exact takes_skip h.1

/-! ## Texts -/

/-- The bytes of characters and of the quote after them. -/
theorem bytes_quote (cs : List Char) (rest : List UInt8) :
    bytes (cs ++ ['"']) ++ rest = bytes cs ++ byte '"' :: rest := by
  rw [bytes_append, bytes_cons (by decide), List.append_assoc]
  rfl

/-- The bytes up to a quote are fuel enough for the characters before it. -/
theorem fuel_of_bytes (cs : List Char) (rest : List UInt8) :
    cs.length < (bytes cs ++ byte '"' :: rest).length + 1 := by
  have hlength := length_le_bytes cs
  rw [List.length_append]
  omega

/-- A value that is not null is read where null is allowed too. -/
theorem Takes.optional {c : Char} (hc : IsMark c) (hn : c ≠ 'n') (h : Takes reader (c :: cs) a) :
    Takes (optional reader) (c :: cs) (some a) := by
  refine takes_peek hc ?_
  have hother : ¬ (some (byte c) == some (byte 'n')) = true := by
    rw [beq_iff_eq, Option.some_inj]
    exact fun heq => hn (Text.byte_injective hc.1 (by decide) heq)
  rw [if_neg hother]
  exact h.map (f := fun a => pure (some a)) (takes_pure _)

/-! ## Skipped texts -/

/-- A plain character is skipped. -/
theorem skip_string_plain {c : Char} (h : IsPlain c) (fuel : Nat) (rest : List UInt8) :
    skipString (fuel + 1) (byte c :: rest) = skipString fuel rest := by
  rw [skipString.eq_def]
  simp only [h.byte_ne_quote, h.not_control, h.byte_ne_backslash, if_false, ne_eq,
    not_false_eq_true, if_true]

/-- Plain characters are skipped up to the quote after them. -/
theorem skip_string_quote (h : ∀ c ∈ cs, IsPlain c) {fuel : Nat} (hfuel : cs.length < fuel)
    (rest : List UInt8) : skipString fuel (bytes cs ++ byte '"' :: rest) = some rest := by
  induction cs generalizing fuel with
  | nil =>
      obtain ⟨more, rfl⟩ := Nat.exists_eq_succ_of_ne_zero (Nat.ne_of_gt hfuel)
      unfold skipString
      simp
  | cons c cs ih =>
      obtain ⟨more, rfl⟩ := Nat.exists_eq_succ_of_ne_zero (Nat.ne_zero_of_lt hfuel)
      have hc := h c List.mem_cons_self
      rw [bytes_cons hc.ascii, List.cons_append, skip_string_plain hc]
      exact ih (fun d hd => h d (List.mem_cons_of_mem c hd)) (Nat.lt_of_succ_lt_succ hfuel)

/-- A plain text is skipped after its opening quote. -/
theorem takes_ignored_string (h : ∀ c ∈ cs, IsPlain c) : Takes ignoredString (cs ++ ['"']) () := by
  intro rest
  rw [bytes_quote]
  show ignoredString _ = _
  rw [ignoredString, skip_string_quote h (fuel_of_bytes cs rest)]

/-- A plain text is skipped as a value. -/
theorem takes_ignored {s : String} (h : IsPlainText s) : Takes ignored (textChars s) () := by
  rw [text_chars_plain h]
  have hvalue (fuel : Nat) :
      Takes (ignoredFrom (fuel + 2) .value []) ('"' :: (s.toList ++ ['"'])) () := by
    unfold ignoredFrom
    refine takes_peek (by decide) ?_
    have htext := (takes_skip (c := '"') (by decide)).bind (f := fun _ => ignoredString)
      (takes_ignored_string h)
    exact htext.map (takes_pure ())
  exact fun rest => hvalue _ rest

end Reader

end Json

end Rewards
