import Rewards.Proofs.Decimal.Texts
import Rewards.Proofs.Json.Texts

/-!
# Reading numerals

A numeral may be written with either mark before its exponent, and with a plus sign after it. All
its texts are read back, `run_numeral`, if what follows does not go on with the numeral.
-/

namespace Rewards.Json

open Text (bytes IsAscii bytes_append bytes_cons)
open Decimal (withSign pointed)

/-- The characters of digits. -/
def digitChars (ds : List Nat) : List Char := ds.map Nat.digitChar

namespace Numeral

/-- The characters of an exponent. -/
def exponentChars (mark : Char) (plus : Bool) : Option (Bool × List Nat) → List Char
  | none => []
  | some (down, ds) =>
      mark :: ((if down then ['-'] else if plus then ['+'] else []) ++ digitChars ds)

/-- The characters of a numeral. -/
def chars (n : Numeral) (mark : Char) (plus : Bool) : List Char :=
  withSign n.negative
    (pointed (digitChars n.whole) (digitChars n.fraction) ++ exponentChars mark plus n.exponent)

/-- The numeral follows the grammar: its digits are decimal, there are some before the point and
after the mark of an exponent, and a leading zero stands alone. -/
structure IsWellFormed (n : Numeral) : Prop where
  whole_ne_nil : n.whole ≠ []
  whole : ∀ d ∈ n.whole, d < 10
  fraction : ∀ d ∈ n.fraction, d < 10
  exponent : ∀ down ds, n.exponent = some (down, ds) → ds ≠ [] ∧ ∀ d ∈ ds, d < 10
  leading : n.whole.head? = some 0 → n.whole.length = 1

/-- The characters are a text of the numeral. -/
def IsText (n : Numeral) (cs : List Char) : Prop :=
  ∃ mark plus, (mark = 'e' ∨ mark = 'E') ∧ cs = n.chars mark plus

end Numeral

namespace Reader

variable {ds : List Nat} {c : Char} {rest : List UInt8}

/-! ## Digits and marks -/

/-- The byte of a digit. -/
theorem byte_digit {d : Nat} (h : d < 10) :
    IsMark (Nat.digitChar d) ∧ isDigit (byte (Nat.digitChar d)) = true ∧
      (byte (Nat.digitChar d)).toNat - 48 = d := by
  have hall : ∀ d < 10, IsMark (Nat.digitChar d) ∧ isDigit (byte (Nat.digitChar d)) = true ∧
      (byte (Nat.digitChar d)).toNat - 48 = d := by decide
  exact hall d h

/-- The bytes do not begin with a digit. -/
def NoDigit (rest : List UInt8) : Prop := ∀ b ∈ rest.head?, isDigit b = false

/-- Digits are read up to a byte that is none. -/
theorem run_digits (hds : ∀ d ∈ ds, d < 10) (hrest : NoDigit rest) :
    StateT.run digits (bytes (digitChars ds) ++ rest) = .ok (ds, rest) := by
  have htake : (bytes (digitChars ds) ++ rest).takeWhile isDigit = bytes (digitChars ds) ∧
      (bytes (digitChars ds) ++ rest).dropWhile isDigit = rest ∧
      (bytes (digitChars ds)).map (fun b => b.toNat - 48) = ds := by
    induction ds with
    | nil =>
        cases rest with
        | nil => exact ⟨rfl, rfl, rfl⟩
        | cons b rest =>
            have hb : ¬ isDigit b = true := by simp [hrest b rfl]
            exact ⟨List.takeWhile_cons_of_neg hb, List.dropWhile_cons_of_neg hb, rfl⟩
    | cons d ds ih =>
        obtain ⟨hascii, hdigit, hvalue⟩ := byte_digit (hds d List.mem_cons_self)
        obtain ⟨htake, hdrop, hmap⟩ := ih fun d hd => hds d (List.mem_cons_of_mem _ hd)
        have hbytes : bytes (digitChars (d :: ds)) =
            byte (Nat.digitChar d) :: bytes (digitChars ds) := bytes_cons hascii.1 _
        rw [hbytes, List.cons_append, List.takeWhile_cons_of_pos hdigit,
          List.dropWhile_cons_of_pos hdigit, htake, List.map_cons, hmap, hvalue]
        exact ⟨rfl, hdrop, rfl⟩
  obtain ⟨htake, hdrop, hmap⟩ := htake
  show Except.ok _ = _
  rw [htake, hdrop, hmap]

/-- At least one digit is read. -/
theorem run_some_digits (hne : ds ≠ []) (hds : ∀ d ∈ ds, d < 10) (hrest : NoDigit rest) :
    StateT.run someDigits (bytes (digitChars ds) ++ rest) = .ok (ds, rest) := by
  unfold someDigits
  rw [run_bind_ok (run_digits hds hrest)]
  cases ds with
  | nil => exact absurd rfl hne
  | cons d ds => rfl

/-- A character that comes next is accepted. -/
theorem run_accept (c : Char) (rest : List UInt8) :
    StateT.run (accept c) (byte c :: rest) = .ok (true, rest) := by
  show Except.ok (if byte c = byte c then _ else _) = _
  rw [if_pos rfl]

/-- Another character is left. -/
theorem run_accept_other (h : ∀ b ∈ rest.head?, b ≠ byte c) :
    StateT.run (accept c) rest = .ok (false, rest) := by
  cases rest with
  | nil => rfl
  | cons b rest =>
      show Except.ok (if b = byte c then _ else _) = _
      rw [if_neg (h b rfl)]

/-- Either mark of an exponent is accepted. -/
theorem run_accept_mark (h : c = 'e' ∨ c = 'E') (rest : List UInt8) :
    StateT.run acceptMark (byte c :: rest) = .ok (true, rest) := by
  unfold acceptMark
  rcases h with rfl | rfl
  · rw [run_bind_ok (run_accept _ _)]
    rfl
  · rw [run_bind_ok (run_accept_other (by rintro b ⟨⟩; decide))]
    exact run_accept _ _

/-! ## Numerals -/

/-- The bytes do not go on with a numeral. -/
def Ends (rest : List UInt8) : Prop :=
  ∀ b ∈ rest.head?, isDigit b = false ∧ b ≠ byte '.' ∧ b ≠ byte 'e' ∧ b ≠ byte 'E'

theorem Ends.no_digit (h : Ends rest) : NoDigit rest := fun b hb => (h b hb).1

/-- No mark of an exponent is accepted at the end. -/
theorem Ends.run_accept_mark (h : Ends rest) : StateT.run acceptMark rest = .ok (false, rest) := by
  unfold acceptMark
  rw [run_bind_ok (run_accept_other fun b hb => (h b hb).2.2.1)]
  exact run_accept_other fun b hb => (h b hb).2.2.2

variable {n : Numeral} {mark : Char} (plus : Bool)

/-- An exponent does not begin with a digit or a point. -/
theorem exponent_head (hmark : mark = 'e' ∨ mark = 'E') (h : Ends rest)
    (exponent : Option (Bool × List Nat)) :
    ∀ b ∈ (bytes (Numeral.exponentChars mark plus exponent) ++ rest).head?,
      isDigit b = false ∧ b ≠ byte '.' := by
  intro b hb
  cases exponent with
  | none => exact ⟨(h b hb).1, (h b hb).2.1⟩
  | some written =>
      have hascii : IsAscii mark := by rcases hmark with rfl | rfl <;> decide
      rw [Numeral.exponentChars, bytes_cons hascii] at hb
      cases hb
      rcases hmark with rfl | rfl <;> decide

/-- The sign and the digits of an exponent. -/
theorem run_exponent (hmark : mark = 'e' ∨ mark = 'E') (h : Ends rest) (hn : n.IsWellFormed) :
    StateT.run (do
      if ← acceptMark then
        let down ← accept '-'
        let _ ← if down then pure false else accept '+'
        let power ← someDigits
        return ⟨n.negative, n.whole, n.fraction, some (down, power)⟩
      else return ⟨n.negative, n.whole, n.fraction, none⟩)
        (bytes (Numeral.exponentChars mark plus n.exponent) ++ rest) = .ok (n, rest) := by
  obtain ⟨negative, whole, fraction, exponent⟩ := n
  cases exponent with
  | none =>
      rw [Numeral.exponentChars, Text.bytes_nil, List.nil_append, run_bind_ok h.run_accept_mark]
      rfl
  | some written =>
      obtain ⟨down, ds⟩ := written
      obtain ⟨hne, hds⟩ := hn.exponent down ds rfl
      have hascii : IsAscii mark := by rcases hmark with rfl | rfl <;> decide
      have hpower := run_some_digits hne hds h.no_digit
      obtain ⟨d, ds, rfl⟩ := List.exists_cons_of_ne_nil hne
      obtain ⟨hdigit, hisDigit, -⟩ := byte_digit (hds d List.mem_cons_self)
      have hother (c : Char) (hc : isDigit (byte c) = false) :
          ∀ b ∈ (bytes (digitChars (d :: ds)) ++ rest).head?, b ≠ byte c := by
        intro b hb heq
        rw [digitChars, List.map_cons, bytes_cons hdigit.1] at hb
        cases hb
        rw [heq, hc] at hisDigit
        cases hisDigit
      rw [Numeral.exponentChars, bytes_cons hascii, List.cons_append,
        run_bind_ok (run_accept_mark hmark _), if_pos rfl, bytes_append, List.append_assoc]
      cases down with
      | true =>
          rw [if_pos rfl, bytes_cons (by decide), List.cons_append, run_bind_ok (run_accept '-' _),
            if_pos rfl]
          refine (run_bind_ok (a := false) rfl _).trans ?_
          exact run_bind_ok hpower _
      | false =>
          rw [if_neg Bool.false_ne_true]
          cases plus with
          | true =>
              rw [if_pos rfl, bytes_cons (by decide), List.cons_append,
                run_bind_ok (run_accept_other (by rintro b ⟨⟩; decide)), if_neg Bool.false_ne_true,
                run_bind_ok (run_accept '+' _)]
              exact run_bind_ok hpower _
          | false =>
              rw [if_neg Bool.false_ne_true, Text.bytes_nil, List.nil_append,
                run_bind_ok (run_accept_other (hother '-' (by decide))), if_neg Bool.false_ne_true,
                run_bind_ok (run_accept_other (hother '+' (by decide)))]
              exact run_bind_ok hpower _

/-- The fraction and the exponent of a numeral. -/
theorem run_fraction (hmark : mark = 'e' ∨ mark = 'E') (h : Ends rest) (hn : n.IsWellFormed) :
    StateT.run (do
      let fraction ← if ← accept '.' then someDigits else pure []
      if ← acceptMark then
        let down ← accept '-'
        let _ ← if down then pure false else accept '+'
        let power ← someDigits
        return ⟨n.negative, n.whole, fraction, some (down, power)⟩
      else return ⟨n.negative, n.whole, fraction, none⟩)
        (bytes (if digitChars n.fraction = [] then [] else '.' :: digitChars n.fraction) ++
          (bytes (Numeral.exponentChars mark plus n.exponent) ++ rest)) = .ok (n, rest) := by
  have hexponent := run_exponent plus hmark h hn
  have hhead := exponent_head plus hmark h n.exponent
  split
  · rename_i hnone
    have hfraction : n.fraction = [] := List.map_eq_nil_iff.mp hnone
    rw [Text.bytes_nil, List.nil_append, run_bind_ok (run_accept_other fun b hb => (hhead b hb).2),
      if_neg Bool.false_ne_true]
    rw [hfraction] at hexponent
    exact hexponent
  · rename_i hsome
    have hne : n.fraction ≠ [] := fun hnil => hsome (by rw [hnil]; rfl)
    have hdigits := run_some_digits hne hn.fraction fun b hb => (hhead b hb).1
    rw [bytes_cons (by decide), List.cons_append, run_bind_ok (run_accept '.' _), if_pos rfl]
    exact (run_bind_ok hdigits _).trans hexponent

/-- A numeral is read from all its texts. -/
theorem run_numeral (hmark : mark = 'e' ∨ mark = 'E') (h : Ends rest) (hn : n.IsWellFormed) :
    StateT.run numeral (bytes (n.chars mark plus) ++ rest) = .ok (n, rest) := by
  have hfraction := run_fraction plus hmark h hn
  have hhead := exponent_head plus hmark h n.exponent
  have hpoint : NoDigit (bytes (if digitChars n.fraction = [] then [] else
      '.' :: digitChars n.fraction) ++
        (bytes (Numeral.exponentChars mark plus n.exponent) ++ rest)) := by
    split
    · exact fun b hb => (hhead b hb).1
    · rw [bytes_cons (by decide)]
      rintro b ⟨⟩
      decide
  have hwhole := run_some_digits hn.whole_ne_nil hn.whole hpoint
  have hleading : ¬ ((decide (1 < n.whole.length) && n.whole.head? == some 0) = true) := by
    rw [Bool.and_eq_true, decide_eq_true_eq, beq_iff_eq]
    rintro ⟨hmore, hzero⟩
    rw [hn.leading hzero] at hmore
    exact Nat.lt_irrefl 1 hmore
  have hsign : StateT.run (accept '-') (bytes (n.chars mark plus) ++ rest) =
      .ok (n.negative, bytes (digitChars n.whole) ++
        (bytes (if digitChars n.fraction = [] then [] else '.' :: digitChars n.fraction) ++
          (bytes (Numeral.exponentChars mark plus n.exponent) ++ rest))) := by
    rw [Numeral.chars, withSign, pointed, bytes_append, bytes_append, bytes_append,
      List.append_assoc, List.append_assoc, List.append_assoc]
    cases n.negative with
    | true =>
        rw [if_pos rfl, bytes_cons (by decide)]
        exact run_accept '-' _
    | false =>
        obtain ⟨d, ds, hcons⟩ := List.exists_cons_of_ne_nil hn.whole_ne_nil
        obtain ⟨hascii, hdigit, -⟩ := byte_digit (hn.whole d (hcons ▸ List.mem_cons_self))
        rw [if_neg Bool.false_ne_true, Text.bytes_nil, List.nil_append]
        refine run_accept_other fun b hb heq => ?_
        rw [hcons, digitChars, List.map_cons, bytes_cons hascii.1] at hb
        cases hb
        rw [heq] at hdigit
        exact absurd hdigit (by decide)
  unfold numeral
  rw [run_bind_ok hsign, run_bind_ok hwhole, if_neg hleading]
  exact hfraction

/-- A number is read from all texts of its numeral. -/
theorem run_only_number {cs : List Char} {number : Number} (hcs : n.IsText cs) (h : Ends rest)
    (hn : n.IsWellFormed) (hnumber : n.toNumber = some number) (expected : String) :
    StateT.run (onlyNumber expected) (bytes cs ++ rest) = .ok (number, rest) := by
  obtain ⟨mark, plus, hmark, rfl⟩ := hcs
  have hread :
      StateT.run Reader.number (bytes (n.chars mark plus) ++ rest) = .ok (number, rest) := by
    unfold Reader.number
    rw [run_bind_ok (run_numeral plus hmark h hn), hnumber]
    rfl
  obtain ⟨d, ds, hcons⟩ := List.exists_cons_of_ne_nil hn.whole_ne_nil
  obtain ⟨hascii, hdigit, -⟩ := byte_digit (hn.whole d (hcons ▸ List.mem_cons_self))
  have hfirst : ∃ c cs, n.chars mark plus = c :: cs ∧ IsMark c ∧
      (byte c = byte '-' ∨ isDigit (byte c) = true) := by
    rw [Numeral.chars, withSign, pointed, hcons]
    cases n.negative with
    | true => exact ⟨'-', _, rfl, by decide, .inl rfl⟩
    | false =>
        exact ⟨_, _, rfl, hascii, .inr hdigit⟩
  obtain ⟨c, cs, hchars, hmarkChar, hstart⟩ := hfirst
  rw [hchars] at hread ⊢
  unfold onlyNumber
  rw [run_bind_ok (peek_mark hmarkChar cs rest)]
  dsimp only
  rw [if_pos (by simpa using hstart)]
  exact hread

end Reader

end Rewards.Json
