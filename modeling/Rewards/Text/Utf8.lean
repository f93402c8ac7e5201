/-!
# UTF-8

Reading and writing the bytes of a text. Reading stops at the first ill-formed sequence and says
where it starts and whether it is wrong or only cut off.
-/

namespace Rewards.Text

/-- Why bytes are not UTF-8. The offset is that of the first byte of the sequence at fault. -/
inductive Utf8Error where
  | invalid (length offset : Nat)
  | incomplete (offset : Nat)
deriving DecidableEq

/-- The wording of a decoding failure. -/
def Utf8Error.message : Utf8Error → String
  | .invalid length offset => s!"invalid utf-8 sequence of {length} bytes from index {offset}"
  | .incomplete offset => s!"incomplete utf-8 byte sequence from index {offset}"

/-- A byte that continues a sequence. -/
def isContinuation (b : UInt8) : Bool := 0x80 ≤ b && b ≤ 0xBF

/-- The second byte of a sequence of three that the first byte allows: no overlong form, no
surrogate. -/
def allowsSecondOfThree (a b : UInt8) : Bool :=
  if a = 0xE0 then 0xA0 ≤ b && b ≤ 0xBF
  else if a = 0xED then 0x80 ≤ b && b ≤ 0x9F
  else isContinuation b

/-- The second byte of a sequence of four that the first byte allows: no overlong form, nothing
beyond the last code point. -/
def allowsSecondOfFour (a b : UInt8) : Bool :=
  if a = 0xF0 then 0x90 ≤ b && b ≤ 0xBF
  else if a = 0xF4 then 0x80 ≤ b && b ≤ 0x8F
  else isContinuation b

/-- The payload of a continuation byte. -/
def payload (b : UInt8) : Nat := b.toNat % 64

/-- What stands at the front of bytes: a character with the number of bytes after its first one, a
wrong sequence with its length, or a sequence that is cut off. -/
inductive Utf8Step where
  | char (c : Char) (continued : Nat)
  | wrong (length : Nat)
  | cut

/-- The sequence of two bytes that starts with `a`. -/
def pairStep (a : UInt8) : List UInt8 → Utf8Step
  | [] => .cut
  | b :: _ =>
      if isContinuation b then .char (Char.ofNat ((a.toNat % 32) * 64 + payload b)) 1
      else .wrong 1

/-- The sequence of three bytes that starts with `a`. -/
def tripleStep (a : UInt8) : List UInt8 → Utf8Step
  | [] => .cut
  | b :: tail =>
      if allowsSecondOfThree a b then
        match tail with
        | [] => .cut
        | c :: _ =>
            if isContinuation c then
              .char (Char.ofNat ((a.toNat % 16) * 4096 + payload b * 64 + payload c)) 2
            else .wrong 2
      else .wrong 1

/-- The sequence of four bytes that starts with `a`. -/
def quadrupleStep (a : UInt8) : List UInt8 → Utf8Step
  | [] => .cut
  | b :: tail =>
      if allowsSecondOfFour a b then
        match tail with
        | [] => .cut
        | c :: tail =>
            if isContinuation c then
              match tail with
              | [] => .cut
              | d :: _ =>
                  if isContinuation d then
                    .char (Char.ofNat ((a.toNat % 8) * 262144 + payload b * 4096 +
                      payload c * 64 + payload d)) 3
                  else .wrong 3
            else .wrong 2
      else .wrong 1

/-- The sequence that starts with `a`. -/
def utf8Step (a : UInt8) (rest : List UInt8) : Utf8Step :=
  if a < 0x80 then .char (Char.ofNat a.toNat) 0
  else if 0xC2 ≤ a && a ≤ 0xDF then pairStep a rest
  else if 0xE0 ≤ a && a ≤ 0xEF then tripleStep a rest
  else if 0xF0 ≤ a && a ≤ 0xF4 then quadrupleStep a rest
  else .wrong 1

/-- Decode bytes that start at the given offset, after the characters of `done` in reverse. -/
def decodeUtf8From (offset : Nat) (done : List Char) :
    List UInt8 → Except Utf8Error (List Char)
  | [] => .ok done.reverse
  | a :: rest =>
      match utf8Step a rest with
      | .char c continued =>
          decodeUtf8From (offset + continued + 1) (c :: done) (rest.drop continued)
      | .wrong length => .error (.invalid length offset)
      | .cut => .error (.incomplete offset)
termination_by bytes => bytes.length
decreasing_by
  rw [List.length_drop, List.length_cons]
  omega

/-- The text of UTF-8 bytes. -/
def decodeUtf8 (bytes : List UInt8) : Except Utf8Error String := do
  return String.ofList (← decodeUtf8From 0 [] bytes)

/-- The UTF-8 bytes of characters, one after the other. -/
def bytes (cs : List Char) : List UInt8 := cs.flatMap String.utf8EncodeChar

/-- The UTF-8 bytes of a text. -/
def utf8 (s : String) : List UInt8 :=
  s.toUTF8.toList

end Rewards.Text
