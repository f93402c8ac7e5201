/-!
# Universally unique identifiers

Identifiers of 128 bits. They are written as 32 hexadecimal digits in five groups and are also read
without hyphens, in braces and as a URN.
-/

namespace Rewards

/-- A universally unique identifier. -/
structure Uuid where
  value : Nat
  value_lt : value < 1 <<< 128
deriving DecidableEq

namespace Uuid

/-- The identifier with the low 128 bits of a number. -/
def ofNat (n : Nat) : Uuid := ⟨n % (1 <<< 128), Nat.mod_lt _ (by decide)⟩

instance : Inhabited Uuid := ⟨ofNat 0⟩

/-- The 32 hexadecimal digits of an identifier. -/
def digits (u : Uuid) : List Char :=
  let digits := Nat.toDigits 16 u.value
  List.replicate (32 - digits.length) '0' ++ digits

/-- The lengths of the groups. -/
def groupLengths : List Nat := [8, 4, 4, 4, 12]

/-- Cut digits into groups with hyphens between them. -/
def hyphenated : List Nat → List Char → List Char
  | [], _ => []
  | [_], cs => cs
  | n :: ns, cs => cs.take n ++ '-' :: hyphenated ns (cs.drop n)

/-- The characters of an identifier. -/
def chars (u : Uuid) : List Char :=
  hyphenated groupLengths u.digits

/-- The text of an identifier: lower-case digits in groups of 8, 4, 4, 4 and 12. -/
def toText (u : Uuid) : String :=
  String.ofList u.chars

/-- Why a text is not an identifier. -/
inductive ReadError where
  | length (found : Nat)
  | character (found : Char) (index : Nat)
  | groupCount (found : Nat)
  | groupLength (group expected found : Nat)
deriving DecidableEq

/-- The wording of a reading failure. -/
def ReadError.message : ReadError → String
  | .length found => s!"invalid length: found {found}"
  | .character found index =>
      "invalid character: found `" ++ String.singleton found ++ s!"` at {index}"
  | .groupCount found => s!"invalid group count: expected 5, found {found}"
  | .groupLength group expected found =>
      s!"invalid group length in group {group}: expected {expected}, found {found}"

/-- A hexadecimal digit of either case. -/
def isHexDigit (c : Char) : Bool :=
  c.isDigit || ('a' ≤ c && c ≤ 'f') || ('A' ≤ c && c ≤ 'F')

/-- The value of a hexadecimal digit. -/
def hexValue (c : Char) : Nat :=
  if c.isDigit then c.toNat - '0'.toNat
  else if 'a' ≤ c then c.toNat - 'a'.toNat + 10
  else c.toNat - 'A'.toNat + 10

/-- The identifier of hexadecimal digits. -/
def ofDigits (cs : List Char) : Uuid :=
  ofNat (cs.foldl (fun n c => n * 16 + hexValue c) 0)

/-- Five hyphenated groups of the right lengths, and the digits in them. -/
def hyphenatedDigits? : List Nat → List Char → Option (List Char)
  | [], _ => none
  | [n], cs => if cs.length = n ∧ cs.all isHexDigit then some cs else none
  | n :: ns, cs =>
      let group := cs.take n
      if group.length = n ∧ group.all isHexDigit then
        match cs.drop n with
        | '-' :: rest => (hyphenatedDigits? ns rest).map (group ++ ·)
        | _ => none
      else none

/-- The mark of a URN. -/
def urnMark : List Char := "urn:uuid:".toList

/-- What stands behind the mark of a URN, in any case. -/
def dropUrn? (cs : List Char) : Option (List Char) :=
  if (cs.take urnMark.length).map Char.toLower = urnMark then some (cs.drop urnMark.length)
  else none

/-- What stands between braces. -/
def dropBraces? : List Char → Option (List Char)
  | '\x7b' :: rest => if rest.getLast? = some '\x7d' then some rest.dropLast else none
  | _ => none

/-- The number of bytes of characters. -/
def byteLength (cs : List Char) : Nat :=
  cs.foldl (fun n c => n + c.utf8Size) 0

/-- The first character that belongs to no identifier, and the index of its first byte. -/
def badCharacter? : Nat → List Char → Option (Char × Nat)
  | _, [] => none
  | index, c :: cs =>
      if c = '-' || isHexDigit c then badCharacter? (index + c.utf8Size) cs else some (c, index)

/-- The groups between hyphens. -/
def groups (cs : List Char) : List (List Char) :=
  cs.splitOn '-'

/-- The first group with a length of its own. The last group counts to the end of the whole
text, whose length is `total` bytes. -/
def badGroup (total : Nat) : Nat → List Nat → List (List Char) → ReadError
  | index, [n], _ => .groupLength index n (total - 24)
  | index, n :: ns, g :: gs =>
      if g.length = n then badGroup total (index + 1) ns gs else .groupLength index n g.length
  | index, _, _ => .groupCount index

/-- What is wrong with a text that is not an identifier. -/
def diagnose (cs : List Char) : ReadError :=
  let (body, offset, isPlain) :=
    match dropBraces? cs with
    | some inner => (inner, 1, false)
    | none =>
        match dropUrn? cs with
        | some inner => (inner, urnMark.length, false)
        | none => (cs, 0, true)
  match badCharacter? offset body with
  | some (c, index) => .character c index
  | none =>
      let groups := groups body
      if groups.length = 1 && isPlain then .length (byteLength cs)
      else if groups.length ≠ 5 then .groupCount groups.length
      else badGroup (byteLength cs) 0 groupLengths groups

/-- Read hyphenated groups, which are all that is left of the text. -/
def readHyphenated (cs : List Char) : Except ReadError Uuid :=
  match hyphenatedDigits? groupLengths cs with
  | some digits => .ok (ofDigits digits)
  | none => .error (diagnose cs)

/-- The length of the longest form, a URN. -/
def maxLength : Nat := 45

/-- Read the characters of an identifier. The form is told by the length. -/
def readChars (cs : List Char) : Except ReadError Uuid :=
  let length := byteLength cs
  if maxLength < length then .error (.length length)
  else if length = 32 then
    if cs.all isHexDigit then .ok (ofDigits cs) else .error (diagnose cs)
  else if length = 36 then readHyphenated cs
  else
    match dropBraces? cs, dropUrn? cs with
    | some inner, _ => if length = 38 then readHyphenated inner else .error (diagnose cs)
    | none, some inner => if length = 45 then readHyphenated inner else .error (diagnose cs)
    | none, none => .error (diagnose cs)

/-- Read the text of an identifier. -/
def read (s : String) : Except ReadError Uuid :=
  readChars s.toList

end Uuid

end Rewards
