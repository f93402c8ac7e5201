import Rewards.Json.Error
import Rewards.Text.Utf8

/-!
# Reading JSON

A reader takes a value off the front of the bytes of a document. Readers go from left to right and
stop at the first fault, so a value of the wrong kind is reported even if the rest of the document
is not JSON. `Reader.run` reads a whole document.
-/

namespace Rewards.Json

/-- A reader of a value from the front of bytes. -/
abbrev Reader := StateT (List UInt8) (Except Error)

/-- White space of JSON. -/
def isSpace (b : UInt8) : Bool := b = 32 || b = 10 || b = 9 || b = 13

/-- A decimal digit. -/
def isDigit (b : UInt8) : Bool := 48 ≤ b && b ≤ 57

/-- The byte of an ASCII character. -/
def byte (c : Char) : UInt8 := c.toNat.toUInt8

namespace Reader

/-- The next byte after white space, which stays unread. -/
def peek : Reader (Option UInt8) := fun bytes =>
  let rest := bytes.dropWhile isSpace
  .ok (rest.head?, rest)

/-- Skip a byte. -/
def skip : Reader Unit := fun bytes => .ok ((), bytes.drop 1)

/-- The text is not JSON. -/
def malformed {α : Type} : Reader α := fun _ => .error .malformed

/-- Read a character after white space. -/
def mark (c : Char) : Reader Unit := do
  if (← peek) == some (byte c) then skip else malformed

/-- Read exactly these characters. -/
def literal : List Char → Reader Unit
  | [] => pure ()
  | c :: cs => do
      match ← get with
      | b :: rest => if b = byte c then do set rest; literal cs else malformed
      | [] => malformed

/-- Read the digits that come next, by value. -/
def digits : Reader (List Nat) := fun bytes =>
  let taken := bytes.takeWhile isDigit
  .ok (taken.map fun b => b.toNat - 48, bytes.dropWhile isDigit)

/-- Read at least one digit. -/
def someDigits : Reader (List Nat) := do
  match ← digits with
  | [] => malformed
  | ds => pure ds

/-- The next byte is this character, and it is read. -/
def accept (c : Char) : Reader Bool := fun bytes =>
  match bytes with
  | b :: rest => .ok (if b = byte c then (true, rest) else (false, bytes))
  | [] => .ok (false, [])

/-- The mark of an exponent comes next, and it is read. -/
def acceptMark : Reader Bool := do
  if ← accept 'e' then pure true else accept 'E'

/-- Read a numeral. A leading zero stands alone. -/
def numeral : Reader Numeral := do
  let negative ← accept '-'
  let whole ← someDigits
  if whole.length > 1 && whole.head? == some 0 then malformed
  else
    let fraction ← if ← accept '.' then someDigits else pure []
    if ← acceptMark then
      let down ← accept '-'
      let _ ← if down then pure false else accept '+'
      let power ← someDigits
      return ⟨negative, whole, fraction, some (down, power)⟩
    else return ⟨negative, whole, fraction, none⟩

/-- Read a number. -/
def number : Reader Number := do
  match (← numeral).toNumber with
  | some n => pure n
  | none => malformed

/-- The value of a hexadecimal digit. -/
def hexValue (b : UInt8) : Option Nat :=
  if isDigit b then some (b.toNat - 48)
  else if 97 ≤ b && b ≤ 102 then some (b.toNat - 87)
  else if 65 ≤ b && b ≤ 70 then some (b.toNat - 55)
  else none

/-- Four hexadecimal digits at the front of bytes, and the rest. -/
def fourHex : List UInt8 → Option (Nat × List UInt8)
  | a :: b :: c :: d :: rest => do
      let a ← hexValue a
      let b ← hexValue b
      let c ← hexValue c
      let d ← hexValue d
      return (((a * 16 + b) * 16 + c) * 16 + d, rest)
  | _ => none

/-- The code point of an escape after its letter `u`: surrogates come in pairs. -/
def unicodeEscape (bytes : List UInt8) : Option (Nat × List UInt8) := do
  let (high, rest) ← fourHex bytes
  if high < 0xD800 || 0xDFFF < high then some (high, rest)
  else if 0xDBFF < high then none
  else
    match rest with
    | 92 :: 117 :: rest => do
        let (low, rest) ← fourHex rest
        if 0xDC00 ≤ low && low ≤ 0xDFFF then
          some (0x10000 + (high - 0xD800) * 0x400 + (low - 0xDC00), rest)
        else none
    | _ => none

/-- The byte that a one-letter escape stands for. -/
def shortEscape (b : UInt8) : Option UInt8 :=
  if b = byte '"' || b = byte '\\' || b = byte '/' then some b
  else if b = byte 'b' then some 8
  else if b = byte 'f' then some 12
  else if b = byte 'n' then some 10
  else if b = byte 'r' then some 13
  else if b = byte 't' then some 9
  else none

/-- The bytes of a string up to its closing quote, after those of `done` in reverse. There is one
unit of fuel for each byte. -/
def stringBytes : Nat → List UInt8 → List UInt8 → Option (List UInt8 × List UInt8)
  | 0, _, _ => none
  | _ + 1, _, [] => none
  | fuel + 1, done, b :: rest =>
      if b = byte '"' then some (done.reverse, rest)
      else if b < 32 then none
      else if b ≠ byte '\\' then stringBytes fuel (b :: done) rest
      else
        match rest with
        | [] => none
        | e :: rest =>
            if e = byte 'u' then
              match unicodeEscape rest with
              | some (n, rest) =>
                  stringBytes fuel
                    ((Text.utf8 (String.singleton (Char.ofNat n))).reverse ++ done) rest
              | none => none
            else
              match shortEscape e with
              | some c => stringBytes fuel (c :: done) rest
              | none => none

/-- Read a string after its opening quote. -/
def stringTail : Reader String := fun bytes =>
  match stringBytes (bytes.length + 1) [] bytes with
  | none => .error .malformed
  | some (content, rest) =>
      match Text.decodeUtf8 content with
      | .ok s => .ok (s, rest)
      | .error _ => .error .malformed

/-- Report the value that comes next as one of the wrong kind. A scalar is read first and has to be
well formed. -/
def unexpected {α : Type} (expected : String) : Reader α := do
  let found ← (do
    match ← peek with
    | none => malformed
    | some b =>
        if b = byte 'n' then do literal "null".toList; pure Found.null
        else if b = byte 't' then do literal "true".toList; pure (Found.boolean true)
        else if b = byte 'f' then do literal "false".toList; pure (Found.boolean false)
        else if b = byte '-' || isDigit b then do return Found.number (← number)
        else if b = byte '"' then do skip; return Found.text (← stringTail)
        else if b = byte '[' then pure Found.sequence
        else if b = byte '\x7b' then pure Found.map
        else malformed)
  throw (.invalidType found expected)

/-- Read a string. -/
def string (expected : String) : Reader String := do
  if (← peek) == some (byte '"') then do skip; stringTail
  else unexpected expected

/-- Read a number and nothing else. -/
def onlyNumber (expected : String) : Reader Number := do
  match ← peek with
  | some b => if b = byte '-' || isDigit b then number else unexpected expected
  | none => malformed

/-- Read null and nothing else. -/
def null (expected : String) : Reader Unit := do
  if (← peek) == some (byte 'n') then literal "null".toList else unexpected expected

/-- Read null or a value. -/
def optional {α : Type} (reader : Reader α) : Reader (Option α) := do
  if (← peek) == some (byte 'n') then do literal "null".toList; pure none
  else some <$> reader

/-- Read the items of an array after its opening bracket. -/
def itemsUpTo {α : Type} (item : Reader α) : Nat → Bool → Reader (List α)
  | 0, _ => malformed
  | fuel + 1, isFirst => do
      let next ← peek
      if next == some (byte ']') then do skip; return []
      if !isFirst then
        if next == some (byte ',') then skip else malformed
      let first ← item
      return first :: (← itemsUpTo item fuel false)

/-- Read an array whose items are all read in the same way. -/
def list {α : Type} (item : Reader α) : Reader (List α) := do
  if (← peek) == some (byte '[') then do
    skip
    itemsUpTo item ((← get).length + 1) true
  else unexpected "a sequence"

/-- The choice with a name. -/
def named {α : Type} (ofName : String → Option α) (name : String) : Reader α :=
  match ofName name with
  | some choice => pure choice
  | none => malformed

/-- Read one of several named choices: a string, or a map from the name to null. -/
def choice {α : Type} (ofName : String → Option α) : Reader α := do
  match ← peek with
  | some b =>
      if b = byte '"' then do
        skip
        named ofName (← stringTail)
      else if b = byte '\x7b' then do
        skip
        let result ← named ofName (← string "variant identifier")
        mark ':'
        null "unit"
        mark '\x7d'
        return result
      else malformed
  | none => malformed

/-- The bytes of a skipped string up to its closing quote. Escapes are checked for their form only
and the bytes are not decoded. -/
def skipString : Nat → List UInt8 → Option (List UInt8)
  | 0, _ => none
  | _ + 1, [] => none
  | fuel + 1, b :: rest =>
      if b = byte '"' then some rest
      else if b < 32 then none
      else if b ≠ byte '\\' then skipString fuel rest
      else
        match rest with
        | [] => none
        | e :: rest =>
            if e = byte 'u' then
              match fourHex rest with
              | some (_, rest) => skipString fuel rest
              | none => none
            else if (shortEscape e).isSome then skipString fuel rest
            else none

/-- Skip a string after its opening quote. -/
def ignoredString : Reader Unit := fun bytes =>
  match skipString (bytes.length + 1) bytes with
  | some rest => .ok ((), rest)
  | none => .error .malformed

/-- What a skipped value is inside of. -/
inductive Enclosure where
  | sequence
  | map
deriving DecidableEq

/-- The character that ends an enclosure. -/
def Enclosure.closing : Enclosure → Char
  | .sequence => ']'
  | .map => '\x7d'

/-- Skip a key and its colon. -/
def ignoredKey : Reader Unit := do
  if (← peek) == some (byte '"') then do
    skip
    ignoredString
    mark ':'
  else malformed

/-- Where skipping stands: before a value, before the first member of the innermost enclosure or
its end, or after a value. -/
inductive SkipState where
  | value
  | first
  | after

/-- Skip a value, of any depth, inside the given enclosures from the innermost out. Every step but
the last reads a byte, so the length of the document is fuel enough. -/
def ignoredFrom : Nat → SkipState → List Enclosure → Reader Unit
  | 0, _, _ => malformed
  | _ + 1, .after, [] => pure ()
  | fuel + 1, .after, e :: outer => do
      match ← peek with
      | some b =>
          if b = byte ',' then do
            skip
            if e = .map then ignoredKey
            ignoredFrom fuel .value (e :: outer)
          else if b = byte e.closing then do skip; ignoredFrom fuel .after outer
          else malformed
      | none => malformed
  | _ + 1, .first, [] => malformed
  | fuel + 1, .first, e :: outer => do
      if (← peek) == some (byte e.closing) then do skip; ignoredFrom fuel .after outer
      else do
        if e = .map then ignoredKey
        ignoredFrom fuel .value (e :: outer)
  | fuel + 1, .value, enclosures => do
      match ← peek with
      | none => malformed
      | some b =>
          if b = byte '[' then do skip; ignoredFrom fuel .first (.sequence :: enclosures)
          else if b = byte '\x7b' then do skip; ignoredFrom fuel .first (.map :: enclosures)
          else do
            if b = byte 'n' then literal "null".toList
            else if b = byte 't' then literal "true".toList
            else if b = byte 'f' then literal "false".toList
            else if b = byte '"' then do skip; ignoredString
            else do let _ ← numeral
            ignoredFrom fuel .after enclosures

/-- Skip a value. -/
def ignored : Reader Unit := do
  ignoredFrom (2 * (← get).length + 2) .value []

/-- Read a whole document: white space may follow the value, nothing else. -/
def run {α : Type} (reader : Reader α) (bytes : List UInt8) : Except Error α := do
  let (value, rest) ← StateT.run reader bytes
  if (rest.dropWhile isSpace).isEmpty then pure value else .error .malformed

end Reader

end Rewards.Json
