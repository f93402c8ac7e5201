import Rewards.Text.Natural
import Rewards.Text.Split
import Rewards.Text.Utf8
import Rewards.Url.Error
import Rewards.Uuid

/-!
# Hosts

A host is a domain, an address of four bytes or an address of eight pieces in brackets. The host of
an address whose scheme is not one of the special ones is taken as it is.
-/

namespace Rewards.Url

/-- A host. -/
inductive Host where
  | domain (name : List Char)
  | ipv4 (address : Nat)
  | ipv6 (pieces : List Nat)
  | verbatim (name : List Char)
deriving DecidableEq

namespace Host

/-! ## Addresses of four bytes -/

/-- The value of digits in a base. -/
def valueIn (base : Nat) (cs : List Char) : Nat :=
  cs.foldl (fun n c => n * base + Uuid.hexValue c) 0

/-- A number in one of the notations that an address may use: hexadecimal after `0x`, octal after
`0`, decimal otherwise. -/
def ipv4Number? : List Char → Option Nat
  | [] => none
  | '0' :: 'x' :: cs => if cs.all Uuid.isHexDigit then some (valueIn 16 cs) else none
  | '0' :: 'X' :: cs => if cs.all Uuid.isHexDigit then some (valueIn 16 cs) else none
  | '0' :: c :: cs =>
      if (c :: cs).all fun d => '0' ≤ d && d ≤ '7' then some (valueIn 8 (c :: cs)) else none
  | cs => if cs.all Char.isDigit then some (valueIn 10 cs) else none

/-- The parts of a domain, without an empty last one. -/
def parts (name : List Char) : List (List Char) :=
  let all := Text.split '.' name
  if all.length > 1 && all.getLast? == some [] then all.dropLast else all

/-- The last part of the domain is a number, so the domain has to be an address. -/
def endsInNumber (name : List Char) : Bool :=
  match (parts name).getLast? with
  | some last => (!last.isEmpty && last.all Char.isDigit) || (ipv4Number? last).isSome
  | none => false

/-- The address with these numbers: all but the last are bytes, and the last fills what is left. -/
def ipv4OfNumbers? (numbers : List Nat) : Option Nat :=
  match numbers.reverse with
  | [] => none
  | last :: before =>
      let bytes := before.reverse
      let room := Nat.pow 256 (4 - bytes.length)
      if bytes.length > 3 ∨ bytes.any (255 < ·) ∨ room ≤ last then none
      else
        some (bytes.zipIdx.foldl (fun sum (byte, i) => sum + byte * Nat.pow 256 (3 - i)) last)

/-- An address of four bytes. -/
def readIpv4 (name : List Char) : Except Error Host :=
  match (parts name).mapM ipv4Number? with
  | none => .error .invalidIpv4
  | some numbers =>
      match ipv4OfNumbers? numbers with
      | some address => .ok (.ipv4 address)
      | none => .error .invalidIpv4

/-! ## Addresses of eight pieces -/

/-- A piece of one to four hexadecimal digits. -/
def piece? (cs : List Char) : Option Nat :=
  if cs.isEmpty || cs.length > 4 || !cs.all Uuid.isHexDigit then none else some (valueIn 16 cs)

/-- A byte in decimal digits without leading zeros. -/
def byte? (cs : List Char) : Option Nat :=
  if cs.length > 1 && cs.head? == some '0' then none
  else if cs.head? == some '+' then none
  else Text.natural? 256 cs

/-- The two pieces that the last part stands for if it is written as four bytes. -/
def bytePieces? (cs : List Char) : Option (List Nat) :=
  match (Text.split '.' cs).mapM byte? with
  | some [a, b, c, d] => some [a * 256 + b, c * 256 + d]
  | _ => none

/-- The pieces of parts, of which the last may be written as four bytes. -/
def pieces? : List (List Char) → Option (List Nat)
  | [] => some []
  | [last] => (piece? last).map (fun p => [p]) <|> bytePieces? last
  | part :: rest => do
      let p ← piece? part
      return p :: (← pieces? rest)

/-- The pieces on one side of the gap. -/
def side? (cs : List Char) : Option (List Nat) :=
  if cs.isEmpty then some [] else pieces? (Text.split ':' cs)

/-- What is before and after the first pair of colons. -/
def splitGap? : List Char → Option (List Char × List Char)
  | ':' :: ':' :: rest => some ([], rest)
  | c :: rest => (splitGap? rest).map fun (before, after) => (c :: before, after)
  | [] => none

/-- An address of eight pieces. One run of zeros may be left out. -/
def ipv6Pieces? (cs : List Char) : Option (List Nat) :=
  match splitGap? cs with
  | none => do
      let pieces ← pieces? (Text.split ':' cs)
      if pieces.length = 8 then some pieces else none
  | some (before, after) => do
      let left ← if before.isEmpty then some [] else (Text.split ':' before).mapM piece?
      let right ← side? after
      if left.length + right.length < 8 then
        some (left ++ List.replicate (8 - left.length - right.length) 0 ++ right)
      else none

/-- An address of eight pieces in brackets. -/
def readIpv6 (cs : List Char) : Except Error Host :=
  if cs.getLast? == some ']' then
    match ipv6Pieces? (cs.drop 1).dropLast with
    | some pieces => .ok (.ipv6 pieces)
    | none => .error .invalidIpv6
  else .error .invalidIpv6

/-! ## Domains -/

/-- Characters that a domain cannot have. -/
def isForbidden (c : Char) : Bool :=
  c.toNat ≤ 32 || c.toNat = 127 || "%#/:<>?@[\\]^|".toList.contains c

/-- Characters that disappear from a domain. -/
def isIgnored (c : Char) : Bool :=
  let n := c.toNat
  n = 0xAD || n = 0x200B || n = 0x2060 || n = 0x2064 || n = 0xFEFF || (0xFE00 ≤ n && n ≤ 0xFE0F)

/-- A character of a domain in its plain form: small, and of the usual width. -/
def plainForm (c : Char) : Char :=
  let n := c.toNat
  if 0xFF01 ≤ n && n ≤ 0xFF5E then (Char.ofNat (n - 0xFEE0)).toLower
  else if n = 0x3002 || n = 0xFF0E || n = 0xFF61 then '.'
  else if n = 0xA0 || n = 0x3000 then ' '
  else c.toLower

/-- Characters that no domain has: controls, private characters and characters that are none. -/
def isDisallowed (c : Char) : Bool :=
  let n := c.toNat
  (0x80 ≤ n && n < 0xA0) || (0xE000 ≤ n && n < 0xF900) || n = 0xFFFD || n % 0x10000 ≥ 0xFFFE ||
    n ≥ 0xE0000

/-- The bytes of a text with its percent escapes decoded. -/
def unescape : List UInt8 → List UInt8
  | 37 :: a :: b :: rest =>
      let x := Char.ofNat a.toNat
      let y := Char.ofNat b.toNat
      if Uuid.isHexDigit x && Uuid.isHexDigit y then
        .ofNat (Uuid.hexValue x * 16 + Uuid.hexValue y) :: unescape rest
      else 37 :: unescape (a :: b :: rest)
  | b :: rest => b :: unescape rest
  | [] => []

/-- A domain or an address of four bytes.

Characters beyond ASCII go through the mapping of internationalized names only in part: some are
ignored, those of full width are read in their plain form, and the others stay as they are. The
whole mapping would also normalise them and write their labels in Punycode. -/
def readDomain (cs : List Char) : Except Error Host :=
  match Text.decodeUtf8 (unescape (Text.utf8 (String.ofList cs))) with
  | .error _ => .error .invalidDomain
  | .ok text =>
      let name := (text.toList.filter (!isIgnored ·)).map plainForm
      if name.any fun c => isForbidden c || isDisallowed c then .error .invalidDomain
      else if name.isEmpty then .error .emptyHost
      else if endsInNumber name then readIpv4 name
      else .ok (.domain name)

/-- The host of an address with a special scheme. -/
def read (cs : List Char) : Except Error Host :=
  if cs.isEmpty then .error .emptyHost
  else if cs.head? == some '[' then readIpv6 cs
  else readDomain cs

/-- Characters that no host can have. -/
def isForbiddenAnywhere (c : Char) : Bool :=
  c.toNat = 0 || c = '\t' || c = '\n' || c = '\r' || " #/:<>?@[\\]^|".toList.contains c

/-- The host of an address with another scheme. -/
def readVerbatim (cs : List Char) : Except Error Host :=
  if cs.head? == some '[' then readIpv6 cs
  else if cs.any isForbiddenAnywhere then .error .invalidDomainCharacter
  else .ok (.verbatim cs)

end Host

end Rewards.Url
