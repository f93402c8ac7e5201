import Rewards.Url.Host

/-!
# Addresses

An address is a scheme and what the scheme names: for the special schemes of the web an authority,
a path, a query and a fragment. Blanks around an address and line breaks inside it do not count.
-/

namespace Rewards

/-- An address. The path is as written for schemes that are not special. -/
structure Url where
  scheme : String
  userInfo : Option (List Char)
  host : Option Url.Host
  port : Option Nat
  path : List Char
  query : Option (List Char)
  fragment : Option (List Char)
deriving DecidableEq

namespace Url

/-- The default ports of the special schemes. -/
def defaultPorts : List (String × Nat) :=
  [("http", 80), ("https", 443), ("ws", 80), ("wss", 443), ("ftp", 21)]

/-- The scheme is special: its addresses have a host. -/
def isSpecial (scheme : String) : Bool := (defaultPorts.lookup scheme).isSome

/-- A character that does not count at the ends of an address. -/
def isOuterBlank (c : Char) : Bool := c.toNat ≤ 32

/-- A character that does not count inside an address. -/
def isBreak (c : Char) : Bool := c = '\t' || c = '\n' || c = '\r'

/-- An address without the characters that do not count. -/
def clean (cs : List Char) : List Char :=
  let inner := ((cs.dropWhile isOuterBlank).reverse.dropWhile isOuterBlank).reverse
  inner.filter (!isBreak ·)

/-- A character of a scheme after the first one. -/
def isSchemeChar (c : Char) : Bool := c.isAlphanum || c = '+' || c = '-' || c = '.'

/-- The scheme in small letters, and what follows its colon. -/
def splitScheme? (cs : List Char) : Option (String × List Char) :=
  match cs, cs.dropWhile isSchemeChar with
  | first :: _, ':' :: rest =>
      if first.isAlpha then
        some (String.ofList ((cs.takeWhile isSchemeChar).map Char.toLower), rest)
      else none
  | _, _ => none

/-- The character ends an authority. -/
def endsAuthority (special : Bool) (c : Char) : Bool :=
  c = '/' || c = '?' || c = '#' || (special && c = '\\')

/-- A port after its colon. There is none if it has no digits or is the default. -/
def readPort (cs : List Char) (default : Option Nat) : Except Error (Option Nat) :=
  if cs.isEmpty then .ok none
  else if !cs.all Char.isDigit then .error .invalidPort
  else
    let port := Text.digitsValue cs
    if 65535 < port then .error .invalidPort
    else .ok (if some port = default then none else some port)

/-- The end of a host: the first colon outside brackets. -/
def splitHost (inBrackets : Bool) : List Char → List Char × List Char
  | [] => ([], [])
  | c :: rest =>
      if c = ':' && !inBrackets then ([], c :: rest)
      else
        let (host, port) := splitHost (c = '[' || (inBrackets && c ≠ ']')) rest
        (c :: host, port)

/-- The user info, the host and the port of an authority. -/
def readAuthority (scheme : String) (cs : List Char) :
    Except Error (Option (List Char) × Host × Option Nat) := do
  let (userInfo, location) := match Text.splitLast? '@' cs with
    | some (before, after) => (some before, after)
    | none => (none, cs)
  let (name, tail) := splitHost false location
  let host ← if isSpecial scheme then Host.read name else Host.readVerbatim name
  let port ← readPort (tail.drop 1) (defaultPorts.lookup scheme)
  return (userInfo, host, port)

/-! ## Paths -/

/-- A byte as a percent escape. -/
def escapeByte (b : UInt8) : List Char :=
  let digits := (Nat.toDigits 16 b.toNat).map Char.toUpper
  '%' :: List.replicate (2 - digits.length) '0' ++ digits

/-- Escape the characters that do not show and those of a set. -/
def escape (set : List Char) (cs : List Char) : List Char :=
  cs.flatMap fun c =>
    if c.toNat < 32 || 126 < c.toNat || set.contains c then
      (Text.utf8 (String.singleton c)).flatMap escapeByte
    else [c]

/-- The characters that are escaped in paths. -/
def pathSet : List Char := " \"<>`#?\x7b\x7d".toList

/-- The characters that are escaped in queries. -/
def querySet : List Char := " \"#<>'".toList

/-- The characters that are escaped in fragments. -/
def fragmentSet : List Char := " \"<>`".toList

/-- A segment with the escapes of points decoded. -/
def plainPoints : List Char → List Char
  | '%' :: '2' :: 'e' :: rest => '.' :: plainPoints rest
  | '%' :: '2' :: 'E' :: rest => '.' :: plainPoints rest
  | c :: rest => c :: plainPoints rest
  | [] => []

/-- Resolve the segments `.` and `..` of a path; `done` are the segments so far in reverse. -/
def resolve (done : List (List Char)) : List (List Char) → List (List Char)
  | [] => done.reverse
  | segment :: rest =>
      if plainPoints segment = ['.', '.'] then
        if rest.isEmpty then ([] :: done.drop 1).reverse else resolve (done.drop 1) rest
      else if plainPoints segment = ['.'] then
        if rest.isEmpty then ([] :: done).reverse else resolve done rest
      else resolve (escape pathSet segment :: done) rest

/-- The path of an address with a special scheme: both slashes divide segments. -/
def readPath (cs : List Char) : List Char :=
  let slashed := cs.map fun c => if c = '\\' then '/' else c
  let segments := match slashed with
    | '/' :: rest => Text.split '/' rest
    | rest => Text.split '/' rest
  (resolve [] segments).flatMap fun segment => '/' :: segment

/-- The address after its authority. -/
def readTail (base : Url) (cs : List Char) : Url :=
  let isPath (c : Char) : Bool := c ≠ '?' && c ≠ '#'
  let path := cs.takeWhile isPath
  let (query, fragment) := match cs.dropWhile isPath with
    | '?' :: rest =>
        (some (rest.takeWhile (· ≠ '#')),
          match rest.dropWhile (· ≠ '#') with
          | _ :: fragment => some fragment
          | [] => none)
    | '#' :: rest => (none, some rest)
    | _ => (none, none)
  { base with
    path := if isSpecial base.scheme then readPath path else path
    query := query.map (escape querySet)
    fragment := fragment.map (escape fragmentSet) }

/-- The address with a scheme after the slashes before its authority. -/
def readHierarchical (scheme : String) (cs : List Char) : Except Error Url := do
  let ends := endsAuthority (isSpecial scheme)
  let (userInfo, host, port) ← readAuthority scheme (cs.takeWhile (!ends ·))
  return readTail ⟨scheme, userInfo, some host, port, [], none, none⟩ (cs.dropWhile (!ends ·))

/-- Read an address. -/
def read (text : String) : Except Error Url :=
  match splitScheme? (clean text.toList) with
  | none => .error .relative
  | some (scheme, rest) =>
      if isSpecial scheme then
        readHierarchical scheme (rest.dropWhile fun c => c = '/' || c = '\\')
      else
        match rest with
        | '/' :: '/' :: rest =>
            if scheme = "file" then
              .ok (readTail ⟨scheme, none, none, none, [], none, none⟩ rest)
            else readHierarchical scheme rest
        | rest => .ok (readTail ⟨scheme, none, none, none, [], none, none⟩ rest)

end Url

end Rewards
