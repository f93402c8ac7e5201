import Rewards.Crypto.Base64
import Rewards.Crypto.Blowfish
import Rewards.Crypto.Sha256
import Rewards.Text.Natural
import Rewards.Text.Split
import Rewards.Text.Utf8

/-!
# Password hashes

A password is hashed with a salt of sixteen bytes: a cipher is keyed with the password and the salt
in turn, as often as two to the power of the cost, and then ciphers a fixed text. The hash is
written with its version, its cost and its salt, so that a password can be checked against it.
-/

namespace Rewards.Crypto

/-- Why a password cannot be hashed or checked. -/
inductive PasswordHashError where
  | invalidHash (text : String)
  | invalidPrefix (version : String)
  | invalidCost (text : String)
  | costNotAllowed (cost : Nat)
  | badBase64
deriving DecidableEq

/-- The cause of a failure. -/
def PasswordHashError.reason : PasswordHashError → String
  | .invalidHash text => "Invalid hash: " ++ text
  | .invalidPrefix version => "Invalid Prefix: " ++ version
  | .invalidCost text => "Invalid Cost: " ++ text
  | .costNotAllowed cost => s!"Cost needs to be between 4 and 31, got {cost}"
  | .badBase64 => "Base64 error"

/-- The wording of a failure. -/
def PasswordHashError.message (e : PasswordHashError) : String :=
  "password hashing failed: " ++ e.reason

namespace PasswordHash

/-- The length of a key in bytes. -/
def keyLength : Nat := 72

/-- The key of a password: its bytes and a zero byte, repeated and cut to the length of a key. -/
def key (password : String) : List UInt8 :=
  let bytes := Text.utf8 password ++ [0]
  (List.range keyLength).map fun i => bytes.getD (i % bytes.length) 0

/-- The tables of the cipher after `n` turns of the password and the salt. -/
def turns (salt key : Array UInt32) : Nat → Blowfish → Blowfish
  | 0, t => t
  | n + 1, t => turns salt key n ((t.expand #[0, 0, 0, 0] key).expand #[0, 0, 0, 0] salt)

/-- The words that are ciphered. -/
def plainWords : List (UInt32 × UInt32) :=
  [(0x4f727068, 0x65616e42), (0x65686f6c, 0x64657253), (0x63727944, 0x6f756274)]

/-- Cipher a pair again and again. -/
def encryptTimes (t : Blowfish) : Nat → UInt32 × UInt32 → UInt32 × UInt32
  | 0, pair => pair
  | n + 1, pair => encryptTimes t n (t.encrypt pair.1 pair.2)

/-- The length of a digest in bytes. -/
def digestLength : Nat := 23

/-- The digest of a key with a salt at a cost. -/
def digest (cost : Nat) (salt key : List UInt8) : List UInt8 :=
  let salt := (Sha256.words salt).toArray
  let key := (Sha256.words key).toArray
  let t := turns salt key (Nat.pow 2 cost) (Blowfish.initial.expand salt key)
  let pairs := plainWords.map (encryptTimes t 64)
  (pairs.flatMap fun (l, r) => Sha256.wordBytes l ++ Sha256.wordBytes r).take digestLength

/-- The digest of a password, if the cost is allowed. -/
def digestPassword (cost : Nat) (salt : List UInt8) (password : String) :
    Except PasswordHashError (List UInt8) :=
  if cost < 4 ∨ 31 < cost then .error (.costNotAllowed cost)
  else .ok (digest cost salt (key password))

/-- The hash of a password, as text. -/
def hash (cost : Nat) (salt : List UInt8) (password : String) :
    Except PasswordHashError String := do
  let digest ← digestPassword cost salt password
  return "$2b$" ++ (if cost < 10 then "0" else "") ++ toString cost ++ "$" ++
    String.ofList (Base64.encode Base64.hashAlphabet salt) ++
    String.ofList (Base64.encode Base64.hashAlphabet digest)

/-- The parts of the text of a hash. -/
structure Parts where
  cost : Nat
  salt : List Char
  digest : List Char

/-- The versions that are known; they all mean the same. -/
def versions : List (List Char) :=
  ["2y".toList, "2b".toList, "2a".toList, "2x".toList]

/-- The characters of a salt. -/
def saltWidth : Nat := 22

/-- The characters of a salt and a digest. -/
def bodyWidth : Nat := 53

/-- Read the text of a hash. Empty parts do not count. -/
def read (text : String) : Except PasswordHashError Parts :=
  match (Text.split '$' text.toList).filter (!·.isEmpty) with
  | [version, cost, body] =>
      if version ∉ versions then .error (.invalidPrefix (String.ofList version))
      else
        match Text.natural? (1 <<< 32) cost with
        | none => .error (.invalidCost (String.ofList cost))
        | some cost =>
            if (Text.utf8 (String.ofList body)).length = bodyWidth then
              .ok ⟨cost, body.take saltWidth, body.drop saltWidth⟩
            else .error (.invalidHash text)
  | _ => .error (.invalidHash text)

/-- Read characters of the alphabet of hashes. -/
def readBytes (cs : List Char) : Except PasswordHashError (List UInt8) :=
  match Base64.decode Base64.hashAlphabet cs with
  | some bytes => .ok bytes
  | none => .error .badBase64

/-- The password is the one that was hashed. -/
def verify (password hash : String) : Except PasswordHashError Bool := do
  let parts ← read hash
  let salt ← readBytes parts.salt
  let computed ← digestPassword parts.cost salt password
  let expected ← readBytes parts.digest
  return computed == expected

end PasswordHash

end Rewards.Crypto
