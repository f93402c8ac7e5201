/-!
# Base 64

Bytes as characters that carry six bits each, without padding. An alphabet is given by its 64
characters. Decoding is strict: the bits that the last character has to spare are zero, so a byte
string has one text only.
-/

namespace Rewards.Crypto.Base64

/-- The alphabet that is safe in addresses and tokens. -/
def urlAlphabet : List Char :=
  "ABCDEFGHIJKLMNOPQRSTUVWXYZabcdefghijklmnopqrstuvwxyz0123456789-_".toList

/-- The alphabet of password hashes. -/
def hashAlphabet : List Char :=
  "./ABCDEFGHIJKLMNOPQRSTUVWXYZabcdefghijklmnopqrstuvwxyz0123456789".toList

/-- The digits of bytes, from 0 to 63. -/
def digits : List UInt8 → List Nat
  | [] => []
  | [a] => [a.toNat / 4, a.toNat % 4 * 16]
  | [a, b] => [a.toNat / 4, a.toNat % 4 * 16 + b.toNat / 16, b.toNat % 16 * 4]
  | a :: b :: c :: rest =>
      a.toNat / 4 :: (a.toNat % 4 * 16 + b.toNat / 16) :: (b.toNat % 16 * 4 + c.toNat / 64) ::
        c.toNat % 64 :: digits rest

/-- The bytes with these digits, if there are any. -/
def bytes? : List Nat → Option (List UInt8)
  | [] => some []
  | [_] => none
  | [a, b] => if b % 16 = 0 then some [.ofNat (a * 4 + b / 16)] else none
  | [a, b, c] =>
      if c % 4 = 0 then some [.ofNat (a * 4 + b / 16), .ofNat (b % 16 * 16 + c / 4)] else none
  | a :: b :: c :: d :: rest =>
      (bytes? rest).map fun tail =>
        .ofNat (a * 4 + b / 16) :: .ofNat (b % 16 * 16 + c / 4) :: .ofNat (c % 4 * 64 + d) :: tail

/-- The characters of bytes. -/
def encode (alphabet : List Char) (bytes : List UInt8) : List Char :=
  (digits bytes).map fun d => alphabet.getD d 'A'

/-- The bytes that characters stand for, if they are the text of any. -/
def decode (alphabet : List Char) (cs : List Char) : Option (List UInt8) := do
  bytes? (← cs.mapM fun c => alphabet.idxOf? c)

end Rewards.Crypto.Base64
