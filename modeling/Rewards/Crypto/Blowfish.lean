import Rewards.Crypto.Circle

/-!
# Blowfish

A block cipher on pairs of words. Its tables, eighteen round keys and four substitution boxes of
256 words, depend on a key and, for the hashing of passwords, on a salt: the key is mixed into the
round keys, and then all tables are replaced, pair by pair, by the cipher of the pair before with
the salt mixed in.
-/

namespace Rewards.Crypto

/-- The tables of the cipher. The four boxes stand one after another. -/
structure Blowfish where
  keys : Array UInt32
  boxes : Array UInt32

namespace Blowfish

/-- The number of round keys. -/
def keyCount : Nat := 18

/-- The number of words in all boxes. -/
def boxSize : Nat := 1024

/-- The words of the tables before any key. -/
def initialWords : List UInt32 := Circle.words (keyCount + boxSize)

/-- The tables before any key. -/
def initial : Blowfish where
  keys := (initialWords.take keyCount).toArray
  boxes := (initialWords.drop keyCount).toArray

/-- The mixing of a word by the boxes, one byte in each. -/
def mix (t : Blowfish) (x : UInt32) : UInt32 :=
  let a := t.boxes.getD (x >>> 24).toNat 0
  let b := t.boxes.getD (256 + ((x >>> 16) &&& 255).toNat) 0
  let c := t.boxes.getD (512 + ((x >>> 8) &&& 255).toNat) 0
  let d := t.boxes.getD (768 + (x &&& 255).toNat) 0
  ((a + b) ^^^ c) + d

/-- Pairs of rounds from the round key `i` on. -/
def rounds (t : Blowfish) : Nat → Nat → UInt32 → UInt32 → UInt32 × UInt32
  | 0, i, l, r => (r ^^^ t.keys.getD (i + 1) 0, l ^^^ t.keys.getD i 0)
  | n + 1, i, l, r =>
      let l := l ^^^ t.keys.getD i 0
      let r := r ^^^ t.mix l ^^^ t.keys.getD (i + 1) 0
      rounds t n (i + 2) (l ^^^ t.mix r) r

/-- The cipher of a pair of words. -/
def encrypt (t : Blowfish) (l r : UInt32) : UInt32 × UInt32 :=
  t.rounds 8 0 l r

/-- Mix the words of a key into the round keys; a short key starts over. -/
def mixKey (t : Blowfish) (key : Array UInt32) : Blowfish :=
  { t with keys := t.keys.mapIdx fun i k => k ^^^ key.getD (i % key.size) 0 }

/-- Replace pairs of round keys from index `i` on. -/
def refillKeys (salt : Array UInt32) : Nat → Nat → UInt32 → UInt32 → Blowfish →
    Blowfish × UInt32 × UInt32
  | 0, _, l, r, t => (t, l, r)
  | n + 1, i, l, r, t =>
      let (l, r) := t.encrypt (l ^^^ salt.getD (i % salt.size) 0)
        (r ^^^ salt.getD ((i + 1) % salt.size) 0)
      let keys := (t.keys.setIfInBounds i l).setIfInBounds (i + 1) r
      refillKeys salt n (i + 2) l r { t with keys := keys }

/-- Replace pairs of words of the boxes from index `i` on. The salt goes on where the round keys
left it. -/
def refillBoxes (salt : Array UInt32) : Nat → Nat → UInt32 → UInt32 → Blowfish → Blowfish
  | 0, _, _, _, t => t
  | n + 1, i, l, r, t =>
      let (l, r) := t.encrypt (l ^^^ salt.getD ((keyCount + i) % salt.size) 0)
        (r ^^^ salt.getD ((keyCount + i + 1) % salt.size) 0)
      refillBoxes salt n (i + 2) l r
        { t with boxes := (t.boxes.setIfInBounds i l).setIfInBounds (i + 1) r }

/-- The tables for a key and a salt, from earlier tables. -/
def expand (t : Blowfish) (salt key : Array UInt32) : Blowfish :=
  let (t, l, r) := refillKeys salt (keyCount / 2) 0 0 0 (t.mixKey key)
  refillBoxes salt (boxSize / 2) 0 l r t

end Blowfish

end Rewards.Crypto
