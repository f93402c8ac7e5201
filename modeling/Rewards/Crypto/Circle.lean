/-!
# The fraction of the circle number

The binary digits of the ratio of a circle to its diameter, in words. They fill the tables of a
cipher with numbers that nobody chose. The ratio is 16 arctan (1/5) - 4 arctan (1/239), and each
arctangent is the sum of its power series.
-/

namespace Rewards.Crypto.Circle

/-- Add up the series of arctan (1/x) from the term with the odd divisor `divisor` on, where `power`
is the power of 1/x of that term. Terms are fixed-point numbers and their signs alternate. -/
def series (x : Nat) : Nat → Bool → Nat → Nat → Int → Int
  | 0, _, _, _, sum => sum
  | fuel + 1, isNegative, divisor, power, sum =>
      if power = 0 then sum
      else
        let term : Int := (power / divisor : Nat)
        series x fuel (!isNegative) (divisor + 2) (power / (x * x))
          (if isNegative then sum - term else sum + term)

/-- The arctangent of 1/x times 2 ^ bits. Each term is at least one bit shorter than the last, so
there are no more terms than bits. -/
def arctanInverse (x bits : Nat) : Int :=
  series x (bits + 1) false 1 (Nat.pow 2 bits / x) 0

/-- Bits that are computed beyond those that are used, against the rounding of the terms. -/
def guardBits : Nat := 64

/-- The first words of the binary fraction, the most significant first. -/
def words (count : Nat) : List UInt32 :=
  let bits := 32 * count + guardBits
  let ratio := (16 * arctanInverse 5 bits - 4 * arctanInverse 239 bits).toNat
  (List.range count).map fun i => .ofNat (ratio >>> (bits - 32 * (i + 1)))

end Rewards.Crypto.Circle
