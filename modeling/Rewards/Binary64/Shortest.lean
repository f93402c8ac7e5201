import Rewards.Binary64.Basic

/-!
# Shortest decimal text

The text of a binary64 number has the fewest digits that read back as the number, and of those the
nearest to it. It is positional from `1e-5` up to `1e16` and has an exponent outside.
-/

namespace Rewards.Binary64

/-- An interval of quotients over one denominator. Both ends belong to it if it is closed. -/
structure Interval where
  low : Nat
  value : Nat
  high : Nat
  denominator : Nat
  isClosed : Bool

/-- The quotients that round to `significand * 2 ^ exponent`. Below a power of two the numbers
lie twice as dense, so the lower end is nearer there. -/
def roundingInterval (significand : Nat) (exponent : Int) : Interval :=
  let isPower := significand = 1 <<< 52 ∧ minExponent < exponent
  let unit := Nat.pow 2 exponent.toNat
  { low := (4 * significand - (if isPower then 1 else 2)) * unit
    value := 4 * significand * unit
    high := (4 * significand + 2) * unit
    denominator := 4 * Nat.pow 2 (-exponent).toNat
    isClosed := significand % 2 = 0 }

/-- The interval over quotients of a power of ten. -/
def Interval.scale (i : Interval) (exponent : Int) : Interval :=
  let up := Nat.pow 10 (-exponent).toNat
  { i with
    low := i.low * up
    value := i.value * up
    high := i.high * up
    denominator := i.denominator * Nat.pow 10 exponent.toNat }

/-- The whole number lies in the interval. -/
def Interval.contains (i : Interval) (n : Nat) : Bool :=
  let x := n * i.denominator
  if i.isClosed then i.low ≤ x && x ≤ i.high else i.low < x && x < i.high

/-- The whole number of the interval that is nearest to its value, if there is one: it is the one
just below or just above the value. -/
def Interval.nearestWhole? (i : Interval) : Option Nat :=
  let below := i.value / i.denominator
  let rest := i.value % i.denominator
  match i.contains below, i.contains (below + 1) with
  | true, true =>
      if 2 * rest < i.denominator || (2 * rest == i.denominator && below % 2 == 0) then some below
      else some (below + 1)
  | true, false => some below
  | false, true => some (below + 1)
  | false, false => none

/-- The exponent of the greatest power of ten that is not above a positive quotient. -/
def decade (num den : Nat) : Int :=
  if den ≤ num then ((Nat.toDigits 10 (num / den)).length : Int) - 1
  else
    let places := (Nat.toDigits 10 (den / num)).length - 1
    if den ≤ num * Nat.pow 10 places then -places else -(places + 1)

/-- Decimal digits and the power of ten of the last one. -/
structure Digits where
  digits : List Char
  exponent : Int

/-- The first grid of at least `count` digits with a point in the interval. A grid of 17 digits
always has one. -/
def searchDigits (i : Interval) (top : Int) (count : Nat) : Nat → Digits
  | 0 => ⟨[], 0⟩
  | fuel + 1 =>
      let exponent := top - count + 1
      match (i.scale exponent).nearestWhole? with
      | some n => ⟨Nat.toDigits 10 n, exponent⟩
      | none => searchDigits i top (count + 1) fuel

/-- The digits of a positive number. -/
def shortestDigits (significand : Nat) (exponent : Int) : Digits :=
  let i := roundingInterval significand exponent
  searchDigits i (decade i.value i.denominator) 1 17

/-- The digits without zeros at the end. -/
def Digits.trimmed (d : Digits) : Digits :=
  let kept := (d.digits.reverse.dropWhile (· = '0')).reverse
  ⟨kept, d.exponent + (d.digits.length - kept.length)⟩

/-- Write digits positionally or, for small and large numbers, with an exponent. -/
def Digits.chars (d : Digits) : List Char :=
  let length : Int := d.digits.length
  let point := d.exponent + length
  if 0 ≤ d.exponent && point ≤ 16 then
    d.digits ++ List.replicate d.exponent.toNat '0' ++ ['.', '0']
  else if 0 < point && point ≤ 16 then
    d.digits.take point.toNat ++ '.' :: d.digits.drop point.toNat
  else if -5 < point && point ≤ 0 then
    '0' :: '.' :: List.replicate (-point).toNat '0' ++ d.digits
  else
    let power := point - 1
    let mark := 'e' :: (if power < 0 then '-' else '+') :: Nat.toDigits 10 power.natAbs
    match d.digits with
    | [] => []
    | [c] => c :: mark
    | c :: cs => c :: '.' :: cs ++ mark

/-- The characters of a number. -/
def chars : Binary64 → List Char
  | .infinite negative => (if negative then ['-'] else []) ++ "inf".toList
  | .finite negative significand exponent =>
      (if negative then ['-'] else []) ++
        if significand = 0 then ['0', '.', '0']
        else (shortestDigits significand exponent).trimmed.chars

/-- The shortest text that reads back as the number. -/
def toText (x : Binary64) : String :=
  String.ofList x.chars

/-- Write digits without an exponent, and without a point if there is no fraction. -/
def Digits.positionalChars (d : Digits) : List Char :=
  let length : Int := d.digits.length
  let point := d.exponent + length
  if 0 ≤ d.exponent then d.digits ++ List.replicate d.exponent.toNat '0'
  else if 0 < point then d.digits.take point.toNat ++ '.' :: d.digits.drop point.toNat
  else '0' :: '.' :: List.replicate (-point).toNat '0' ++ d.digits

/-- The characters of a number with the same digits as its shortest text and no exponent. -/
def positionalChars : Binary64 → List Char
  | .infinite negative => (if negative then ['-'] else []) ++ "inf".toList
  | .finite negative significand exponent =>
      (if negative then ['-'] else []) ++
        if significand = 0 then ['0']
        else (shortestDigits significand exponent).trimmed.positionalChars

end Rewards.Binary64
