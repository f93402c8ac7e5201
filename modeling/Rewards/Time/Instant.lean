import Rewards.Text.Natural
import Rewards.Time.Date

/-!
# Instants

Points of time in nanoseconds. A leap second is the second second of its number: it is kept by
nanoseconds beyond a full second, comes after the whole of the second before it, and is written as
the second 60.
-/

namespace Rewards

/-- A point of time: the seconds since the start of 1970 and the nanoseconds after them. -/
structure Instant where
  second : Int
  nano : Nat
  nano_lt : nano < 2000000000
deriving DecidableEq

namespace Instant

open Text (paddedDigits)
open Time

instance : Inhabited Instant := ⟨⟨0, 0, by decide⟩⟩

/-- The nanoseconds of a second. -/
def nanosPerSecond : Nat := 1000000000

/-- The instant is not after another one. -/
def le (a b : Instant) : Bool :=
  a.second < b.second || (a.second == b.second && a.nano ≤ b.nano)

/-- The instant is before another one. -/
def lt (a b : Instant) : Bool :=
  !b.le a

/-- The first second of the time line. -/
def minSecond : Int := (daysBeforeYear (-262143) - epochDays) * 86400

/-- The last second of the time line. -/
def maxSecond : Int := (daysBeforeYear 262143 - epochDays) * 86400 - 1

/-- The second belongs to the time line. -/
def isInRange (second : Int) : Bool :=
  minSecond ≤ second && second ≤ maxSecond

/-- The instant this many nanoseconds later, or earlier if they are negative. Going on from a leap
second counts it as the second before it, going back by a second or more counts it as the second
after it. There is none beyond the time line. -/
def add? (t : Instant) (nanos : Int) : Option Instant :=
  if h : nanosPerSecond ≤ t.nano ∧ nanos.natAbs < nanosPerSecond ∧
      t.nano + nanos < 2 * nanosPerSecond then
    if isInRange t.second then
      some ⟨t.second, (t.nano + nanos).toNat, by simp only [nanosPerSecond] at h; omega⟩
    else none
  else
    let elapsed : Int :=
      if t.nano < nanosPerSecond then t.nano
      else t.nano - nanosPerSecond + (if nanos < 0 then nanosPerSecond else 0)
    let total := t.second * nanosPerSecond + elapsed + nanos
    if isInRange (total / nanosPerSecond) then
      some ⟨total / nanosPerSecond, (total % nanosPerSecond).toNat, by
        simp only [nanosPerSecond]; omega⟩
    else none

/-- The instant this many seconds later. -/
def addSeconds? (t : Instant) (seconds : Int) : Option Instant :=
  t.add? (seconds * nanosPerSecond)

/-- A year: four digits, and a sign if there are more or it is negative. -/
def yearChars (year : Int) : List Char :=
  if 0 ≤ year ∧ year ≤ 9999 then paddedDigits 4 year.toNat
  else (if year < 0 then '-' else '+') :: paddedDigits 4 year.natAbs

/-- A fraction of a second: nothing, or 3, 6 or 9 digits, as few as keep it exact. -/
def fractionChars (nano : Nat) : List Char :=
  if nano = 0 then []
  else if nano % 1000000 = 0 then '.' :: paddedDigits 3 (nano / 1000000)
  else if nano % 1000 = 0 then '.' :: paddedDigits 6 (nano / 1000)
  else '.' :: paddedDigits 9 nano

/-- The date and the time of day, without a zone. -/
def localChars (t : Instant) : List Char :=
  let days := t.second / 86400
  let time := (t.second % 86400).toNat
  let date := Date.ofDays (days + epochDays)
  let second := time % 60 + t.nano / nanosPerSecond
  yearChars date.year ++ '-' :: paddedDigits 2 date.month ++ '-' :: paddedDigits 2 date.day ++
    'T' :: paddedDigits 2 (time / 3600) ++ ':' :: paddedDigits 2 (time / 60 % 60) ++
    ':' :: paddedDigits 2 second ++ fractionChars (t.nano % nanosPerSecond)

/-- The text of an instant with the offset of universal time. -/
def toText (t : Instant) : String :=
  String.ofList (t.localChars ++ "+00:00".toList)

/-- The text of an instant with the letter of universal time. -/
def toZuluText (t : Instant) : String :=
  String.ofList (t.localChars ++ ['Z'])

end Instant

end Rewards
