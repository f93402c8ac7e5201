/-!
# Calendar dates

Days of the Gregorian calendar, counted from the first day of the year 0, and the dates they have.
-/

namespace Rewards.Time

/-- A calendar date. -/
structure Date where
  year : Int
  month : Nat
  day : Nat
deriving DecidableEq

/-- A year with a 29th of February. -/
def isLeap (year : Int) : Bool :=
  year % 4 = 0 && (year % 100 ≠ 0 || year % 400 = 0)

/-- The days from the first day of the year 0 to the first day of a year. -/
def daysBeforeYear (year : Int) : Int :=
  365 * year + (year + 3) / 4 - (year + 99) / 100 + (year + 399) / 400

/-- The lengths of the months of a year. -/
def monthLengths (year : Int) : List Nat :=
  [31, if isLeap year then 29 else 28, 31, 30, 31, 30, 31, 31, 30, 31, 30, 31]

/-- The length of a month, nothing for a month that does not exist. -/
def monthLength (year : Int) (month : Nat) : Nat :=
  if month = 0 then 0 else (monthLengths year).getD (month - 1) 0

/-- The days of a year before a month. -/
def daysBeforeMonth (year : Int) (month : Nat) : Nat :=
  ((monthLengths year).take (month - 1)).foldl (· + ·) 0

/-- The date exists. -/
def Date.isValid (d : Date) : Bool :=
  1 ≤ d.month && d.month ≤ 12 && 1 ≤ d.day && d.day ≤ monthLength d.year d.month

/-- The number of a day. -/
def Date.toDays (d : Date) : Int :=
  daysBeforeYear d.year + daysBeforeMonth d.year d.month + d.day - 1

/-- The year of a day. -/
def yearOfDays (days : Int) : Int :=
  let guess := days * 400 / 146097
  if daysBeforeYear (guess + 1) ≤ days then guess + 1
  else if days < daysBeforeYear guess then guess - 1
  else guess

/-- The month and the day of the month of the day with this index, from the given month on. -/
def monthOfIndex (month index : Nat) : List Nat → Nat × Nat
  | [] => (month, index + 1)
  | length :: lengths =>
      if index < length then (month, index + 1)
      else monthOfIndex (month + 1) (index - length) lengths

/-- The date of a day. -/
def Date.ofDays (days : Int) : Date :=
  let year := yearOfDays days
  let (month, day) := monthOfIndex 1 (days - daysBeforeYear year).toNat (monthLengths year)
  ⟨year, month, day⟩

/-- The number of the first day of 1970. -/
def epochDays : Int := 719528

end Rewards.Time
