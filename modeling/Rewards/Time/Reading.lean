import Rewards.Time.Instant
import Rewards.Text.Blank

/-!
# Reading instants

An instant is a date, a letter `T` or a blank, a time of day and a zone. The parts of the date and
of the time may be short and may have blanks before them; the second 60 is a leap second.
-/

namespace Rewards.Instant

open Time

/-- A number of one up to `most` digits, and what follows it. -/
def readNumber (most : Nat) (cs : List Char) : Option (Nat × List Char) :=
  let digits := (cs.take most).takeWhile Char.isDigit
  if digits.isEmpty then none
  else
    some (Text.digitsValue digits, cs.drop digits.length)

/-- A number after blanks. -/
def readPart (most : Nat) (cs : List Char) : Option (Nat × List Char) :=
  readNumber most (Text.stripLeft cs)

/-- A character after blanks. -/
def readMark (mark : Char) (cs : List Char) : Option (List Char) :=
  match Text.stripLeft cs with
  | c :: rest => if c = mark then some rest else none
  | [] => none

/-- A year: four digits, or any number of them after a sign. -/
def readYear (cs : List Char) : Option (Int × List Char) :=
  match Text.stripLeft cs with
  | '-' :: rest => (readNumber rest.length rest).map fun (n, rest) => (-(n : Int), rest)
  | '+' :: rest => (readNumber rest.length rest).map fun (n, rest) => ((n : Int), rest)
  | rest => (readNumber 4 rest).map fun (n, rest) => ((n : Int), rest)

/-- A fraction of a second in nanoseconds. Digits beyond the ninth are skipped. -/
def readFraction : List Char → Option (Nat × List Char)
  | '.' :: cs => do
      let digits := (cs.take 9).takeWhile Char.isDigit
      let (n, rest) ← readNumber 9 cs
      return (n * Nat.pow 10 (9 - digits.length), rest.dropWhile Char.isDigit)
  | cs => some (0, cs)

/-- Two digits of an offset. -/
def readPair : List Char → Option (Nat × List Char)
  | a :: b :: rest =>
      if a.isDigit && b.isDigit then
        some ((a.toNat - '0'.toNat) * 10 + (b.toNat - '0'.toNat), rest)
      else none
  | _ => none

/-- An offset after its sign, in seconds: hours and minutes, with colons or blanks between them. -/
def readOffset (cs : List Char) : Option (Int × List Char) := do
  let (hours, rest) ← readPair cs
  let (minutes, rest) ← readPair (rest.dropWhile fun c => c = ':' || Text.isBlank c)
  if 59 < minutes then none else some (hours * 3600 + minutes * 60, rest)

/-- A zone, as the seconds that it is ahead of universal time. -/
def readZone (cs : List Char) : Option (Int × List Char) :=
  if (cs.take 3).map Char.toUpper = ['U', 'T', 'C'] then some (0, cs.drop 3)
  else
    match cs with
    | 'Z' :: rest => some (0, rest)
    | 'z' :: rest => some (0, rest)
    | '+' :: rest => readOffset rest
    | '-' :: rest => (readOffset rest).map fun (n, rest) => (-n, rest)
    | '\u2212' :: rest => (readOffset rest).map fun (n, rest) => (-n, rest)
    | _ => none

/-- The mark between a date and a time. -/
def readDivider : List Char → Option (List Char)
  | c :: rest => if c = 'T' || c = 't' || c = ' ' then some rest else none
  | [] => none

/-- The instant of a date, a time of day and an offset, if all of them exist. -/
def ofParts? (date : Date) (hour minute second nano : Nat) (offset : Int) : Option Instant :=
  if h : date.isValid ∧ hour < 24 ∧ minute < 60 ∧ second ≤ 60 ∧ nano < nanosPerSecond ∧
      offset.natAbs < 86400 then
    let isLeap := second = 60
    let day := date.toDays - epochDays
    let time : Int := hour * 3600 + minute * 60 + (if isLeap then 59 else second)
    let localSecond := day * 86400 + time
    let utcSecond := localSecond - offset
    if isInRange localSecond && isInRange utcSecond then
      some ⟨utcSecond, nano + (if isLeap then nanosPerSecond else 0), by
        have := h.2.2.2.2.1
        simp only [nanosPerSecond] at *
        split <;> omega⟩
    else none
  else none

/-- Read the characters of an instant. -/
def readChars (cs : List Char) : Option Instant := do
  let (year, rest) ← readYear cs
  let rest ← readMark '-' rest
  let (month, rest) ← readPart 2 rest
  let rest ← readMark '-' rest
  let (day, rest) ← readPart 2 rest
  let rest ← readDivider rest
  let (hour, rest) ← readPart 2 rest
  let rest ← readMark ':' rest
  let (minute, rest) ← readPart 2 rest
  let rest ← readMark ':' rest
  let (second, rest) ← readPart 2 rest
  let (nano, rest) ← readFraction rest
  let (offset, rest) ← readZone (Text.stripLeft rest)
  if (Text.stripLeft rest).isEmpty then
    ofParts? ⟨year, month, day⟩ hour minute second nano offset
  else none

/-- Read the text of an instant. -/
def read (s : String) : Option Instant :=
  readChars s.toList

end Rewards.Instant
