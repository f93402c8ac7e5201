/-!
# Splitting text at a character
-/

namespace Rewards.Text

/-- The pieces between the occurrences of a separator, in their order; there is one more than there
are separators. -/
def split (separator : Char) : List Char → List (List Char)
  | [] => [[]]
  | c :: cs =>
      if c = separator then [] :: split separator cs
      else
        match split separator cs with
        | piece :: pieces => (c :: piece) :: pieces
        | [] => [[c]]

/-- What is before and after the first occurrence of a separator. -/
def splitFirst? (separator : Char) (cs : List Char) : Option (List Char × List Char) :=
  match cs.dropWhile (· != separator) with
  | [] => none
  | _ :: rest => some (cs.takeWhile (· != separator), rest)

/-- What is before and after the last occurrence of a separator. -/
def splitLast? (separator : Char) (cs : List Char) : Option (List Char × List Char) :=
  (splitFirst? separator cs.reverse).map fun (after, before) => (before.reverse, after.reverse)

end Rewards.Text
