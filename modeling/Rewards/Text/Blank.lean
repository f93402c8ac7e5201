/-!
# Blank characters

The characters that count as white space around an order number, a token or a date, and the
functions that strip them. The class is the Unicode property `White_Space`.
-/

namespace Rewards.Text

/-- Membership in the Unicode property `White_Space`. -/
def isBlank (c : Char) : Bool :=
  let n := c.toNat
  (9 ≤ n && n ≤ 13) || n == 0x20 || n == 0x85 || n == 0xA0 || n == 0x1680 ||
    (0x2000 ≤ n && n ≤ 0x200A) || n == 0x2028 || n == 0x2029 || n == 0x202F ||
    n == 0x205F || n == 0x3000

/-- The characters without their leading blanks. -/
def stripLeft (cs : List Char) : List Char :=
  cs.dropWhile isBlank

/-- The characters without their leading and trailing blanks. -/
def strip (cs : List Char) : List Char :=
  (stripLeft (stripLeft cs).reverse).reverse

/-- The text without its leading and trailing blanks. -/
def trim (s : String) : String :=
  String.ofList (strip s.toList)

end Rewards.Text
