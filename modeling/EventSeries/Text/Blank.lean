/-
  This file defines the blank characters of Unicode, which
  are those with the property `White_Space`, and trims text
  of them.

  Key definitions include:
    * `isBlank`
    * `trimStart`
    * `trimChars`
    * `trim`
-/

namespace EventSeries

/- The characters of the Unicode property `White_Space`. -/
def isBlank
    (c : Char) : Bool :=
  let n := c.toNat
  (9 ≤ n && n ≤ 13) || n == 32 || n == 0x85 || n == 0xA0 ||
    n == 0x1680 || (0x2000 ≤ n && n ≤ 0x200A) ||
    n == 0x2028 || n == 0x2029 || n == 0x202F ||
    n == 0x205F || n == 0x3000

/- Text without its leading blanks. -/
def trimStart
    (cs : List Char) : List Char :=
  cs.dropWhile isBlank

/- Text without its leading and trailing blanks. -/
def trimChars
    (cs : List Char) : List Char :=
  (trimStart (trimStart cs).reverse).reverse

/- A string without its leading and trailing blanks. -/
def trim
    (s : String) : String :=
  String.ofList (trimChars s.toList)

end EventSeries
