/-
  This file writes and reads natural numbers in decimal.

  Key definitions include:
    * `digitChar`
    * `digits`
    * `paddedDigits`
    * `digitsAtLeast`
    * `digitValue`
    * `valueOfDigits`
-/

namespace EventSeries

------------------------------------------------------------
-- Writing
------------------------------------------------------------

/- The character of a digit; larger numbers show as 9. -/
def digitChar : Nat → Char
  | 0 => '0'
  | 1 => '1'
  | 2 => '2'
  | 3 => '3'
  | 4 => '4'
  | 5 => '5'
  | 6 => '6'
  | 7 => '7'
  | 8 => '8'
  | _ => '9'

/- The digits of a number, without leading zeros. -/
def digits
    (n : Nat) : List Char :=
  if n < 10 then
    [digitChar n]
  else
    digits (n / 10) ++ [digitChar (n % 10)]

/- The last `width` digits of a number, zeros included. -/
def paddedDigits : Nat → Nat → List Char
  | 0, _ => []
  | width + 1, n =>
      paddedDigits width (n / 10) ++ [digitChar (n % 10)]

/- The digits of a number, with zeros in front up to a width. -/
def digitsAtLeast
    (width n : Nat) : List Char :=
  if n < Nat.pow 10 width then paddedDigits width n else digits n

/- An integer, with a sign when it is negative. -/
def signedDigits
    (n : Int) : List Char :=
  if n < 0 then '-' :: digits n.natAbs else digits n.natAbs

------------------------------------------------------------
-- Reading
------------------------------------------------------------

/- The value of a digit. -/
def digitValue
    (c : Char) : Nat :=
  c.toNat - '0'.toNat

/- The number that a row of digits writes. -/
def valueOfDigits
    (cs : List Char) : Nat :=
  cs.foldl (fun n c => 10 * n + digitValue c) 0

end EventSeries
