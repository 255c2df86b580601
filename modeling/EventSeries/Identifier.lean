/-
  This file defines the identifiers of events, bands and
  windows, which are UUIDs of 128 bits.  They are written in
  lower-case hexadecimal digits with hyphens, and read with
  or without hyphens, in braces, or as a URN.

  Key definitions include:
    * `Id`
    * `Id.chars`
    * `Id.ofText?`
    * `Id.versionFour`
    * `IdSource`
-/

namespace EventSeries

------------------------------------------------------------
-- Hexadecimal Digits
------------------------------------------------------------

/- The character of a hexadecimal digit. -/
def hexChar : Nat → Char
  | 0 => '0'
  | 1 => '1'
  | 2 => '2'
  | 3 => '3'
  | 4 => '4'
  | 5 => '5'
  | 6 => '6'
  | 7 => '7'
  | 8 => '8'
  | 9 => '9'
  | 10 => 'a'
  | 11 => 'b'
  | 12 => 'c'
  | 13 => 'd'
  | 14 => 'e'
  | _ => 'f'

/- The value of a hexadecimal digit in either case. -/
def hexValue?
    (c : Char) : Option Nat :=
  if '0' ≤ c ∧ c ≤ '9' then
    some (c.toNat - '0'.toNat)
  else if 'a' ≤ c ∧ c ≤ 'f' then
    some (c.toNat - 'a'.toNat + 10)
  else if 'A' ≤ c ∧ c ≤ 'F' then
    some (c.toNat - 'A'.toNat + 10)
  else
    none

/- The last `width` hexadecimal digits of a number. -/
def hexDigits : Nat → Nat → List Char
  | 0, _ => []
  | width + 1, n =>
      hexDigits width (n / 16) ++ [hexChar (n % 16)]

/- The number that a row of hexadecimal digits writes. -/
def valueOfHexDigits?
    (cs : List Char) : Option Nat :=
  cs.foldlM (fun n c => (hexValue? c).map (16 * n + ·)) 0

------------------------------------------------------------
-- Identifiers
------------------------------------------------------------

/- An identifier of 128 bits. -/
structure Id where
  bits : BitVec 128
  deriving DecidableEq, Repr

namespace Id

/- Digits, with hyphens between the five groups. -/
def chars
    (id : Id) : List Char :=
  let hex := hexDigits 32 id.bits.toNat
  hex.take 8 ++ '-' :: (hex.drop 8).take 4
    ++ '-' :: (hex.drop 12).take 4
    ++ '-' :: (hex.drop 16).take 4 ++ '-' :: hex.drop 20

/- An identifier as a string. -/
def text
    (id : Id) : String :=
  String.ofList id.chars

/- The identifier that 32 hexadecimal digits write. -/
def ofHexDigits?
    (cs : List Char) : Option Id :=
  if cs.length = 32 then
    (valueOfHexDigits? cs).map fun n => ⟨BitVec.ofNat 128 n⟩
  else
    none

/- The digits of a text whose hyphens stand where they must. -/
def withoutHyphens?
    (cs : List Char) : Option (List Char) :=
  if cs.length = 36 ∧ cs[8]? = some '-' ∧
      cs[13]? = some '-' ∧ cs[18]? = some '-' ∧
      cs[23]? = some '-' then
    some (cs.take 8 ++ (cs.drop 9).take 4
      ++ (cs.drop 14).take 4 ++ (cs.drop 19).take 4
      ++ cs.drop 24)
  else
    none

/- The identifier of a text with hyphens. -/
def ofHyphenated?
    (cs : List Char) : Option Id :=
  (withoutHyphens? cs).bind ofHexDigits?

/- What stands in front of an identifier in a URN. -/
def urnStart : List Char :=
  ['u', 'r', 'n', ':', 'u', 'u', 'i', 'd', ':']

/-
  What a text in braces or a URN has inside, or the text.  A
  URN starts in letters of either case.
-/
def unwrapped
    (cs : List Char) : List Char :=
  if (cs.take urnStart.length).map Char.toLower = urnStart then
    cs.drop urnStart.length
  else
    match cs with
    | '\x7b' :: rest =>
        if rest.getLast? = some '\x7d' then
          rest.dropLast
        else
          cs
    | _ => cs

/- The identifier that a text writes. -/
def ofChars?
    (cs : List Char) : Option Id :=
  if cs.length = 32 then
    ofHexDigits? cs
  else
    ofHyphenated? (unwrapped cs)

/- The identifier that a string writes. -/
def ofText?
    (s : String) : Option Id :=
  ofChars? s.toList

------------------------------------------------------------
-- Fresh Identifiers
------------------------------------------------------------

/-
  The identifier of version 4 that carries the lowest 122 of
  some random bits.
-/
def versionFour
    (random : Nat) : Id :=
  let low := BitVec.ofNat 62 random
  let middle := BitVec.ofNat 12 (random >>> 62)
  let high := BitVec.ofNat 48 (random >>> 74)
  ⟨high ++ (4#4 ++ (middle ++ (2#2 ++ low)))⟩

end Id

/- A supply of identifiers, drawn one after the other. -/
structure IdSource where
  supply : Nat → Id
  drawn : Nat := 0

namespace IdSource

/- The next identifier, and the supply behind it. -/
def draw
    (source : IdSource) : Id × IdSource :=
  (source.supply source.drawn,
    ⟨source.supply, source.drawn + 1⟩)

/- The supply from which more has been drawn. -/
def furthest
    (a b : IdSource) : IdSource :=
  if a.drawn < b.drawn then b else a

end IdSource

end EventSeries
