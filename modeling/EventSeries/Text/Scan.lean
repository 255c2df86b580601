import EventSeries.Text.Blank
import EventSeries.Text.Decimal

/-
  This file defines scanners, which take a piece off the
  front of a text and hand back the rest, or fail.

  Key definitions include:
    * `Scan`
    * `Scan.whole?`
    * `Scan.blanks`
    * `Scan.literal`
    * `Scan.oneOf`
    * `Scan.number`
    * `Scan.exactDigits`
    * `Scan.fraction`
-/

namespace EventSeries

/- A reading of the front of a text. -/
abbrev Scan :=
  StateT (List Char) Option

namespace Scan

/- The reading of a whole text. -/
def whole?
    {α : Type}
    (scan : Scan α)
    (cs : List Char) : Option α :=
  match scan.run cs with
  | some (a, []) => some a
  | _ => none

/- Any number of blanks, also none. -/
def blanks : Scan Unit :=
  modify trimStart

/- The next character, which must pass a test. -/
def oneOf
    (ok : Char → Bool) : Scan Char := do
  match ← get with
  | c :: rest =>
      if ok c then
        set rest
        return c
      else
        failure
  | [] => failure

/- A given character. -/
def literal
    (c : Char) : Scan Unit := do
  let _ ← oneOf (· == c)

/- The digits at the front, at most `width` of them. -/
def leadingDigits
    (width : Option Nat)
    (cs : List Char) : List Char :=
  let run := cs.takeWhile Char.isDigit
  match width with
  | some w => run.take w
  | none => run

/-
  A row of one digit or more, as long as it gets but no
  longer than `width`.
-/
def digitRow
    (width : Option Nat) : Scan (List Char) := do
  let cs ← get
  let row := leadingDigits width cs
  if row.isEmpty then
    failure
  else
    set (cs.drop row.length)
    return row

/- Blanks and then a number of at most `width` digits. -/
def number
    (width : Nat) : Scan Nat := do
  blanks
  return valueOfDigits (← digitRow (some width))

/- A number of exactly `width` digits. -/
def exactDigits
    (width : Nat) : Scan Nat := do
  let row ← digitRow (some width)
  if row.length = width then
    return valueOfDigits row
  else
    failure

/-
  A point and one digit or more, as nanoseconds.  Digits past
  the ninth are read and dropped.
-/
def pointAndDigits : Scan Nat := do
  literal '.'
  let row ← digitRow none
  let kept := row.take 9
  return valueOfDigits kept * Nat.pow 10 (9 - kept.length)

/- A fraction of a second, which may be absent. -/
def fraction : Scan Nat := do
  match ← get with
  | '.' :: _ => pointAndDigits
  | _ => return 0

end Scan

end EventSeries
