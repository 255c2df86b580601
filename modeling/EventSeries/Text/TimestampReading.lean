import EventSeries.Text.Scan
import EventSeries.Time.LocalTime

/-
  This file reads dates and times.  Three grammars share
  their parts:

    * the strict form of RFC 3339, with fixed widths and an
      offset;
    * a relaxed form of it, with blanks around its parts;
    * wall times in one of four layouts, without an offset.

  Key definitions include:
    * `Scan.relaxedInstant`
    * `Scan.strictInstant`
    * `WallLayout`
    * `Scan.wallTime`
    * `Instant.ofText?`
    * `LocalTime.ofText?`
    * `ClockTime.ofText?`
-/

namespace EventSeries

namespace Scan

------------------------------------------------------------
-- Parts
------------------------------------------------------------

/- The value of an option, or failure. -/
def require
    {α : Type} :
    Option α → Scan α
  | some a => return a
  | none => failure

/-
  A year: a sign and any number of digits, or up to four
  digits without a sign.
-/
def year : Scan Int := do
  blanks
  match ← get with
  | '-' :: rest =>
      set rest
      return -(valueOfDigits (← digitRow none) : Int)
  | '+' :: rest =>
      set rest
      return valueOfDigits (← digitRow none)
  | _ => return valueOfDigits (← digitRow (some 4))

/- Year, month and day, with `gap` before each hyphen. -/
def dateWith
    (gap : Scan Unit) : Scan Date := do
  let y ← year
  gap
  literal '-'
  let m ← number 2
  gap
  literal '-'
  let d ← number 2
  require (Date.ofYearMonthDay? y m d)

/- Hour and minute, with `gap` before the colon. -/
def hourAndMinuteWith
    (gap : Scan Unit) : Scan (Nat × Nat) := do
  let h ← number 2
  gap
  literal ':'
  let m ← number 2
  return (h, m)

/- Second and fraction, with `gap` before the colon. -/
def secondAndNanosWith
    (gap : Scan Unit) : Scan (Nat × Nat) := do
  gap
  literal ':'
  let s ← number 2
  return (s, ← fraction)

/- A time of day with its seconds. -/
def timeWith
    (gap : Scan Unit) : Scan ClockTime := do
  let (h, m) ← hourAndMinuteWith gap
  let (s, nanos) ← secondAndNanosWith gap
  require (ClockTime.ofParts? h m s nanos)

/- A time of day without seconds. -/
def timeOfHourAndMinute
    (gap : Scan Unit) : Scan ClockTime := do
  let (h, m) ← hourAndMinuteWith gap
  require (ClockTime.ofParts? h m 0 0)

/- Nothing at all. -/
def nothing : Scan Unit :=
  return

------------------------------------------------------------
-- Offsets
------------------------------------------------------------

/- The sign of an offset; a minus sign of print will do. -/
def offsetSign : Scan Int := do
  let c ← oneOf (fun c => c == '+' || c == '-' || c == '\u2212')
  return if c == '+' then 1 else -1

/- A sign, hours, and minutes behind `colon`. -/
def signedOffset
    (colon : Scan Unit) : Scan Int := do
  let sign ← offsetSign
  let hours ← exactDigits 2
  colon
  let minutes ← exactDigits 2
  if hours < 24 ∧ minutes < 60 then
    return sign * ((hours * 3600 + minutes * 60 : Nat) : Int)
  else
    failure

/- A letter for universal time, or a signed offset. -/
def offsetWith
    (colon : Scan Unit) : Scan Int := do
  match ← get with
  | 'Z' :: rest =>
      set rest
      return 0
  | 'z' :: rest =>
      set rest
      return 0
  | _ => signedOffset colon

/- As `offsetWith`, or the letters UTC in either case. -/
def offsetOrUtc
    (colon : Scan Unit) : Scan Int := do
  let cs ← get
  if (cs.take 3).map Char.toUpper = ['U', 'T', 'C'] then
    set (cs.drop 3)
    return 0
  else
    offsetWith colon

/- Any number of colons and blanks. -/
def colonsAndBlanks : Scan Unit :=
  modify (List.dropWhile fun c => c == ':' || isBlank c)

/- The instant of a wall time under an offset. -/
def atOffset
    (l : LocalTime)
    (offset : Int) : Option Instant :=
  (Instant.checked
    ⟨l.inUtc.seconds - offset, l.time.nanos⟩).toOption

------------------------------------------------------------
-- Instants
------------------------------------------------------------

/- The character between a date and a time. -/
def dateTimeSeparator : Scan Unit := do
  let _ ← oneOf (fun c => c == 'T' || c == 't' || c == ' ')

/- An instant in the relaxed form. -/
def relaxedInstant : Scan Instant := do
  let d ← dateWith blanks
  dateTimeSeparator
  let c ← timeWith blanks
  blanks
  let offset ← offsetOrUtc colonsAndBlanks
  blanks
  require (atOffset ⟨d, c⟩ offset)

/- An instant in the strict form of RFC 3339. -/
def strictInstant : Scan Instant := do
  let y ← exactDigits 4
  literal '-'
  let m ← exactDigits 2
  literal '-'
  let d ← exactDigits 2
  let date ← require (Date.ofYearMonthDay? y m d)
  dateTimeSeparator
  let h ← exactDigits 2
  literal ':'
  let min ← exactDigits 2
  literal ':'
  let s ← exactDigits 2
  let nanos ← fraction
  let time ← require (ClockTime.ofParts? h min s nanos)
  let offset ← offsetWith (literal ':')
  require (atOffset ⟨date, time⟩ offset)

------------------------------------------------------------
-- Wall Times
------------------------------------------------------------

/- A layout of a wall time: its separator, and seconds. -/
inductive WallLayout where
  | letterWithSeconds
  | letterWithoutSeconds
  | blankWithSeconds
  | blankWithoutSeconds
  deriving DecidableEq, Repr

namespace WallLayout

/- What stands between the date and the time. -/
def separator : WallLayout → Scan Unit
  | letterWithSeconds | letterWithoutSeconds => literal 'T'
  | blankWithSeconds | blankWithoutSeconds => blanks

/- The time of day of a layout. -/
def timeOfDay : WallLayout → Scan ClockTime
  | letterWithSeconds | blankWithSeconds => timeWith nothing
  | letterWithoutSeconds | blankWithoutSeconds =>
      timeOfHourAndMinute nothing

/- The layouts in the order in which they are tried. -/
def all : List WallLayout :=
  [letterWithSeconds, letterWithoutSeconds,
    blankWithSeconds, blankWithoutSeconds]

end WallLayout

/- A wall time in a layout. -/
def wallTime
    (layout : WallLayout) : Scan LocalTime := do
  let d ← dateWith nothing
  layout.separator
  let c ← layout.timeOfDay
  return ⟨d, c⟩

/- A wall time with blanks around its parts. -/
def relaxedWallTime : Scan LocalTime := do
  let d ← dateWith blanks
  blanks
  literal 'T'
  let c ← timeWith blanks
  blanks
  return ⟨d, c⟩

/- A time of day, whose seconds may be absent. -/
def relaxedClockTime : Scan ClockTime := do
  let (h, m) ← hourAndMinuteWith blanks
  let (s, nanos) ← secondAndNanosWith blanks <|> pure (0, 0)
  blanks
  require (ClockTime.ofParts? h m s nanos)

end Scan

------------------------------------------------------------
-- Whole Texts
------------------------------------------------------------

/- The instant that a text writes in the relaxed form. -/
def Instant.ofText?
    (s : String) : Option Instant :=
  Scan.relaxedInstant.whole? s.toList

/- The wall time that a text writes. -/
def LocalTime.ofText?
    (s : String) : Option LocalTime :=
  Scan.relaxedWallTime.whole? s.toList

/- The time of day that a text writes. -/
def ClockTime.ofText?
    (s : String) : Option ClockTime :=
  Scan.relaxedClockTime.whole? s.toList

end EventSeries
