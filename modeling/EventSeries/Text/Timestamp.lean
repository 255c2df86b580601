import EventSeries.Text.Decimal
import EventSeries.Time.LocalTime

/-
  This file writes dates, wall times and instants in the
  format of ISO 8601.  A year outside 0 to 9999 has a sign.
  A fraction of a second is left out when it is zero, and
  otherwise has 3, 6 or 9 digits, as few as are exact.  A
  leap second shows in the seconds of its minute.

  Key definitions include:
    * `Date.chars`
    * `ClockTime.chars`
    * `LocalTime.chars`
    * `Instant.chars`
    * `Instant.logText`
    * `LocalTime.compactChars`
-/

namespace EventSeries

------------------------------------------------------------
-- Dates
------------------------------------------------------------

/- A year, with four digits at least. -/
def yearChars
    (year : Int) : List Char :=
  if 0 ≤ year ∧ year ≤ 9999 then
    paddedDigits 4 year.toNat
  else if year < 0 then
    '-' :: digitsAtLeast 4 year.natAbs
  else
    '+' :: digitsAtLeast 4 year.natAbs

/- A date, as in `2025-07-04`. -/
def Date.chars
    (d : Date) : List Char :=
  yearChars d.year ++ '-' :: paddedDigits 2 d.month
    ++ '-' :: paddedDigits 2 d.day

/- A date as a string. -/
def Date.text
    (d : Date) : String :=
  String.ofList d.chars

------------------------------------------------------------
-- Times Of Day
------------------------------------------------------------

/- A fraction of a second, given in nanoseconds. -/
def fractionChars
    (nanos : Nat) : List Char :=
  if nanos = 0 then
    []
  else if nanos % 1000000 = 0 then
    '.' :: paddedDigits 3 (nanos / 1000000)
  else if nanos % 1000 = 0 then
    '.' :: paddedDigits 6 (nanos / 1000)
  else
    '.' :: paddedDigits 9 nanos

/- Second of the minute, counting a leap second. -/
def ClockTime.shownSecond
    (c : ClockTime) : Nat :=
  c.secondOfMinute + c.nanos / nanosPerSecond

/- A time of day, as in `21:00:00.500`. -/
def ClockTime.chars
    (c : ClockTime) : List Char :=
  paddedDigits 2 c.hour ++ ':' :: paddedDigits 2 c.minute
    ++ ':' :: paddedDigits 2 c.shownSecond
    ++ fractionChars (c.nanos % nanosPerSecond)

------------------------------------------------------------
-- Wall Times And Instants
------------------------------------------------------------

namespace LocalTime

/- A date and a time with a character between them. -/
def charsWith
    (separator : Char)
    (l : LocalTime) : List Char :=
  l.date.chars ++ separator :: l.time.chars

/- A wall time, as in `2025-07-04T21:00:00`. -/
def chars
    (l : LocalTime) : List Char :=
  l.charsWith 'T'

/- A wall time as a string. -/
def text
    (l : LocalTime) : String :=
  String.ofList l.chars

/- Date, hour and minute without punctuation. -/
def compactChars
    (l : LocalTime) : List Char :=
  yearChars l.date.year ++ paddedDigits 2 l.date.month
    ++ paddedDigits 2 l.date.day
    ++ paddedDigits 2 l.time.hour
    ++ paddedDigits 2 l.time.minute

end LocalTime

namespace Instant

/- An instant, as in `2025-07-04T21:00:00Z`. -/
def chars
    (t : Instant) : List Char :=
  t.utcReading.chars ++ ['Z']

/- An instant as a string. -/
def text
    (t : Instant) : String :=
  String.ofList t.chars

/- An instant in a log, as in `2025-07-04 21:00:00 UTC`. -/
def logText
    (t : Instant) : String :=
  String.ofList (t.utcReading.charsWith ' ') ++ " UTC"

end Instant

end EventSeries
