import EventSeries.Calendar.Date
import EventSeries.Time.Span

/-
  This file defines instants of universal time: a second,
  counted from 1970-01-01T00:00:00Z, and nanoseconds into it.
  A second that is followed by a leap second is twice as
  long, so its nanoseconds run up to two thousand million.

  The difference of two instants counts the leap second that
  an endpoint lies in, and adding a span to an instant inside
  a leap second leaves it unless the sum stays inside.

  Key definitions include:
    * `Instant`
    * `Instant.InCalendar`
    * `Instant.isLeap`
    * `Instant.since`
    * `Instant.plus`
    * `Instant.earliest?`
-/

namespace EventSeries

------------------------------------------------------------
-- Instants
------------------------------------------------------------

/- Seconds in a day. -/
def secondsPerDay : Nat :=
  86400

/- A point of universal time. -/
structure Instant where
  seconds : Int
  nanos : Nat
  deriving DecidableEq, Repr

namespace Instant

/- Instants are ordered by second, then by nanosecond. -/
instance : LE Instant where
  le a b :=
    a.seconds < b.seconds ∨
      (a.seconds = b.seconds ∧ a.nanos ≤ b.nanos)

instance : LT Instant where
  lt a b :=
    a.seconds < b.seconds ∨
      (a.seconds = b.seconds ∧ a.nanos < b.nanos)

instance
    (a b : Instant) :
    Decidable (a ≤ b) :=
  inferInstanceAs
    (Decidable
      (a.seconds < b.seconds ∨
        (a.seconds = b.seconds ∧ a.nanos ≤ b.nanos)))

instance
    (a b : Instant) :
    Decidable (a < b) :=
  inferInstanceAs
    (Decidable
      (a.seconds < b.seconds ∨
        (a.seconds = b.seconds ∧ a.nanos < b.nanos)))

instance : Min Instant where
  min a b := if a ≤ b then a else b

/- The earliest of some instants. -/
def earliest?
    (ts : List Instant) : Option Instant :=
  ts.min?

------------------------------------------------------------
-- The Calendar's Range
------------------------------------------------------------

/- The calendar holds the seconds of its days. -/
def InCalendar
    (t : Instant) : Prop :=
  Date.first.dayNumber * secondsPerDay ≤ t.seconds ∧
    t.seconds < (Date.last.dayNumber + 1) * secondsPerDay

instance
    (t : Instant) :
    Decidable t.InCalendar := by
  unfold InCalendar
  infer_instance

/- An instant, if the calendar holds it. -/
def checked
    (t : Instant) : Bounded Instant :=
  if t.InCalendar then .ok t else .error .calendar

------------------------------------------------------------
-- Leap Seconds
------------------------------------------------------------

/- The instant lies in the second half of a long second. -/
def isLeap
    (t : Instant) : Bool :=
  nanosPerSecond ≤ t.nanos

/- Seconds since midnight. -/
def secondOfDay
    (t : Instant) : Int :=
  t.seconds % secondsPerDay

------------------------------------------------------------
-- Differences And Sums
------------------------------------------------------------

/-
  A leap second that was passed between the two times of day
  is counted when an endpoint shows it.
-/
def leapSecondsPassed
    (t reference : Instant) : Int :=
  if reference.secondOfDay < t.secondOfDay ∧
      reference.isLeap then
    1
  else if t.secondOfDay < reference.secondOfDay ∧
      t.isLeap then
    -1
  else
    0

/- The span from `reference` to `t`. -/
def since
    (t reference : Instant) : Span :=
  ⟨(t.seconds - reference.seconds
      + leapSecondsPassed t reference) * nanosPerSecond
    + ((t.nanos : Int) - reference.nanos)⟩

/-
  The instant `nanos` nanoseconds after the start of a second
  of ordinary length; the count may be negative or large.
-/
def ofSecondAndNanos
    (seconds nanos : Int) : Instant :=
  ⟨seconds + nanos / nanosPerSecond,
    (nanos % nanosPerSecond).toNat⟩

/- The sum of an instant and a span, on an endless calendar. -/
def plusUnchecked
    (t : Instant)
    (s : Span) : Instant :=
  let seconds := s.wholeSeconds
  let nanos := s.subsecondNanos
  if ¬ t.isLeap then
    ofSecondAndNanos (t.seconds + seconds) (t.nanos + nanos)
  else if 0 < seconds ∨
      (0 < nanos ∧
        2 * (nanosPerSecond : Int) ≤ t.nanos + nanos)
  then
    ofSecondAndNanos (t.seconds + seconds)
      (t.nanos - nanosPerSecond + nanos)
  else if seconds < 0 then
    ofSecondAndNanos (t.seconds + 1 + seconds)
      (t.nanos - nanosPerSecond + nanos)
  else
    ⟨t.seconds, (t.nanos + nanos).toNat⟩

/- The sum of an instant and a span. -/
def plus
    (t : Instant)
    (s : Span) : Bounded Instant :=
  (t.plusUnchecked s).checked

end Instant

end EventSeries
