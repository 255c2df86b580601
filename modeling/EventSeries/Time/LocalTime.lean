import EventSeries.Calendar.Month
import EventSeries.Time.Instant

/-
  This file defines wall times: a date and a time of day, not
  yet tied to a zone.  A wall time and an instant are turned
  into each other by reading the wall time in universal time;
  zones build on that.  The file also adds months to wall
  times.

  Key definitions include:
    * `ClockTime`
    * `LocalTime`
    * `LocalTime.inUtc`
    * `Instant.utcReading`
    * `LocalTime.addMonths`
-/

namespace EventSeries

------------------------------------------------------------
-- Times Of Day
------------------------------------------------------------

/- A second of a day, and nanoseconds into it. -/
structure ClockTime where
  second : Nat
  nanos : Nat
  second_lt : second < secondsPerDay
  deriving DecidableEq, Repr

namespace ClockTime

/- The time of day at a second that may lie on another day. -/
def ofSecond
    (second : Int)
    (nanos : Nat) : ClockTime where
  second := (second % secondsPerDay).toNat
  nanos := nanos
  second_lt := by
    have h : (0 : Int) < secondsPerDay := by decide
    have h₁ := Int.emod_nonneg second (Int.ne_of_gt h)
    have h₂ := Int.emod_lt_of_pos second h
    omega

/-
  The time at an hour, minute and second.  Second 60 is the
  leap second that makes second 59 a long one.
-/
def ofParts?
    (hour minute second nanos : Nat) : Option ClockTime :=
  if hour < 24 ∧ minute < 60 ∧ second ≤ 60 then
    if second = 60 then
      some (ofSecond (hour * 3600 + minute * 60 + 59)
        (nanosPerSecond + nanos))
    else
      some (ofSecond (hour * 3600 + minute * 60 + second)
        nanos)
  else
    none

/- Hour of the day. -/
def hour
    (c : ClockTime) : Nat :=
  c.second / 3600

/- Minute of the hour. -/
def minute
    (c : ClockTime) : Nat :=
  c.second / 60 % 60

/- Second of the minute, leap seconds aside. -/
def secondOfMinute
    (c : ClockTime) : Nat :=
  c.second % 60

end ClockTime

------------------------------------------------------------
-- Wall Times
------------------------------------------------------------

/- A date and a time of day. -/
structure LocalTime where
  date : Date
  time : ClockTime
  deriving DecidableEq, Repr

/- The wall time that clocks of universal time show. -/
def Instant.utcReading
    (t : Instant) : LocalTime where
  date := ⟨t.seconds / secondsPerDay⟩
  time := .ofSecond t.seconds t.nanos

namespace LocalTime

/- The instant at which clocks of universal time show `l`. -/
def inUtc
    (l : LocalTime) : Instant where
  seconds := l.date.dayNumber * secondsPerDay + l.time.second
  nanos := l.time.nanos

/- The reading of an instant in universal time is that time. -/
theorem inUtc_utcReading
    (t : Instant) :
    t.utcReading.inUtc = t := by
  cases t with
  | mk seconds nanos =>
      simp only [Instant.utcReading, inUtc,
        ClockTime.ofSecond, secondsPerDay, Instant.mk.injEq,
        and_true]
      omega

/- Each wall time is read back from its instant. -/
theorem utcReading_inUtc
    (l : LocalTime) :
    l.inUtc.utcReading = l := by
  obtain ⟨⟨day⟩, ⟨second, nanos, hSecond⟩⟩ := l
  simp only [secondsPerDay] at hSecond
  have hDay :
      (day * (86400 : Nat) + second) / (86400 : Nat) = day := by
    omega
  have hSecondOfDay :
      ((day * (86400 : Nat) + second) % (86400 : Nat)).toNat
        = second := by
    omega
  simp only [Instant.utcReading, inUtc, ClockTime.ofSecond,
    secondsPerDay, hDay, hSecondOfDay]

------------------------------------------------------------
-- Adding Months
------------------------------------------------------------

/- Months since January of year 0. -/
def monthCount
    (l : LocalTime) : Int :=
  l.date.year * 12 + (l.date.month - 1 : Nat)

/-
  The same time of day `delta` months later or earlier, on
  the same day of the month or the last one there is.  A
  month outside the calendar leaves the wall time as it is.
-/
def addMonths
    (l : LocalTime)
    (delta : Int) : Bounded LocalTime := do
  let count ← checkedCount (l.monthCount + delta)
  match ← clampedDate? (count / 12) ((count % 12).toNat + 1)
      l.date.day with
  | some date => return ⟨date, l.time⟩
  | none => return l

end LocalTime

end EventSeries
