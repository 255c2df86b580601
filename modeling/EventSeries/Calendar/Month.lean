import EventSeries.Calendar.Date

/-
  This file defines the arithmetic of months on the finite
  calendar: their lengths, the month after a month, dates
  whose day is cut to the month, and the n-th weekday of a
  month.

  Years and counts of months are kept in 32 bits with a sign,
  and arithmetic on them fails when its result does not fit.

  The length of a month is read off the calendar, as the day
  before the first of the next month.  The last month of the
  calendar, and years outside it, have no such day; the
  length is then taken to be 28.

  Key definitions include:
    * `CountFits`
    * `checkedCount`
    * `nextMonth`
    * `dayBeforeMonth`
    * `daysInMonth`
    * `clampedDate?`
    * `nthWeekdayOfMonth`
-/

namespace EventSeries

------------------------------------------------------------
-- Counts
------------------------------------------------------------

/- A number that 32 bits with a sign can hold. -/
def CountFits
    (n : Int) : Prop :=
  -2147483648 ≤ n ∧ n ≤ 2147483647

instance
    (n : Int) :
    Decidable (CountFits n) := by
  unfold CountFits
  infer_instance

/- A year or a count of months, if it can be held. -/
def checkedCount
    (n : Int) : Bounded Int :=
  if CountFits n then .ok n else .error .count

------------------------------------------------------------
-- Months
------------------------------------------------------------

/-
  The month after a given one.  Months are counted from 1,
  and a number past 12 counts as December.
-/
def nextMonth
    (year : Int)
    (month : Nat) : Bounded (Int × Nat) :=
  if 12 ≤ month then do
    return (← checkedCount (year + 1), 1)
  else
    return (year, month + 1)

/- The length of a month that ends with the calendar. -/
def shortestMonth : Nat :=
  28

/- Day of month of the day before a month begins. -/
def dayBeforeMonth
    (year : Int)
    (month : Nat) : Nat :=
  match Date.ofYearMonthDay? year month 1 with
  | none => shortestMonth
  | some first =>
      match first.pred? with
      | none => shortestMonth
      | some last => last.day

/- Number of days in a month of the calendar. -/
def daysInMonth
    (year : Int)
    (month : Nat) : Bounded Nat := do
  let next ← nextMonth year month
  return dayBeforeMonth next.1 next.2

/-
  A date of the given month, its day moved to the nearest
  day that the month has.
-/
def clampedDate?
    (year : Int)
    (month day : Nat) : Bounded (Option Date) := do
  let length ← daysInMonth year month
  return Date.ofYearMonthDay? year month
    (max 1 (min day length))

------------------------------------------------------------
-- Weekdays Of A Month
------------------------------------------------------------

/-
  Day of month of the `nth` of the weekdays that first fall
  on day `firstMatch`, in a month of a given length.
-/
def nthMatch
    (firstMatch length nth : Nat) : Nat :=
  let count := (length - firstMatch) / 7 + 1
  firstMatch + 7 * (min (max nth 1) count - 1)

/-
  Day of month of the `nth` weekday `w`.  A count past the
  last such weekday means the last, and 0 means the first.
  In a month without a first day the answer is 1.
-/
def nthWeekdayOfMonth
    (year : Int)
    (month : Nat)
    (w : Weekday)
    (nth : Nat) : Bounded Nat :=
  match Date.ofYearMonthDay? year month 1 with
  | none => return 1
  | some first => do
      let length ← daysInMonth year month
      return nthMatch (1 + first.weekday.daysUntil w) length nth

end EventSeries
