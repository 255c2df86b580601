/-
  This file defines the days of the proleptic Gregorian
  calendar.  A day is its distance from 1970-01-01, so that
  order and the addition of days are those of the integers;
  year, month and day of month are computed from it.  The
  calendar is finite: it reaches from -262143-01-01 to
  262142-12-31, and arithmetic that leaves it is an outcome
  of its own.

  Key definitions include:
    * `OutOfRange`
    * `Bounded`
    * `Weekday`
    * `isLeapYear`
    * `monthLength`
    * `daysBeforeYear`
    * `daysBeforeMonth`
    * `Date`
    * `Date.ofYearMonthDay`
    * `Date.ofYearMonthDay?`
    * `Date.year`
    * `Date.month`
    * `Date.day`
    * `Date.weekday`
    * `Date.addDays`
-/

------------------------------------------------------------
-- Bounded Arithmetic
------------------------------------------------------------

namespace EventSeries

/-
  How arithmetic can fail: a date or time that the calendar
  does not hold, or a count that does not fit its width.
-/
inductive OutOfRange where
  | calendar
  | count
  deriving DecidableEq, Repr

/- The result of arithmetic that may leave its range. -/
abbrev Bounded :=
  Except OutOfRange

------------------------------------------------------------
-- Weekdays
------------------------------------------------------------

/- The seven days of the week. -/
inductive Weekday where
  | monday
  | tuesday
  | wednesday
  | thursday
  | friday
  | saturday
  | sunday
  deriving DecidableEq, Repr

namespace Weekday

/- Weekdays are counted from Monday, which is 0. -/
def index : Weekday → Nat
  | monday => 0
  | tuesday => 1
  | wednesday => 2
  | thursday => 3
  | friday => 4
  | saturday => 5
  | sunday => 6

/- The weekday with a given index, if there is one. -/
def ofIndex? : Nat → Option Weekday
  | 0 => some monday
  | 1 => some tuesday
  | 2 => some wednesday
  | 3 => some thursday
  | 4 => some friday
  | 5 => some saturday
  | 6 => some sunday
  | _ => none

/- English name of a weekday. -/
def name : Weekday → String
  | monday => "Monday"
  | tuesday => "Tuesday"
  | wednesday => "Wednesday"
  | thursday => "Thursday"
  | friday => "Friday"
  | saturday => "Saturday"
  | sunday => "Sunday"

theorem index_lt
    (w : Weekday) :
    w.index < 7 := by
  cases w <;> decide

@[simp] theorem ofIndex?_index
    (w : Weekday) :
    ofIndex? w.index = some w := by
  cases w <;> rfl

/- Days from weekday `v` forward to the next weekday `w`. -/
def daysUntil
    (v w : Weekday) : Nat :=
  (7 + w.index - v.index) % 7

end Weekday

------------------------------------------------------------
-- The Gregorian Rule
------------------------------------------------------------

/-
  Every fourth year is a leap year, save the centuries that
  400 does not divide.
-/
def isLeapYear
    (year : Int) : Bool :=
  year % 4 == 0 && (year % 100 != 0 || year % 400 == 0)

/- Number of days of a month, counted from 1. -/
def monthLength
    (year : Int) : Nat → Nat
  | 2 => if isLeapYear year then 29 else 28
  | 4 | 6 | 9 | 11 => 30
  | _ => 31

/- Days from 0000-01-01 to the first day of a year. -/
def daysBeforeYear
    (year : Int) : Int :=
  365 * year + (year + 3) / 4 - (year + 99) / 100
    + (year + 399) / 400

/- Days of a year before the first day of a month. -/
def daysBeforeMonth
    (year : Int) : Nat → Nat
  | 0 => 0
  | 1 => 0
  | m + 2 =>
      daysBeforeMonth year (m + 1) + monthLength year (m + 1)

/-
  The month and the day of month of the `k`-th day after the
  first day of month `m`, where at most `later` months of the
  year follow `m`.
-/
def monthAndDay
    (year : Int) : Nat → Nat → Nat → Nat × Nat
  | 0, m, k => (m, k + 1)
  | later + 1, m, k =>
      if k < monthLength year m then
        (m, k + 1)
      else
        monthAndDay year later (m + 1) (k - monthLength year m)

------------------------------------------------------------
-- Dates
------------------------------------------------------------

/- A day, as the number of days after 1970-01-01. -/
structure Date where
  dayNumber : Int
  deriving DecidableEq, Repr

namespace Date

/- Days from 0000-01-01 to 1970-01-01. -/
def epochOffset : Int :=
  719528

/- First and last year of the calendar. -/
def firstYear : Int :=
  -262143

def lastYear : Int :=
  262142

/- First and last day of the calendar. -/
def first : Date :=
  ⟨-96465292⟩

def last : Date :=
  ⟨95026236⟩

instance : LE Date where
  le a b := a.dayNumber ≤ b.dayNumber

instance : LT Date where
  lt a b := a.dayNumber < b.dayNumber

instance
    (a b : Date) :
    Decidable (a ≤ b) :=
  inferInstanceAs (Decidable (a.dayNumber ≤ b.dayNumber))

instance
    (a b : Date) :
    Decidable (a < b) :=
  inferInstanceAs (Decidable (a.dayNumber < b.dayNumber))

/- The calendar holds a day between its first and its last. -/
def InCalendar
    (d : Date) : Prop :=
  first ≤ d ∧ d ≤ last

instance
    (d : Date) :
    Decidable d.InCalendar := by
  unfold InCalendar
  infer_instance

/- The day with a given year, month and day of month. -/
def ofYearMonthDay
    (year : Int)
    (month day : Nat) : Date :=
  ⟨daysBeforeYear year + daysBeforeMonth year month
    + day - 1 - epochOffset⟩

/- A year, month and day of month that name a day. -/
def IsCalendarDay
    (year : Int)
    (month day : Nat) : Prop :=
  (firstYear ≤ year ∧ year ≤ lastYear) ∧
    (1 ≤ month ∧ month ≤ 12) ∧
      (1 ≤ day ∧ day ≤ monthLength year month)

instance
    (year : Int)
    (month day : Nat) :
    Decidable (IsCalendarDay year month day) := by
  unfold IsCalendarDay
  infer_instance

/- As `ofYearMonthDay`, for what names a day of the calendar. -/
def ofYearMonthDay?
    (year : Int)
    (month day : Nat) : Option Date :=
  if IsCalendarDay year month day then
    some (ofYearMonthDay year month day)
  else
    none

/-
  The year is at most one off from the share that the day
  has in the 400 years of 146097 days.
-/
def year
    (d : Date) : Int :=
  let days := d.dayNumber + epochOffset
  let guess := 400 * days / 146097
  if days < daysBeforeYear guess then
    guess - 1
  else if daysBeforeYear (guess + 1) ≤ days then
    guess + 1
  else
    guess

/- Days since the first of January. -/
def dayOfYear
    (d : Date) : Nat :=
  (d.dayNumber + epochOffset - daysBeforeYear d.year).toNat

/- Month of the year, from 1. -/
def month
    (d : Date) : Nat :=
  (monthAndDay d.year 11 1 d.dayOfYear).1

/- Day of the month, from 1. -/
def day
    (d : Date) : Nat :=
  (monthAndDay d.year 11 1 d.dayOfYear).2

/- 1970-01-01 was a Thursday. -/
def weekday
    (d : Date) : Weekday :=
  (Weekday.ofIndex? ((d.dayNumber + 3) % 7).toNat).getD
    .monday

/- The day before, unless the calendar begins here. -/
def pred?
    (d : Date) : Option Date :=
  if first < d then some ⟨d.dayNumber - 1⟩ else none

/- A date, if it is one of the calendar. -/
def checked
    (d : Date) : Bounded Date :=
  if d.InCalendar then .ok d else .error .calendar

/- The day that lies `days` after `d`. -/
def addDays
    (d : Date)
    (days : Int) : Bounded Date :=
  checked ⟨d.dayNumber + days⟩

theorem first_eq :
    first = ofYearMonthDay firstYear 1 1 := by
  decide

theorem last_eq :
    last = ofYearMonthDay lastYear 12 31 := by
  decide

end Date

end EventSeries
