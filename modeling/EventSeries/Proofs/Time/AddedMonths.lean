import EventSeries.Proofs.Calendar.MonthDates
import EventSeries.Time.LocalTime

/-
  Months added to wall times.  Months are counted through all
  years, and each begins when the one before it is over, so
  that a wall time some months later lies at least the
  shortest month behind one that is fewer months later.

  Main declarations:
    * `Date.ofCount`
    * `Date.dayNumber_ofCount_succ`
    * `Date.parts_ofCount`
    * `LocalTime.monthsLater`
    * `LocalTime.monthCount_monthsLater`
    * `LocalTime.MonthInCalendar`
    * `LocalTime.addMonths_eq`
    * `LocalTime.monthsLater_zero`
    * `LocalTime.month_apart_of_lt`
-/

namespace EventSeries

------------------------------------------------------------
-- Months Through All Years
------------------------------------------------------------

/- The year and the month of a count of months from year 0. -/
def yearOfCount
    (count : Int) : Int :=
  count / 12

def monthOfCount
    (count : Int) : Nat :=
  (count % 12).toNat + 1

theorem monthOfCount_between
    (count : Int) :
    1 ≤ monthOfCount count ∧ monthOfCount count ≤ 12 := by
  unfold monthOfCount
  omega

/- Number of days of a month that is given by its count. -/
def lengthOfCount
    (count : Int) : Nat :=
  monthLength (yearOfCount count) (monthOfCount count)

theorem shortestMonth_le_lengthOfCount
    (count : Int) :
    shortestMonth ≤ lengthOfCount count :=
  shortestMonth_le _ _

/- The date of a day of such a month. -/
def Date.ofCount
    (count : Int)
    (day : Nat) : Date :=
  ofYearMonthDay (yearOfCount count) (monthOfCount count) day

theorem Date.dayNumber_ofCount
    (count : Int)
    (day : Nat) :
    (ofCount count day).dayNumber =
      (ofCount count 0).dayNumber + day := by
  simp only [ofCount, ofYearMonthDay]
  omega

/- A day that a month has is read back from its date. -/
theorem Date.parts_ofCount
    {count : Int}
    {day : Nat}
    (hDay : 1 ≤ day ∧ day ≤ lengthOfCount count) :
    ((ofCount count day).year = yearOfCount count ∧
      (ofCount count day).month = monthOfCount count) ∧
      (ofCount count day).day = day :=
  (eq_ofYearMonthDay_iff (monthOfCount_between count) hDay).mp
    rfl

/- A month begins when the one before it is over. -/
theorem Date.dayNumber_ofCount_succ
    (count : Int) :
    (ofCount (count + 1) 0).dayNumber =
      (ofCount count (lengthOfCount count)).dayNumber := by
  by_cases hDecember : monthOfCount count = 12
  · have hYear := daysBeforeMonth_december (yearOfCount count)
    have hNext :
        yearOfCount (count + 1) = yearOfCount count + 1 ∧
          monthOfCount (count + 1) = 1 := by
      simp only [yearOfCount, monthOfCount] at *
      omega
    have hLength : monthLength (yearOfCount count) 12 = 31 := rfl
    have hJanuary :
        daysBeforeMonth (yearOfCount count + 1) 1 = 0 :=
      rfl
    simp only [ofCount, ofYearMonthDay, lengthOfCount, hNext,
      hDecember, hLength, hJanuary, daysBeforeYear_succ]
    omega
  · have hBetween := monthOfCount_between count
    have hNext :
        yearOfCount (count + 1) = yearOfCount count ∧
          monthOfCount (count + 1) = monthOfCount count + 1 := by
      simp only [yearOfCount, monthOfCount] at *
      omega
    simp only [ofCount, ofYearMonthDay, lengthOfCount, hNext,
      daysBeforeMonth_succ hBetween.1]
    omega

/- Later months begin later. -/
theorem Date.dayNumber_ofCount_mono
    {count later : Int}
    (hLe : count ≤ later) :
    (ofCount count 0).dayNumber ≤
      (ofCount later 0).dayNumber := by
  rcases Int.le.dest hLe with ⟨n, rfl⟩
  induction n with
  | zero => simp
  | succ n hSmaller =>
      have hBefore := hSmaller (by omega)
      have hNext := dayNumber_ofCount_succ (count + n)
      rw [dayNumber_ofCount _ (lengthOfCount _)] at hNext
      rw [Nat.cast_succ, ← Int.add_assoc]
      omega

namespace LocalTime

variable {l : LocalTime}

/- A wall time lies in the month that its count gives. -/
theorem year_month_eq
    (l : LocalTime) :
    yearOfCount l.monthCount = l.date.year ∧
      monthOfCount l.monthCount = l.date.month := by
  have hMonth := (Date.month_day_spec l.date).2.1
  simp only [yearOfCount, monthOfCount, monthCount]
  omega

------------------------------------------------------------
-- Wall Times Some Months Later
------------------------------------------------------------

/-
  The same time of day so many months later, on the same day
  of the month, or the last if there is no such day.
-/
def monthsLater
    (l : LocalTime)
    (delta : Int) : LocalTime :=
  let count := l.monthCount + delta
  ⟨.ofCount count (min l.date.day (lengthOfCount count)), l.time⟩

/- The day of a wall time, cut to a month, is one of it. -/
theorem day_between
    (l : LocalTime)
    (count : Int) :
    1 ≤ min l.date.day (lengthOfCount count) ∧
      min l.date.day (lengthOfCount count) ≤
        lengthOfCount count := by
  have hDay := (Date.month_day_spec l.date).2.2
  have hLong := shortestMonth_le_lengthOfCount count
  simp only [shortestMonth] at hLong
  omega

section

variable (l : LocalTime)
variable (delta : Int)

theorem year_month_monthsLater :
    (l.monthsLater delta).date.year =
        yearOfCount (l.monthCount + delta) ∧
      (l.monthsLater delta).date.month =
        monthOfCount (l.monthCount + delta) :=
  (Date.parts_ofCount (l.day_between _)).1

theorem day_monthsLater :
    (l.monthsLater delta).date.day =
      min l.date.day (lengthOfCount (l.monthCount + delta)) :=
  (Date.parts_ofCount (l.day_between _)).2

@[simp] theorem time_monthsLater :
    (l.monthsLater delta).time = l.time := by
  simp only [monthsLater]

@[simp] theorem monthCount_monthsLater :
    (l.monthsLater delta).monthCount = l.monthCount + delta := by
  have hParts := l.year_month_monthsLater delta
  rw [monthCount, hParts.1, hParts.2]
  simp only [yearOfCount, monthOfCount]
  omega

end

/-
  The calendar holds a month whole, and the first day after
  it, by which its length is told.
-/
def MonthInCalendar
    (count : Int) : Prop :=
  (Date.firstYear ≤ yearOfCount count ∧
    yearOfCount count ≤ Date.lastYear) ∧
  (yearOfCount count < Date.lastYear ∨ monthOfCount count < 12)

instance
    (count : Int) :
    Decidable (MonthInCalendar count) := by
  unfold MonthInCalendar
  infer_instance

/- Months that the calendar holds are reached as meant. -/
theorem addMonths_eq
    {delta : Int}
    (hInside : MonthInCalendar (l.monthCount + delta)) :
    l.addMonths delta = .ok (l.monthsLater delta) := by
  simp only [monthsLater]
  unfold addMonths
  generalize hCount : l.monthCount + delta = count
  rw [hCount] at hInside
  have hFits : checkedCount count = .ok count := by
    apply if_pos
    simp only [MonthInCalendar, yearOfCount, Date.firstYear,
      Date.lastYear] at hInside
    simp only [CountFits]
    omega
  have hMonth := monthOfCount_between count
  have hLength :
      daysInMonth (yearOfCount count) (monthOfCount count) =
        .ok (lengthOfCount count) :=
    daysInMonth_eq hInside.1 hMonth hInside.2
  have hDay := l.day_between count
  have hClamped :
      clampedDate? (yearOfCount count) (monthOfCount count)
          l.date.day =
        .ok (some (.ofCount count
          (min l.date.day (lengthOfCount count)))) := by
    simp only [clampedDate?, hLength, bind, Except.bind, pure,
      Except.pure, Date.ofYearMonthDay?, Nat.max_eq_right hDay.1]
    rw [if_pos ⟨hInside.1, hMonth, hDay⟩]
    rfl
  rw [yearOfCount, monthOfCount] at hClamped
  simp only [hFits, hClamped, bind, Except.bind]
  rfl

/- The wall time there is on a date of the calendar. -/
theorem inCalendar_monthsLater
    {delta : Int}
    (hInside : MonthInCalendar (l.monthCount + delta)) :
    (l.monthsLater delta).date.InCalendar :=
  Date.inCalendar_of_isCalendarDay
    ⟨hInside.1, monthOfCount_between _, l.day_between _⟩

theorem monthsLater_zero
    (l : LocalTime) :
    l.monthsLater 0 = l := by
  have hDay := (Date.month_day_spec l.date).2.2
  have hParts := l.year_month_eq
  simp only [monthsLater, Int.add_zero, Date.ofCount,
    lengthOfCount, hParts, Nat.min_eq_left hDay.2,
    Date.ofYearMonthDay_year_month_day]

/- Whole months lie between two different months. -/
theorem month_apart_of_lt
    {delta more : Int}
    (hLess : delta < more) :
    (l.monthsLater delta).date.dayNumber + shortestMonth ≤
      (l.monthsLater more).date.dayNumber := by
  simp only [monthsLater]
  generalize hCount : l.monthCount + delta = count
  generalize hLater : l.monthCount + more = later
  have hOver :=
    Date.dayNumber_ofCount_mono
      (by omega : count + 1 ≤ later)
  have hNext := Date.dayNumber_ofCount_succ count
  have hHere := shortestMonth_le_lengthOfCount count
  have hThere := shortestMonth_le_lengthOfCount later
  rw [Date.dayNumber_ofCount _ (lengthOfCount _)] at hNext
  rw [Date.dayNumber_ofCount count (min _ _),
    Date.dayNumber_ofCount later (min _ _)]
  omega

end LocalTime

end EventSeries
