import EventSeries.Proofs.Time.AddedMonths

/-
  Sums of months.  Months added to a wall time lead to the
  month that their number gives, at the same time of day, and
  only the day gives way to a shorter month.  So months added
  in two steps lead to the month of their sum; the day is cut
  once more on the way, which shows where the month between
  is too short for it.

  Main declarations:
    * `LocalTime.IsMonthsLater`
    * `LocalTime.isMonthsLater_iff`
    * `LocalTime.day_monthsLater_twice`
    * `LocalTime.monthsLater_twice_eq_iff`
    * `LocalTime.addMonths_twice`
-/

namespace EventSeries

namespace LocalTime

variable {l other : LocalTime}

/- Months are numbered from 1, and counted from 0. -/
theorem monthNumber_eq
    (l : LocalTime) :
    l.date.monthNumber = l.monthCount + 1 := by
  have hMonth := (Date.month_day_spec l.date).2.1
  simp only [Date.monthNumber, monthCount]
  omega

theorem date_eq_ofCount
    (l : LocalTime) :
    l.date = .ofCount l.monthCount l.date.day := by
  rw [Date.ofCount, l.year_month_eq.1, l.year_month_eq.2,
    Date.ofYearMonthDay_year_month_day]

/- Month, day and time of day make a wall time. -/
theorem eq_of_parts
    (hMonth : l.monthCount = other.monthCount)
    (hDay : l.date.day = other.date.day)
    (hTime : l.time = other.time) :
    l = other := by
  have hDate : l.date = other.date := by
    rw [l.date_eq_ofCount, hMonth, hDay, ← other.date_eq_ofCount]
  cases l
  cases other
  cases hDate
  cases hTime
  rfl

------------------------------------------------------------
-- The Wall Time Some Months Later
------------------------------------------------------------

/-
  The wall time so many months after another one, told by
  what a reader of a calendar sees.
-/
structure IsMonthsLater
    (l : LocalTime)
    (delta : Int)
    (later : LocalTime) : Prop where
  month : later.date.monthNumber = l.date.monthNumber + delta
  day :
    later.date.day =
      min l.date.day (monthLength later.date.year later.date.month)
  time : later.time = l.time

section

variable (l : LocalTime)
variable (delta : Int)

/- The month it lies in has the length that its count gives. -/
theorem monthLength_monthsLater :
    monthLength (l.monthsLater delta).date.year
        (l.monthsLater delta).date.month =
      lengthOfCount (l.monthCount + delta) := by
  rw [lengthOfCount, (l.year_month_monthsLater delta).1,
    (l.year_month_monthsLater delta).2]

/- There is always one such wall time, and no other. -/
theorem isMonthsLater_iff :
    l.IsMonthsLater delta other ↔
      other = l.monthsLater delta := by
  constructor
  · intro hLater
    have hCount : other.monthCount = l.monthCount + delta := by
      have hMonth := hLater.month
      rw [monthNumber_eq, monthNumber_eq] at hMonth
      omega
    apply eq_of_parts
    · rw [hCount, monthCount_monthsLater]
    · rw [hLater.day, day_monthsLater, lengthOfCount, ← hCount,
        other.year_month_eq.1, other.year_month_eq.2]
    · exact hLater.time
  · rintro rfl
    refine ⟨?_, ?_, l.time_monthsLater delta⟩
    · rw [monthNumber_eq, monthNumber_eq, monthCount_monthsLater]
      omega
    · rw [monthLength_monthsLater, day_monthsLater]

end

------------------------------------------------------------
-- Months Added Twice
------------------------------------------------------------

section

variable (l : LocalTime)
variable (a b : Int)

/- On the way the day is cut to the month between as well. -/
theorem day_monthsLater_twice :
    ((l.monthsLater a).monthsLater b).date.day =
      min (l.monthsLater (a + b)).date.day
        (lengthOfCount (l.monthCount + a)) := by
  simp only [day_monthsLater, monthCount_monthsLater,
    Int.add_assoc]
  omega

/- The day is kept if the month between is long enough. -/
theorem monthsLater_twice_eq_iff :
    (l.monthsLater a).monthsLater b = l.monthsLater (a + b) ↔
      (l.monthsLater (a + b)).date.day ≤
        lengthOfCount (l.monthCount + a) := by
  have hDay := l.day_monthsLater_twice a b
  constructor
  · intro hSame
    rw [hSame] at hDay
    omega
  · intro hLong
    apply eq_of_parts
    · simp only [monthCount_monthsLater, Int.add_assoc]
    · rw [hDay, Nat.min_eq_left hLong]
    · simp only [time_monthsLater]

end

------------------------------------------------------------
-- Months In The Calendar
------------------------------------------------------------

/-
  The counts on the way to another month are in range: the
  months of the years before, all months, those that are
  added, and the sum.
-/
def CountsFit
    (l : LocalTime)
    (delta : Int) : Prop :=
  (CountFits (l.date.year * 12) ∧ CountFits l.monthCount) ∧
    CountFits delta ∧ CountFits (l.monthCount + delta)

variable {a b delta : Int}

theorem countsFit_of_monthInCalendar
    (hDate : l.date.InCalendar)
    (hTarget : MonthInCalendar (l.monthCount + delta)) :
    l.CountsFit delta := by
  have hHere := Date.year_in_calendar hDate
  have hMonth := (Date.month_day_spec l.date).2.1
  have hThere := hTarget.1
  simp only [CountsFit, CountFits, monthCount, yearOfCount,
    Date.firstYear, Date.lastYear] at *
  omega

/-
  Months that are added to a wall time of the calendar lead,
  without any overflow, to the wall time so many months later,
  if its month is in the calendar and not the last one there.
  If more months are added to that one, the month is that of
  the sum, and the day is the same or an earlier one.  It is
  the same exactly if the month between has the day that the
  sum leads to; so it is for every day up to the 28th, and
  for a day that the month between has.
-/
theorem addMonths_twice
    (hDate : l.date.InCalendar)
    (hTarget : MonthInCalendar (l.monthCount + a)) :
    l.CountsFit a ∧
      ∃ first, l.addMonths a = .ok first ∧
        first.date.InCalendar ∧
        l.IsMonthsLater a first ∧
        ∀ b, MonthInCalendar (l.monthCount + (a + b)) →
          ∃ twice once, first.addMonths b = .ok twice ∧
            l.addMonths (a + b) = .ok once ∧
            (twice.date.year = once.date.year ∧
              twice.date.month = once.date.month) ∧
            twice.date.day ≤ once.date.day ∧
            (twice = once ↔
              once.date.day ≤
                monthLength first.date.year first.date.month) ∧
            (l.date.day ≤ 28 ∨
                l.date.day ≤
                  monthLength first.date.year first.date.month →
              twice = once) := by
  refine ⟨countsFit_of_monthInCalendar hDate hTarget,
    l.monthsLater a, addMonths_eq hTarget,
    inCalendar_monthsLater hTarget,
    (isMonthsLater_iff l a).mpr rfl, ?_⟩
  intro b hSum
  have hNext :
      MonthInCalendar ((l.monthsLater a).monthCount + b) := by
    rwa [monthCount_monthsLater, Int.add_assoc]
  have hSame := l.monthsLater_twice_eq_iff a b
  have hTwice := l.day_monthsLater_twice a b
  have hOnce := l.day_monthsLater (a + b)
  have hShort := shortestMonth_le_lengthOfCount (l.monthCount + a)
  refine ⟨(l.monthsLater a).monthsLater b, l.monthsLater (a + b),
    addMonths_eq hNext, addMonths_eq hSum, ?_, ?_, ?_, ?_⟩
  · simp only [year_month_monthsLater, monthCount_monthsLater,
      Int.add_assoc, and_self]
  · omega
  · rw [monthLength_monthsLater, hSame]
  · rw [monthLength_monthsLater, hSame, hOnce]
    simp only [shortestMonth] at hShort
    omega

/-
  January 31, 2024, and two months: one by one, by way of
  February, and both at once.
-/
theorem addMonths_twice_over_february :
    let time : ClockTime := ⟨72000, 0, by decide⟩
    let january : LocalTime := ⟨.ofYearMonthDay 2024 1 31, time⟩
    january.date.InCalendar ∧
      MonthInCalendar (january.monthCount + 1) ∧
      MonthInCalendar (january.monthCount + (1 + 1)) ∧
      ∃ february twice once,
        january.addMonths 1 = .ok february ∧
        january.IsMonthsLater 1 february ∧
        february.addMonths 1 = .ok twice ∧
        january.addMonths (1 + 1) = .ok once ∧
        twice.date.day ≤ once.date.day := by
  intro time january
  have hDate : january.date.InCalendar := by decide
  have hTarget : MonthInCalendar (january.monthCount + 1) := by
    decide
  have hSum :
      MonthInCalendar (january.monthCount + (1 + 1)) := by
    decide
  rcases addMonths_twice hDate hTarget with
    ⟨_, february, hFebruary, _, hLater, hMore⟩
  rcases hMore 1 hSum with
    ⟨twice, once, hTwice, hOnce, _, hEarlier, _⟩
  exact ⟨hDate, hTarget, hSum, february, twice, once, hFebruary,
    hLater, hTwice, hOnce, hEarlier⟩

/-
  The last month of the calendar is taken for a short one: no
  day after it tells its length.
-/
example :
    let time : ClockTime := ⟨72000, 0, by decide⟩
    addMonths ⟨.ofYearMonthDay 262142 1 31, time⟩ 11 =
      .ok ⟨.ofYearMonthDay 262142 12 28, time⟩ := by
  decide +kernel

end LocalTime

end EventSeries
