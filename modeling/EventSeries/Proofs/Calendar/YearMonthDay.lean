import EventSeries.Calendar.Month

/-
  The year, the month and the day of month of a date name
  that date.  The dates of the next month are later ones, and
  a month of the calendar has one of them for every day
  number that is asked for.

  Main declarations:
    * `Date.daysBeforeYear_year`
    * `monthAndDay_spec`
    * `Date.month_day_spec`
    * `Date.month_day_ofYearMonthDay`
    * `Date.lt_of_nextMonth`
    * `Date.inCalendar_of_isCalendarDay`
    * `Date.ofYearMonthDay?_year_month_day`
    * `dayBeforeMonth_eq`
    * `exists_clampedDate?`
-/

namespace EventSeries

------------------------------------------------------------
-- Years
------------------------------------------------------------

/- Number of days of a year. -/
def yearLength
    (year : Int) : Nat :=
  if isLeapYear year then 366 else 365

theorem daysBeforeYear_succ
    (year : Int) :
    daysBeforeYear (year + 1) =
      daysBeforeYear year + yearLength year := by
  unfold daysBeforeYear yearLength isLeapYear
  by_cases hFour : year % 4 = 0
  · by_cases hCentury : year % 100 = 0
    · by_cases hGregorian : year % 400 = 0
      · simp [hFour, hCentury, hGregorian]
        omega
      · simp [hFour, hCentury, hGregorian]
        omega
    · simp [hFour, hCentury]
      omega
  · simp [hFour]
    omega

theorem daysBeforeYear_mono
    {year later : Int}
    (hLe : year ≤ later) :
    daysBeforeYear year ≤ daysBeforeYear later := by
  unfold daysBeforeYear
  omega

/- A year begins within two days of its share of 400 years. -/
theorem daysBeforeYear_near
    (year : Int) :
    146097 * year ≤ 400 * daysBeforeYear year + 400 ∧
      400 * daysBeforeYear year ≤ 146097 * year + 700 := by
  unfold daysBeforeYear
  omega

/-
  A date lies in its year.  The guess from the share of the
  date in 400 years is at most one year off.
-/
theorem Date.daysBeforeYear_year
    (d : Date) :
    daysBeforeYear d.year ≤ d.dayNumber + epochOffset ∧
      d.dayNumber + epochOffset <
        daysBeforeYear (d.year + 1) := by
  unfold year
  simp only
  generalize d.dayNumber + epochOffset = days
  have hBefore :=
    daysBeforeYear_near (400 * days / 146097 - 1)
  have hAfter :=
    daysBeforeYear_near (400 * days / 146097 + 1 + 1)
  split
  · rw [Int.sub_add_cancel]
    omega
  · split
    · omega
    · omega

------------------------------------------------------------
-- Months
------------------------------------------------------------

theorem daysBeforeMonth_succ
    {year : Int}
    {m : Nat}
    (hMonth : 1 ≤ m) :
    daysBeforeMonth year (m + 1) =
      daysBeforeMonth year m + monthLength year m := by
  rcases Nat.exists_eq_add_of_le' hMonth with ⟨n, rfl⟩
  rfl

theorem daysBeforeMonth_mono
    (year : Int)
    {m later : Nat}
    (hLe : m ≤ later) :
    daysBeforeMonth year m ≤ daysBeforeMonth year later := by
  induction hLe with
  | refl => exact Nat.le_refl _
  | @step n _ ih =>
      apply Nat.le_trans ih
      cases n with
      | zero => exact Nat.le_refl _
      | succ n => exact Nat.le_add_right _ _

/-
  Going over at most `later` months from month `m` on, the day
  that lies `k` days after the first of them is found in its
  month.  The length of the last month is not looked at.
-/
theorem monthAndDay_spec
    (year : Int)
    (later m k : Nat)
    (hMonth : 1 ≤ m) :
    let found := monthAndDay year later m k
    daysBeforeMonth year found.1 + found.2 =
        daysBeforeMonth year m + k + 1 ∧
      (m ≤ found.1 ∧ found.1 ≤ m + later) ∧
      1 ≤ found.2 ∧
      (found.1 < m + later →
        found.2 ≤ monthLength year found.1) := by
  induction later generalizing m k with
  | zero =>
      simp only [monthAndDay]
      omega
  | succ later ih =>
      simp only [monthAndDay]
      by_cases hHere : k < monthLength year m
      · rw [if_pos hHere]
        simp only
        omega
      · rw [if_neg hHere]
        have hRest :=
          ih (m + 1) (k - monthLength year m) (by omega)
        rw [daysBeforeMonth_succ hMonth] at hRest
        omega

/- December has what the other months leave of the year. -/
theorem daysBeforeMonth_december
    (year : Int) :
    daysBeforeMonth year 12 + 31 = yearLength year := by
  simp only [daysBeforeMonth, monthLength, yearLength]
  cases isLeapYear year with
  | true => rfl
  | false => rfl

/- The days of a month lie in the year. -/
theorem daysBeforeMonth_add_monthLength_le
    {year : Int}
    {m : Nat}
    (hMonth : 1 ≤ m ∧ m ≤ 12) :
    daysBeforeMonth year m + monthLength year m ≤
      yearLength year := by
  rcases hMonth with ⟨hJanuary, hDecember⟩
  rcases Nat.exists_eq_add_of_le hDecember with ⟨later, hLater⟩
  induction later generalizing m with
  | zero =>
      rw [Nat.add_zero] at hLater
      subst hLater
      exact Nat.le_of_eq (daysBeforeMonth_december year)
  | succ later ih =>
      have hRest :
          daysBeforeMonth year (m + 1)
              + monthLength year (m + 1) ≤
            yearLength year :=
        ih (by omega) (by omega) (by omega)
      rw [daysBeforeMonth_succ hJanuary] at hRest
      omega

theorem nextMonth_cases
    {year : Int}
    {month : Nat}
    {next : Int × Nat}
    (hNext : nextMonth year month = .ok next) :
    (12 ≤ month ∧ next = (year + 1, 1)) ∨
      (month < 12 ∧ next = (year, month + 1)) := by
  unfold nextMonth at hNext
  by_cases hLast : 12 ≤ month
  · rw [if_pos hLast] at hNext
    unfold checkedCount at hNext
    split at hNext
    · cases hNext
      exact Or.inl ⟨hLast, rfl⟩
    · cases hNext
  · rw [if_neg hLast] at hNext
    cases hNext
    exact Or.inr ⟨Nat.lt_of_not_le hLast, rfl⟩

/- A year of the calendar is followed by one that fits. -/
theorem nextMonth_ok
    {year : Int}
    (hYear : Date.firstYear ≤ year ∧ year ≤ Date.lastYear)
    (month : Nat) :
    ∃ next, nextMonth year month = .ok next := by
  have hFits : CountFits (year + 1) := by
    simp only [Date.firstYear, Date.lastYear] at hYear
    simp only [CountFits]
    omega
  unfold nextMonth
  by_cases hLast : 12 ≤ month
  · rw [if_pos hLast, checkedCount, if_pos hFits]
    exact ⟨_, rfl⟩
  · rw [if_neg hLast]
    exact ⟨_, rfl⟩

------------------------------------------------------------
-- Dates
------------------------------------------------------------

namespace Date

/- Year, month and day of month count the days to a date. -/
theorem month_day_spec
    (d : Date) :
    (daysBeforeYear d.year + daysBeforeMonth d.year d.month
        + d.day : Int) =
        d.dayNumber + epochOffset + 1 ∧
      (1 ≤ d.month ∧ d.month ≤ 12) ∧
      (1 ≤ d.day ∧ d.day ≤ monthLength d.year d.month) := by
  rcases daysBeforeYear_year d with ⟨hBegun, hNotOver⟩
  rw [daysBeforeYear_succ] at hNotOver
  have hDays : (d.dayOfYear : Int) =
      d.dayNumber + epochOffset - daysBeforeYear d.year := by
    unfold dayOfYear
    omega
  rcases monthAndDay_spec d.year 11 1 d.dayOfYear
      (Nat.le_refl 1) with
    ⟨hSum, hMonth, hDay, hLength⟩
  have hJanuary : daysBeforeMonth d.year 1 = 0 := rfl
  change daysBeforeMonth d.year d.month + d.day =
    daysBeforeMonth d.year 1 + d.dayOfYear + 1 at hSum
  change 1 ≤ d.month ∧ d.month ≤ 12 at hMonth
  change 1 ≤ d.day at hDay
  change d.month < 12 → d.day ≤ monthLength d.year d.month
    at hLength
  refine ⟨by omega, hMonth, hDay, ?_⟩
  by_cases hDecember : d.month = 12
  · have hYear := daysBeforeMonth_december d.year
    rw [hDecember] at hSum ⊢
    change d.day ≤ 31
    omega
  · exact hLength (by omega)

/- A year holds the dates from its first day to its last. -/
theorem year_eq_of_daysBeforeYear
    {d : Date}
    {year : Int}
    (hBegun : daysBeforeYear year ≤ d.dayNumber + epochOffset)
    (hNotOver :
      d.dayNumber + epochOffset < daysBeforeYear (year + 1)) :
    d.year = year := by
  rcases daysBeforeYear_year d with ⟨hBegins, hEnds⟩
  rcases Int.lt_trichotomy d.year year with
    hEarlier | hSame | hLater
  · have hLe : daysBeforeYear (d.year + 1) ≤ daysBeforeYear year :=
      daysBeforeYear_mono hEarlier
    omega
  · exact hSame
  · have hLe : daysBeforeYear (year + 1) ≤ daysBeforeYear d.year :=
      daysBeforeYear_mono hLater
    omega

/- A day that a month has lies in the year. -/
theorem year_ofYearMonthDay
    {year : Int}
    {month day : Nat}
    (hMonth : 1 ≤ month ∧ month ≤ 12)
    (hDay : 1 ≤ day ∧ day ≤ monthLength year month) :
    (ofYearMonthDay year month day).year = year := by
  have hInYear :
      daysBeforeMonth year month + monthLength year month ≤
        yearLength year :=
    daysBeforeMonth_add_monthLength_le hMonth
  apply year_eq_of_daysBeforeYear
  · simp only [ofYearMonthDay]
    omega
  · rw [daysBeforeYear_succ]
    simp only [ofYearMonthDay]
    omega

/- A day that a month has is read back from its date. -/
theorem month_day_ofYearMonthDay
    {year : Int}
    {month day : Nat}
    (hMonth : 1 ≤ month ∧ month ≤ 12)
    (hDay : 1 ≤ day ∧ day ≤ monthLength year month) :
    (ofYearMonthDay year month day).month = month ∧
      (ofYearMonthDay year month day).day = day := by
  have hYear := year_ofYearMonthDay hMonth hDay
  have hNumber :
      (ofYearMonthDay year month day).dayNumber + epochOffset =
        daysBeforeYear year + daysBeforeMonth year month
          + day - 1 := by
    simp only [ofYearMonthDay]
    omega
  generalize ofYearMonthDay year month day = d
    at hYear hNumber ⊢
  rcases month_day_spec d with ⟨hSum, hMonths, hDays⟩
  rw [hYear] at hSum hDays
  have hSame : d.month = month := by
    rcases Nat.lt_trichotomy d.month month with
      hEarlier | hSame | hLater
    · have hLe :=
        daysBeforeMonth_mono year (Nat.succ_le_of_lt hEarlier)
      rw [Nat.succ_eq_add_one,
        daysBeforeMonth_succ hMonths.1] at hLe
      omega
    · exact hSame
    · have hLe :=
        daysBeforeMonth_mono year (Nat.succ_le_of_lt hLater)
      rw [Nat.succ_eq_add_one,
        daysBeforeMonth_succ hMonth.1] at hLe
      omega
  rw [hSame] at hSum
  exact ⟨hSame, by omega⟩

theorem lt_def
    {d other : Date} :
    d < other ↔ d.dayNumber < other.dayNumber :=
  Iff.rfl

/- Any day of the next month is a later date. -/
theorem lt_of_nextMonth
    {d : Date}
    {next : Int × Nat}
    {day : Nat}
    (hNext : nextMonth d.year d.month = .ok next)
    (hDay : 1 ≤ day) :
    d < ofYearMonthDay next.1 next.2 day := by
  rcases month_day_spec d with
    ⟨hSum, ⟨hJanuary, hDecember⟩, _, hLength⟩
  rw [lt_def, ofYearMonthDay]
  rcases nextMonth_cases hNext with ⟨hLast, rfl⟩ | ⟨_, rfl⟩
  · have hTwelve : d.month = 12 := by omega
    have hYear := daysBeforeMonth_december d.year
    rw [hTwelve] at hSum hLength
    have hShort : d.day ≤ 31 := hLength
    simp only [daysBeforeYear_succ, daysBeforeMonth]
    omega
  · simp only [daysBeforeMonth_succ hJanuary]
    omega

/- What names a day of the calendar is one of its dates. -/
theorem inCalendar_of_isCalendarDay
    {year : Int}
    {month day : Nat}
    (hNames : IsCalendarDay year month day) :
    (ofYearMonthDay year month day).InCalendar := by
  rcases hNames with
    ⟨⟨hFirst, hLast⟩, hMonth, hDay, hLength⟩
  have hBegins := daysBeforeYear_mono hFirst
  have hEnds :=
    daysBeforeYear_mono (Int.add_le_add_right hLast 1)
  rw [daysBeforeYear_succ year] at hEnds
  have hInYear :
      daysBeforeMonth year month + monthLength year month ≤
        yearLength year :=
    daysBeforeMonth_add_monthLength_le hMonth
  have hFirstDay : daysBeforeYear firstYear = -95745764 := by
    decide
  have hLastDay : daysBeforeYear (lastYear + 1) = 95745765 := by
    decide
  constructor
  · change first.dayNumber ≤ _
    simp only [first, ofYearMonthDay, epochOffset]
    omega
  · change _ ≤ last.dayNumber
    simp only [last, ofYearMonthDay, epochOffset]
    omega

/- Dates of some years lie between the days of these years. -/
theorem dayNumber_of_years
    {d : Date}
    {early late : Int}
    (hEarly : early ≤ d.year)
    (hLate : d.year ≤ late) :
    daysBeforeYear early ≤ d.dayNumber + epochOffset ∧
      d.dayNumber + epochOffset < daysBeforeYear (late + 1) := by
  have hBegins : daysBeforeYear early ≤ daysBeforeYear d.year :=
    daysBeforeYear_mono hEarly
  have hEnds :
      daysBeforeYear (d.year + 1) ≤ daysBeforeYear (late + 1) :=
    daysBeforeYear_mono (Int.add_le_add_right hLate 1)
  have hYear := daysBeforeYear_year d
  omega

/- The dates of the calendar lie in its years. -/
theorem year_in_calendar
    {d : Date}
    (hInside : d.InCalendar) :
    firstYear ≤ d.year ∧ d.year ≤ lastYear := by
  rcases daysBeforeYear_year d with ⟨hBegins, hEnds⟩
  have hFirstDay : daysBeforeYear firstYear = -95745764 := by
    decide
  have hLastDay : daysBeforeYear (lastYear + 1) = 95745765 := by
    decide
  have hFirst : first.dayNumber ≤ d.dayNumber := hInside.1
  have hLast : d.dayNumber ≤ last.dayNumber := hInside.2
  simp only [first, last, epochOffset]
    at hFirst hLast hBegins hEnds
  constructor
  · apply Int.not_lt.mp
    intro hEarly
    have hLe : daysBeforeYear (d.year + 1) ≤
        daysBeforeYear firstYear :=
      daysBeforeYear_mono hEarly
    omega
  · apply Int.not_lt.mp
    intro hLate
    have hLe : daysBeforeYear (lastYear + 1) ≤
        daysBeforeYear d.year :=
      daysBeforeYear_mono hLate
    omega

/- A date is the one that its parts name. -/
theorem ofYearMonthDay_year_month_day
    (d : Date) :
    ofYearMonthDay d.year d.month d.day = d := by
  have hSum := (month_day_spec d).1
  cases d with
  | mk dayNumber =>
      simp only [ofYearMonthDay, mk.injEq] at hSum ⊢
      omega

/- The dates of its years are in the calendar. -/
theorem inCalendar_of_year
    {d : Date}
    (hYear : firstYear ≤ d.year ∧ d.year ≤ lastYear) :
    d.InCalendar := by
  rw [← ofYearMonthDay_year_month_day d]
  exact inCalendar_of_isCalendarDay
    ⟨hYear, (month_day_spec d).2⟩

theorem ofYearMonthDay?_year_month_day
    {d : Date}
    (hInside : d.InCalendar) :
    ofYearMonthDay? d.year d.month d.day = some d := by
  rcases month_day_spec d with ⟨_, hMonth, hDay⟩
  rw [ofYearMonthDay?,
    if_pos ⟨year_in_calendar hInside, hMonth, hDay⟩,
    ofYearMonthDay_year_month_day]

end Date

------------------------------------------------------------
-- Lengths Of Months
------------------------------------------------------------

theorem shortestMonth_le
    (year : Int)
    (month : Nat) :
    shortestMonth ≤ monthLength year month := by
  unfold shortestMonth monthLength
  split
  · split <;> decide
  all_goals decide

theorem monthLength_le
    (year : Int)
    (month : Nat) :
    monthLength year month ≤ 31 := by
  unfold monthLength
  split
  · split <;> decide
  all_goals decide

/- The day before a month is the last of the one before. -/
theorem Date.eq_last_of_nextMonth
    {year : Int}
    {month : Nat}
    {next : Int × Nat}
    (hMonth : 1 ≤ month ∧ month ≤ 12)
    (hNext : nextMonth year month = .ok next) :
    (ofYearMonthDay next.1 next.2 1).dayNumber - 1 =
      (ofYearMonthDay year month
        (monthLength year month)).dayNumber := by
  rcases nextMonth_cases hNext with ⟨hLast, rfl⟩ | ⟨_, rfl⟩
  · have hTwelve : month = 12 := by omega
    have hYear := daysBeforeMonth_december year
    have hLength : monthLength year 12 = 31 := rfl
    simp only [ofYearMonthDay, daysBeforeYear_succ, hTwelve,
      hLength, daysBeforeMonth] at hYear ⊢
    omega
  · simp only [ofYearMonthDay, daysBeforeMonth_succ hMonth.1]
    omega

/-
  The length that is read off the calendar is that of the
  month, if the next month begins in the calendar and not
  with it.
-/
theorem dayBeforeMonth_eq
    {year : Int}
    {month : Nat}
    {next : Int × Nat}
    (hMonth : 1 ≤ month ∧ month ≤ 12)
    (hNext : nextMonth year month = .ok next) :
    dayBeforeMonth next.1 next.2 =
      if Date.IsCalendarDay next.1 next.2 1 ∧
          Date.first < Date.ofYearMonthDay next.1 next.2 1 then
        monthLength year month
      else
        shortestMonth := by
  have hOne : 1 ≤ monthLength year month :=
    Nat.le_trans (by decide) (shortestMonth_le year month)
  have hLast :=
    (Date.month_day_ofYearMonthDay hMonth
      ⟨hOne, Nat.le_refl _⟩).2
  unfold dayBeforeMonth Date.ofYearMonthDay?
  by_cases hNames : Date.IsCalendarDay next.1 next.2 1
  · by_cases hFirst :
        Date.first < Date.ofYearMonthDay next.1 next.2 1
    · simp only [hNames, hFirst, Date.pred?, if_true, and_self,
        Date.eq_last_of_nextMonth hMonth hNext]
      exact hLast
    · simp [hNames, hFirst, Date.pred?]
  · simp [hNames]

/- That length is never too long. -/
theorem dayBeforeMonth_le
    {year : Int}
    {month : Nat}
    {next : Int × Nat}
    (hMonth : 1 ≤ month ∧ month ≤ 12)
    (hNext : nextMonth year month = .ok next) :
    dayBeforeMonth next.1 next.2 ≤ monthLength year month := by
  rw [dayBeforeMonth_eq hMonth hNext]
  split
  · exact Nat.le_refl _
  · exact shortestMonth_le year month

/- A month of the calendar has a day for every day number. -/
theorem exists_clampedDate?
    {year : Int}
    {month : Nat}
    (hYear : Date.firstYear ≤ year ∧ year ≤ Date.lastYear)
    (hMonth : 1 ≤ month ∧ month ≤ 12)
    (day : Nat) :
    ∃ d, clampedDate? year month day = .ok (some d) := by
  rcases nextMonth_ok hYear month with ⟨next, hNext⟩
  have hLength := dayBeforeMonth_le hMonth hNext
  have hOne : 1 ≤ monthLength year month :=
    Nat.le_trans (by decide) (shortestMonth_le year month)
  simp only [clampedDate?, daysInMonth, hNext, bind, Except.bind,
    pure, Except.pure, Date.ofYearMonthDay?]
  rw [if_pos ⟨hYear, hMonth, by omega⟩]
  exact ⟨_, rfl⟩

end EventSeries
