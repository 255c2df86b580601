import EventSeries.Proofs.Calendar.YearMonthDay
import EventSeries.Rule.Stepping

/-
  The pattern of a rule only ever steps forward: the date that
  follows a date is a later one of the calendar, and at least
  a week later unless the rule goes from month to month.  For
  no parameters of a rule that repeats does the pattern end
  before the calendar does.

  Main declarations:
    * `Rule.stepsByMonth`
    * `Rule.InNextMonth`
    * `Rule.lt_of_nextDate`
    * `Rule.week_le_of_nextDate`
    * `Rule.inCalendar_of_nextDate`
    * `Date.HasNextMonth`
    * `Rule.last_month_of_nextDate_none`
-/

namespace EventSeries

theorem Date.eq_of_checked
    {d next : Date}
    (hChecked : d.checked = .ok next) :
    next = d ∧ next.InCalendar := by
  unfold Date.checked at hChecked
  split at hChecked
  · cases hChecked
    exact ⟨rfl, ‹_›⟩
  · cases hChecked

namespace Rule

------------------------------------------------------------
-- Weeks
------------------------------------------------------------

/- A step over weeks goes at least that far. -/
theorem weeks_le_of_stepWeeks
    {r : Rule}
    {weeks : Nat}
    {d next : Date}
    (hStep : r.stepWeeks weeks d = .ok next) :
    d.dayNumber + 7 * weeks ≤ next.dayNumber ∧
      next.InCalendar := by
  unfold stepWeeks at hStep
  cases hWeeks : d.addDays (7 * weeks) with
  | error range =>
      rw [hWeeks] at hStep
      cases hStep
  | ok stepped =>
      rcases Date.eq_of_checked hWeeks with ⟨rfl, hInside⟩
      simp only [hWeeks, bind, Except.bind] at hStep
      cases hTarget : r.targetWeekday? with
      | none =>
          rw [hTarget] at hStep
          cases hStep
          exact ⟨Int.le_refl _, hInside⟩
      | some w =>
          rw [hTarget] at hStep
          rcases Date.eq_of_checked hStep with ⟨rfl, hNext⟩
          refine ⟨?_, hNext⟩
          simp only
          omega

------------------------------------------------------------
-- Months
------------------------------------------------------------

/- A date of the calendar, in the month after that of `d`. -/
def InNextMonth
    (d next : Date) : Prop :=
  ∃ month day, nextMonth d.year d.month = .ok month ∧
    Date.IsCalendarDay month.1 month.2 day ∧
    next = Date.ofYearMonthDay month.1 month.2 day

theorem InNextMonth.lt
    {d next : Date}
    (hNext : InNextMonth d next) :
    d < next := by
  rcases hNext with ⟨month, day, hMonth, hNames, rfl⟩
  exact Date.lt_of_nextMonth hMonth hNames.2.2.1

theorem InNextMonth.inCalendar
    {d next : Date}
    (hNext : InNextMonth d next) :
    next.InCalendar := by
  rcases hNext with ⟨month, day, _, hNames, rfl⟩
  exact Date.inCalendar_of_isCalendarDay hNames

theorem isCalendarDay_of_clampedDate?
    {year : Int}
    {month day : Nat}
    {d : Date}
    (hDate : clampedDate? year month day = .ok (some d)) :
    ∃ clamped, Date.IsCalendarDay year month clamped ∧
      d = Date.ofYearMonthDay year month clamped := by
  unfold clampedDate? at hDate
  cases hLength : daysInMonth year month with
  | error range =>
      rw [hLength] at hDate
      cases hDate
  | ok length =>
      simp only [hLength, bind, Except.bind, pure, Except.pure,
        Except.ok.injEq, Date.ofYearMonthDay?] at hDate
      split at hDate
      · cases hDate
        exact ⟨_, ‹_›, rfl⟩
      · cases hDate

theorem inNextMonth_of_stepMonthByDate
    {r : Rule}
    {d next : Date}
    (hStep : r.stepMonthByDate d = .ok (some next)) :
    InNextMonth d next := by
  unfold stepMonthByDate at hStep
  cases hMonth : nextMonth d.year d.month with
  | error range =>
      rw [hMonth] at hStep
      cases hStep
  | ok month =>
      rw [hMonth] at hStep
      rcases isCalendarDay_of_clampedDate? hStep with
        ⟨day, hNames, hNext⟩
      exact ⟨month, day, hMonth, hNames, hNext⟩

theorem inNextMonth_of_stepMonthByWeekday
    {r : Rule}
    {d next : Date}
    (hStep : r.stepMonthByWeekday d = .ok (some next)) :
    InNextMonth d next := by
  unfold stepMonthByWeekday at hStep
  cases hMonth : nextMonth d.year d.month with
  | error range =>
      rw [hMonth] at hStep
      cases hStep
  | ok month =>
      simp only [hMonth, bind, Except.bind] at hStep
      split at hStep
      · cases hStep
      · rcases isCalendarDay_of_clampedDate? hStep with
          ⟨day, hNames, hNext⟩
        exact ⟨month, day, hMonth, hNames, hNext⟩

------------------------------------------------------------
-- Dates Of A Pattern
------------------------------------------------------------

/- Whether a rule goes from month to month. -/
def stepsByMonth
    (r : Rule) : Bool :=
  match r.frequency with
  | .monthlyByDate | .monthlyByWeekday => true
  | .none | .weekly | .biweekly => false

/- The two ways to step: over weeks, or into the next month. -/
theorem nextDate_cases
    {r : Rule}
    {d next : Date}
    (hNext : r.nextDate d = .ok (some next)) :
    (r.stepsByMonth = false ∧
      d.dayNumber + 7 ≤ next.dayNumber ∧ next.InCalendar) ∨
    (r.stepsByMonth = true ∧ InNextMonth d next) := by
  unfold nextDate at hNext
  unfold stepsByMonth
  have hWeeks (weeks : Nat) (hSome : 1 ≤ weeks)
      (hStep : some <$> r.stepWeeks weeks d = .ok (some next)) :
      d.dayNumber + 7 ≤ next.dayNumber ∧
        next.InCalendar := by
    cases hStepped : r.stepWeeks weeks d with
    | error range =>
        rw [hStepped] at hStep
        cases hStep
    | ok stepped =>
        rw [hStepped] at hStep
        cases hStep
        have hFar := weeks_le_of_stepWeeks hStepped
        exact ⟨by omega, hFar.2⟩
  cases hFrequency : r.frequency with
  | none =>
      rw [hFrequency] at hNext
      cases hNext
  | weekly =>
      rw [hFrequency] at hNext
      exact Or.inl ⟨rfl, hWeeks 1 (by omega) hNext⟩
  | biweekly =>
      rw [hFrequency] at hNext
      exact Or.inl ⟨rfl, hWeeks 2 (by omega) hNext⟩
  | monthlyByDate =>
      rw [hFrequency] at hNext
      exact Or.inr ⟨rfl, inNextMonth_of_stepMonthByDate hNext⟩
  | monthlyByWeekday =>
      rw [hFrequency] at hNext
      exact Or.inr
        ⟨rfl, inNextMonth_of_stepMonthByWeekday hNext⟩

theorem lt_of_nextDate
    {r : Rule}
    {d next : Date}
    (hNext : r.nextDate d = .ok (some next)) :
    d < next := by
  rcases nextDate_cases hNext with ⟨_, hFar, _⟩ | ⟨_, hMonth⟩
  · rw [Date.lt_def]
    omega
  · exact hMonth.lt

theorem week_le_of_nextDate
    {r : Rule}
    {d next : Date}
    (hWeeks : r.stepsByMonth = false)
    (hNext : r.nextDate d = .ok (some next)) :
    d.dayNumber + 7 ≤ next.dayNumber := by
  rcases nextDate_cases hNext with ⟨_, hFar, _⟩ | ⟨hMonths, _⟩
  · exact hFar
  · rw [hWeeks] at hMonths
    cases hMonths

theorem inCalendar_of_nextDate
    {r : Rule}
    {d next : Date}
    (hNext : r.nextDate d = .ok (some next)) :
    next.InCalendar := by
  rcases nextDate_cases hNext with ⟨_, _, hInside⟩ | ⟨_, hMonth⟩
  · exact hInside
  · exact hMonth.inCalendar

end Rule

------------------------------------------------------------
-- Ends Of Patterns
------------------------------------------------------------

/- The calendar goes on for a month after that of a date. -/
def Date.HasNextMonth
    (d : Date) : Prop :=
  d.year < lastYear ∨ d.month < 12

instance
    (d : Date) :
    Decidable d.HasNextMonth :=
  inferInstanceAs (Decidable (d.year < Date.lastYear ∨ _))

/- The next month has a day for every day number. -/
theorem exists_clampedDate?_of_nextMonth
    {d : Date}
    {next : Int × Nat}
    (hInside : d.InCalendar)
    (hLeft : d.HasNextMonth)
    (hNext : nextMonth d.year d.month = .ok next)
    (day : Nat) :
    ∃ date, clampedDate? next.1 next.2 day =
      .ok (some date) := by
  have hYear := Date.year_in_calendar hInside
  unfold Date.HasNextMonth at hLeft
  rcases nextMonth_cases hNext with
    ⟨hDecember, rfl⟩ | ⟨hMonth, rfl⟩
  · apply exists_clampedDate?
    · simp only
      omega
    · simp
  · apply exists_clampedDate?
    · exact hYear
    · simp only
      omega

namespace Rule

theorem stepWeeks_ne_none
    (r : Rule)
    (weeks : Nat)
    (d : Date) :
    some <$> r.stepWeeks weeks d ≠ .ok .none := by
  cases hStep : r.stepWeeks weeks d with
  | error range => exact nofun
  | ok stepped => exact nofun

section

variable {d : Date}

variable (hInside : d.InCalendar)
variable (hLeft : d.HasNextMonth)

include hInside hLeft

theorem stepMonthByDate_ne_none
    (r : Rule) :
    r.stepMonthByDate d ≠ .ok .none := by
  intro hEnd
  unfold stepMonthByDate at hEnd
  cases hMonth : nextMonth d.year d.month with
  | error range =>
      rw [hMonth] at hEnd
      cases hEnd
  | ok month =>
      simp only [hMonth, bind, Except.bind] at hEnd
      rcases exists_clampedDate?_of_nextMonth hInside hLeft
          hMonth ((positive? r.dayOfMonth).getD d.day) with
        ⟨date, hDate⟩
      rw [hDate] at hEnd
      cases hEnd

theorem stepMonthByWeekday_ne_none
    (r : Rule) :
    r.stepMonthByWeekday d ≠ .ok .none := by
  intro hEnd
  unfold stepMonthByWeekday at hEnd
  cases hMonth : nextMonth d.year d.month with
  | error range =>
      rw [hMonth] at hEnd
      cases hEnd
  | ok month =>
      simp only [hMonth, bind, Except.bind] at hEnd
      split at hEnd
      · cases hEnd
      · rename_i day _
        rcases exists_clampedDate?_of_nextMonth hInside hLeft
            hMonth day with
          ⟨date, hDate⟩
        rw [hDate] at hEnd
        cases hEnd

end

/-
  Where the pattern of a rule that repeats has no next date,
  it goes from month to month and has come to the last month
  of the calendar.
-/
theorem last_month_of_nextDate_none
    {r : Rule}
    {d : Date}
    (hRecurring : r.isRecurring = true)
    (hInside : d.InCalendar)
    (hEnd : r.nextDate d = .ok .none) :
    r.stepsByMonth = true ∧ ¬ d.HasNextMonth := by
  unfold isRecurring at hRecurring
  unfold nextDate at hEnd
  unfold stepsByMonth
  cases hFrequency : r.frequency with
  | none =>
      rw [hFrequency] at hRecurring
      cases hRecurring
  | weekly =>
      rw [hFrequency] at hEnd
      exact absurd hEnd (r.stepWeeks_ne_none 1 d)
  | biweekly =>
      rw [hFrequency] at hEnd
      exact absurd hEnd (r.stepWeeks_ne_none 2 d)
  | monthlyByDate =>
      rw [hFrequency] at hEnd
      exact ⟨rfl, fun hLeft =>
        stepMonthByDate_ne_none hInside hLeft r hEnd⟩
  | monthlyByWeekday =>
      rw [hFrequency] at hEnd
      exact ⟨rfl, fun hLeft =>
        stepMonthByWeekday_ne_none hInside hLeft r hEnd⟩

end Rule

end EventSeries
