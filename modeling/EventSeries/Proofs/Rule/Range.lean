import EventSeries.Proofs.Rule.NextStart
import EventSeries.Proofs.Time.AddedMonths
import EventSeries.Proofs.Zone.Range

/-
  The steps of a rule and the addition of months stay inside
  the calendar near the years 1 to 9999, for all parameters of
  a rule.  A step leads no further than the end of the next
  month.

  Main declarations:
    * `Date.Near`
    * `Date.le_of_nextMonth`
    * `firstMatch_le`
    * `LocalTime.monthInCalendar_of_near`
    * `LocalTime.addMonths_meets`
    * `Rule.nextDate_meets`
    * `Rule.nextAfter_meets`
-/

namespace EventSeries

------------------------------------------------------------
-- Dates Near To The Years 1 To 9999
------------------------------------------------------------

namespace Date

/- A date that lies a few thousand years off at most. -/
structure Near
    (d : Date) : Prop where
  first : -5000000 ≤ d.dayNumber
  last : d.dayNumber ≤ 5000000

variable {d : Date}

theorem Near.inCalendar
    (hNear : d.Near) :
    d.InCalendar := by
  have hFirst := hNear.first
  have hLast := hNear.last
  change Date.first.dayNumber ≤ _ ∧ _ ≤ Date.last.dayNumber
  simp only [Date.first, Date.last]
  omega

theorem Near.year
    (hNear : d.Near) :
    -20000 ≤ d.year ∧ d.year ≤ 20000 := by
  rcases daysBeforeYear_year d with ⟨hBegins, hEnds⟩
  have hFirst := hNear.first
  have hLast := hNear.last
  have hFirstYear : daysBeforeYear (-20000) = -7304850 := by
    decide
  have hLastYear : daysBeforeYear 20001 = 7305216 := by decide
  simp only [epochOffset] at hBegins hEnds
  constructor
  · apply Int.not_lt.mp
    intro hEarly
    have hLe :
        daysBeforeYear (d.year + 1) ≤ daysBeforeYear (-20000) :=
      daysBeforeYear_mono hEarly
    omega
  · apply Int.not_lt.mp
    intro hLate
    have hLe : daysBeforeYear 20001 ≤ daysBeforeYear d.year :=
      daysBeforeYear_mono hLate
    omega

theorem Near.hasNextMonth
    (hNear : d.Near) :
    d.HasNextMonth := by
  have hYear := hNear.year.2
  left
  simp only [lastYear]
  omega

/- A wall time near to an instant is on such a date. -/
theorem near_of_inUtc
    {l : LocalTime}
    {slack : Int}
    (hNear : l.inUtc.Near slack)
    (hSlack : slack ≤ 100000000000) :
    l.date.Near := by
  have hFirst := hNear.first
  have hLast := hNear.last
  have hSecond := l.time.second_lt
  simp only [LocalTime.inUtc, firstSecond, endSecond,
    secondsPerDay] at hFirst hLast hSecond
  exact ⟨by omega, by omega⟩

/- Any day of the next month is at most two months away. -/
theorem le_of_nextMonth
    {next : Int × Nat}
    {day : Nat}
    (hNext : nextMonth d.year d.month = .ok next)
    (hDay : day ≤ monthLength next.1 next.2) :
    (ofYearMonthDay next.1 next.2 day).dayNumber ≤
      d.dayNumber + 62 := by
  rcases month_day_spec d with
    ⟨hSum, ⟨hJanuary, hDecember⟩, hFirst, _⟩
  have hShort : day ≤ 31 :=
    Nat.le_trans hDay (monthLength_le next.1 next.2)
  rcases nextMonth_cases hNext with ⟨hLast, rfl⟩ | ⟨_, rfl⟩
  · have hTwelve : d.month = 12 := by omega
    have hYear := daysBeforeMonth_december d.year
    rw [hTwelve] at hSum
    simp only [ofYearMonthDay, daysBeforeYear_succ,
      daysBeforeMonth]
    omega
  · have hHere := monthLength_le d.year d.month
    simp only [ofYearMonthDay, daysBeforeMonth_succ hJanuary]
    omega

end Date

------------------------------------------------------------
-- Months
------------------------------------------------------------

/- A month that has a first day has a day for each weekday. -/
theorem nthWeekdayOfMonth_ok
    (year : Int)
    (month : Nat)
    (w : Weekday)
    (nth : Nat) :
    ∃ day, nthWeekdayOfMonth year month w nth = .ok day := by
  unfold nthWeekdayOfMonth Date.ofYearMonthDay?
  by_cases hNames : Date.IsCalendarDay year month 1
  · rcases nextMonth_ok hNames.1 month with ⟨next, hNext⟩
    simp only [if_pos hNames, daysInMonth, hNext]
    exact ⟨_, rfl⟩
  · rw [if_neg hNames]
    exact ⟨_, rfl⟩

/- The length of a month is at least that of February. -/
theorem length_of_daysInMonth
    {year : Int}
    {month length : Nat}
    (hMonth : 1 ≤ month ∧ month ≤ 12)
    (hLength : daysInMonth year month = .ok length) :
    shortestMonth ≤ length ∧ length ≤ 31 := by
  rcases Bounded.bind_eq_ok_iff.mp hLength with
    ⟨next, hNext, hRead⟩
  cases hRead
  rw [dayBeforeMonth_eq hMonth hNext]
  split
  · exact ⟨shortestMonth_le year month,
      monthLength_le year month⟩
  · decide

/- The first of each weekday lies in its month. -/
theorem firstMatch_le
    {year : Int}
    {month length : Nat}
    {first : Date}
    (hFirst : Date.ofYearMonthDay? year month 1 = some first)
    (hLength : daysInMonth year month = .ok length)
    (w : Weekday) :
    1 + first.weekday.daysUntil w ≤ length ∧ length ≤ 31 := by
  unfold Date.ofYearMonthDay? at hFirst
  split at hFirst
  · rename_i hNames
    have hBetween := length_of_daysInMonth hNames.2.1 hLength
    have hDays : first.weekday.daysUntil w < 7 :=
      Nat.mod_lt _ (by decide)
    simp only [shortestMonth] at hBetween
    omega
  · cases hFirst

namespace LocalTime

/- The months up to a horizon are those of the calendar. -/
theorem monthInCalendar_of_near
    {l : LocalTime}
    {slack : Int}
    {months : Nat}
    (hNear : l.inUtc.Near slack)
    (hSlack : slack ≤ 100000000000)
    (hMonths : months ≤ 1200) :
    MonthInCalendar (l.monthCount + months) := by
  have hYear := (Date.near_of_inUtc hNear hSlack).year
  have hMonth := (Date.month_day_spec l.date).2.1
  simp only [MonthInCalendar, yearOfCount, monthOfCount,
    monthCount, Date.firstYear, Date.lastYear]
  omega

/- Months ahead, as far as a horizon may lie. -/
theorem addMonths_meets
    {l : LocalTime}
    {slack : Int}
    {months : Nat}
    (hNear : l.inUtc.Near slack)
    (hSlack : slack ≤ 10000000000)
    (hMonths : months ≤ 1200) :
    (l.addMonths months).Meets
      (·.inUtc.Near (slack + 4000000000)) := by
  have hInside :=
    monthInCalendar_of_near hNear (by omega) hMonths
  refine ⟨l.monthsLater months, addMonths_eq hInside, ?_⟩
  have hMonth := (Date.month_day_spec l.date).2.1
  have hYear := (l.year_month_monthsLater months).1
  simp only [yearOfCount, monthCount] at hYear
  -- Both dates lie where their years have their share.
  have hHere := Date.daysBeforeYear_year l.date
  have hThere :=
    Date.daysBeforeYear_year (l.monthsLater months).date
  have hFrom := daysBeforeYear_near l.date.year
  have hNext := daysBeforeYear_near (l.date.year + 1)
  have hBefore :=
    daysBeforeYear_near (l.monthsLater months).date.year
  have hAfter :=
    daysBeforeYear_near ((l.monthsLater months).date.year + 1)
  rcases hNear with ⟨hFirst, hLast, hNanos⟩
  have hSecond := l.time.second_lt
  simp only [inUtc, firstSecond, endSecond, secondsPerDay]
    at hFirst hLast hSecond
  refine ⟨?_, ?_, hNanos⟩
  · simp only [inUtc, firstSecond, secondsPerDay,
      time_monthsLater]
    omega
  · simp only [inUtc, endSecond, secondsPerDay,
      time_monthsLater]
    omega

end LocalTime

------------------------------------------------------------
-- Steps Of A Rule
------------------------------------------------------------

namespace Rule

variable {r : Rule}
variable {d : Date}

/- A later date, two months away at most. -/
def SoonAfter
    (d next : Date) : Prop :=
  d < next ∧ next.dayNumber ≤ d.dayNumber + 62

variable (hNear : d.Near)
include hNear

theorem addDays_of_near
    (days : Int)
    (hDays : 0 ≤ days ∧ days ≤ 62) :
    d.addDays days = .ok ⟨d.dayNumber + days⟩ := by
  have hFirst := hNear.first
  have hLast := hNear.last
  apply if_pos
  change Date.first.dayNumber ≤ _ ∧ _ ≤ Date.last.dayNumber
  simp only [Date.first, Date.last]
  omega

theorem stepWeeks_meets
    {weeks : Nat}
    (hWeeks : 1 ≤ weeks ∧ weeks ≤ 2) :
    (r.stepWeeks weeks d).Meets (SoonAfter d) := by
  have hStepped :=
    addDays_of_near hNear (7 * weeks) (by omega)
  unfold stepWeeks
  simp only [hStepped, bind, Except.bind]
  generalize hTo : Date.mk (d.dayNumber + 7 * weeks) = stepped
  have hNumber : stepped.dayNumber = d.dayNumber + 7 * weeks := by
    rw [← hTo]
  cases r.targetWeekday? with
  | none =>
      refine ⟨stepped, rfl, ?_⟩
      rw [SoonAfter, Date.lt_def]
      omega
  | some w =>
      have hDays : stepped.weekday.daysUntil w < 7 :=
        Nat.mod_lt _ (by decide)
      -- Both sums together stay within the reach of one.
      have hTarget :=
        addDays_of_near hNear
          (7 * weeks + stepped.weekday.daysUntil w) (by omega)
      rw [Date.addDays, ← Int.add_assoc, ← hNumber] at hTarget
      refine ⟨_, hTarget, ?_⟩
      rw [SoonAfter, Date.lt_def]
      simp only
      omega

/- A day of the next month, for whichever day is asked for. -/
theorem clampedDate?_meets
    {next : Int × Nat}
    (hNext : nextMonth d.year d.month = .ok next)
    (day : Nat) :
    (clampedDate? next.1 next.2 day).Meets fun found =>
      ∀ later, found = some later → SoonAfter d later := by
  rcases exists_clampedDate?_of_nextMonth hNear.inCalendar
      hNear.hasNextMonth hNext day with
    ⟨date, hDate⟩
  refine ⟨some date, hDate, ?_⟩
  rintro later ⟨⟩
  rcases isCalendarDay_of_clampedDate? hDate with
    ⟨clamped, hNames, rfl⟩
  exact ⟨Date.lt_of_nextMonth hNext hNames.2.2.1,
    Date.le_of_nextMonth hNext hNames.2.2.2⟩

/- Every step stays in range and comes to a date soon after. -/
theorem nextDate_meets :
    (r.nextDate d).Meets fun found =>
      ∀ next, found = some next → SoonAfter d next := by
  have hWeeks (weeks : Nat) (hFew : 1 ≤ weeks ∧ weeks ≤ 2) :
      Bounded.Meets (some <$> r.stepWeeks weeks d) fun found =>
        ∀ next, found = some next → SoonAfter d next := by
    apply (stepWeeks_meets hNear hFew).map
    rintro stepped hSoon next ⟨⟩
    exact hSoon
  rcases nextMonth_ok (Date.year_in_calendar hNear.inCalendar)
      d.month with
    ⟨month, hMonth⟩
  unfold nextDate
  cases r.frequency with
  | none => exact ⟨.none, rfl, fun _ hNone => by cases hNone⟩
  | weekly => exact hWeeks 1 (by decide)
  | biweekly => exact hWeeks 2 (by decide)
  | monthlyByDate =>
      simp only [stepMonthByDate, hMonth, bind, Except.bind]
      exact clampedDate?_meets hNear hMonth _
  | monthlyByWeekday =>
      rcases nthWeekdayOfMonth_ok month.1 month.2
          (r.targetWeekday?.getD d.weekday)
          ((positive? r.weekOfMonth).getD 1) with
        ⟨day, hDay⟩
      simp only [stepMonthByWeekday, hMonth, hDay, bind,
        Except.bind]
      exact clampedDate?_meets hNear hMonth day

omit hNear

/- From a start near to the years the next one is near too. -/
theorem nextAfter_meets
    {z : Zone}
    {time : ClockTime}
    {current : Instant}
    {slack : Int}
    (hShort : z.OffsetsShort)
    (hNanos : time.nanos < 2 * nanosPerSecond)
    (hCurrent : current.Near slack)
    (hSlack : slack ≤ 10000000000) :
    (r.nextAfter z time current).Meets fun found =>
      ∀ next, found = some next →
        next.Near (slack + 70 * secondsPerDay) := by
  apply (Zone.toLocal_meets hShort hCurrent (by omega)).bind
  rintro here ⟨rfl, hHere⟩
  have hDate : (z.wallTime current).date.Near :=
    Date.near_of_inUtc hHere (by
      simp only [secondsPerDay]
      omega)
  apply (nextDate_meets hDate).bind
  intro found hFound
  cases found with
  | none => exact ⟨.none, rfl, fun _ hNone => by cases hNone⟩
  | some next =>
      have hPlace :
          (LocalTime.mk next time).inUtc.Near
            (slack + 66 * secondsPerDay) := by
        have hSoon := hFound next rfl
        have hSecond := time.second_lt
        have hHereSecond := (z.wallTime current).time.second_lt
        rw [SoonAfter, Date.lt_def] at hSoon
        rcases hHere with ⟨hFirst, hLast, _⟩
        simp only [LocalTime.inUtc, secondsPerDay] at *
        exact ⟨by simp only; omega, by simp only; omega, hNanos⟩
      apply (Zone.localize_meets hShort hPlace (by
        simp only [secondsPerDay]
        omega)).map
      rintro placed hPlaced later ⟨⟩
      exact hPlaced.mono (by simp only [secondsPerDay]; omega)

end Rule

end EventSeries
