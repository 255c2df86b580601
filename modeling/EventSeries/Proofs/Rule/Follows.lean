import EventSeries.Proofs.Calendar.MonthDates
import EventSeries.Proofs.Rule.NextStart
import EventSeries.Proofs.Calendar.Bounded
import Mathlib.Order.Bounds.Defs

/-
  What the steps of a rule come to, said of the calendar and
  not of the way there.  A rule of weeks asks for the first
  date on a weekday from some day on; a rule of months asks
  for a day of the month with the next number, cut to its
  length, or for the n-th of the weekdays in it.  One date
  answers to each description, and where the calendar holds it
  the step leads to it.

  Main declarations:
    * `Rule.Follows`
    * `Rule.Finds`
    * `Rule.stepWeeks_finds`
    * `Rule.stepMonthByDate_finds`
    * `Rule.stepMonthByWeekday_finds`
    * `Rule.nextDate_finds`
    * `Rule.nextAfter_of_follows`
-/

namespace EventSeries.Rule

------------------------------------------------------------
-- Dates That Follow
------------------------------------------------------------

/- A number, or the default when it is missing or 0. -/
def asked
    (parameter : Option UInt8)
    (default : Nat) : Nat :=
  match parameter with
  | some n => if n.toNat = 0 then default else n.toNat
  | .none => default

theorem positive?_getD
    (parameter : Option UInt8)
    (default : Nat) :
    (positive? parameter).getD default =
      asked parameter default := by
  cases parameter with
  | none => rfl
  | some n =>
      simp only [positive?, asked]
      by_cases hZero : n.toNat = 0
      · simp [hZero]
      · simp [hZero, Nat.pos_of_ne_zero hZero]

theorem one_le_asked
    (parameter : Option UInt8)
    {default : Nat}
    (hDefault : 1 ≤ default) :
    1 ≤ asked parameter default := by
  unfold asked
  split
  · split
    · exact hDefault
    · omega
  · exact hDefault

/-
  The first date on the target weekday that lies so many weeks
  ahead or more, or the date so many weeks ahead if the rule
  has no such weekday.
-/
def FollowsByWeeks
    (r : Rule)
    (weeks : Nat)
    (d next : Date) : Prop :=
  match r.targetWeekday? with
  | some w =>
      IsLeast
        {later : Date |
          d.dayNumber + 7 * weeks ≤ later.dayNumber ∧
            later.weekday = w}
        next
  | .none => next.dayNumber = d.dayNumber + 7 * weeks

/- The day of the next month that the rule names, or its last. -/
def FollowsByDate
    (r : Rule)
    (d next : Date) : Prop :=
  next.monthNumber = d.monthNumber + 1 ∧
    next.day =
      min (asked r.dayOfMonth d.day)
        (monthLength next.year next.month)

/- The n-th such weekday of the next month, or its last. -/
def FollowsByWeekday
    (r : Rule)
    (d next : Date) : Prop :=
  next.monthNumber = d.monthNumber + 1 ∧
    Date.nthOrLast?
        (Date.weekdaysOfMonth next.year next.month
          (r.targetWeekday?.getD d.weekday))
        (asked r.weekOfMonth 1) =
      some next

/- The dates that a rule has right after another one. -/
def Follows
    (r : Rule)
    (d : Date) : Date → Prop :=
  match r.frequency with
  | .none => fun _ => False
  | .weekly => r.FollowsByWeeks 1 d
  | .biweekly => r.FollowsByWeeks 2 d
  | .monthlyByDate => r.FollowsByDate d
  | .monthlyByWeekday => r.FollowsByWeekday d

/-
  One date answers to a description, and a step comes to it
  where it can be reached.
-/
def Finds
    (step : Bounded (Option Date))
    (Answers CanReach : Date → Prop) : Prop :=
  ∃ found, (∀ next, Answers next ↔ next = found) ∧
    (CanReach found → step = .ok (some found))

theorem Finds.mono
    {step : Bounded (Option Date)}
    {Answers CanReach Nearer : Date → Prop}
    (hFinds : Finds step Answers CanReach)
    (hNearer : ∀ next, Nearer next → CanReach next) :
    Finds step Answers Nearer := by
  rcases hFinds with ⟨found, hAnswers, hStep⟩
  exact ⟨found, hAnswers,
    fun hReach => hStep (hNearer found hReach)⟩

------------------------------------------------------------
-- Weeks
------------------------------------------------------------

/- The next date on a weekday, counted from a date. -/
theorem isLeast_weekday
    {d : Date}
    {w : Weekday}
    {next : Date} :
    IsLeast
        {later : Date |
          d.dayNumber ≤ later.dayNumber ∧ later.weekday = w}
        next ↔
      next = ⟨d.dayNumber + d.weekday.daysUntil w⟩ := by
  have hFrom := Date.index_weekday d
  have hUntil := d.weekday.daysUntil_spec w
  have hReached :
      (Date.mk (d.dayNumber + d.weekday.daysUntil w)).weekday
        = w := by
    rw [Date.weekday_eq_iff]
    simp only
    omega
  have hNotBefore (later : Date)
      (hLater : d.dayNumber ≤ later.dayNumber)
      (hFalls : later.weekday = w) :
      d.dayNumber + d.weekday.daysUntil w ≤
        later.dayNumber := by
    rw [Date.weekday_eq_iff] at hFalls
    omega
  constructor
  · rintro ⟨⟨hLater, hFalls⟩, hLeast⟩
    have hLe : next.dayNumber ≤ _ :=
      hLeast ⟨by simp only; omega, hReached⟩
    have hGe := hNotBefore next hLater hFalls
    cases next with
    | mk dayNumber =>
        simp only [Date.mk.injEq] at hLe hGe ⊢
        omega
  · rintro rfl
    refine ⟨⟨by simp only; omega, hReached⟩, ?_⟩
    rintro later ⟨hLater, hFalls⟩
    exact hNotBefore later hLater hFalls

theorem stepWeeks_finds
    (r : Rule)
    (weeks : Nat)
    {d : Date}
    (hInside : d.InCalendar) :
    Finds (some <$> r.stepWeeks weeks d)
      (r.FollowsByWeeks weeks d) Date.InCalendar := by
  have hFirst : Date.first.dayNumber ≤ d.dayNumber := hInside.1
  let stepped := Date.mk (d.dayNumber + 7 * weeks)
  -- The calendar holds all days between two of its days.
  have hStepped (next : Date)
      (hNext : stepped.dayNumber ≤ next.dayNumber)
      (hReach : next.InCalendar) :
      d.addDays (7 * weeks) = .ok stepped := by
    have hLast : next.dayNumber ≤ Date.last.dayNumber :=
      hReach.2
    apply if_pos
    change Date.first.dayNumber ≤ _ ∧ _ ≤ Date.last.dayNumber
    simp only [stepped] at hNext
    simp only
    omega
  unfold FollowsByWeeks stepWeeks
  cases r.targetWeekday? with
  | none =>
      refine ⟨stepped, ?_, ?_⟩
      · intro next
        cases next with
        | mk dayNumber => simp [stepped]
      · intro hReach
        rw [hStepped stepped (Int.le_refl _) hReach]
        rfl
  | some w =>
      refine ⟨⟨stepped.dayNumber + stepped.weekday.daysUntil w⟩,
        fun next => isLeast_weekday (d := stepped), ?_⟩
      intro hReach
      rw [hStepped _ (by simp only; omega) hReach]
      have hTarget :
          stepped.addDays (stepped.weekday.daysUntil w) =
            .ok ⟨stepped.dayNumber
              + stepped.weekday.daysUntil w⟩ :=
        if_pos hReach
      simp only [bind, Except.bind, hTarget]
      rfl

------------------------------------------------------------
-- Months
------------------------------------------------------------

variable {r : Rule}
variable {d : Date}

/- A date that lies in the calendar but not in its last month. -/
def BeforeLastMonth
    (d : Date) : Prop :=
  d.InCalendar ∧ d.HasNextMonth

/- The month after that of a date, as the calendar has it. -/
theorem nextMonth_eq_monthAfter
    {day : Nat}
    (hDay :
      1 ≤ day ∧ day ≤ monthLength d.monthAfter.1 d.monthAfter.2)
    (hReach : BeforeLastMonth
      (Date.ofYearMonthDay d.monthAfter.1 d.monthAfter.2 day)) :
    nextMonth d.year d.month = .ok d.monthAfter ∧
      Date.IsCalendarDay d.monthAfter.1 d.monthAfter.2 day ∧
        daysInMonth d.monthAfter.1 d.monthAfter.2 =
          .ok (monthLength d.monthAfter.1 d.monthAfter.2) := by
  have hMonth := Date.month_monthAfter d
  have hYear := Date.year_in_calendar hReach.1
  have hLeft := hReach.2
  rw [Date.HasNextMonth] at hLeft
  rw [Date.year_ofYearMonthDay hMonth hDay] at hYear hLeft
  rw [(Date.month_day_ofYearMonthDay hMonth hDay).1] at hLeft
  refine ⟨?_, ⟨hYear, hMonth, hDay⟩,
    daysInMonth_eq hYear hMonth hLeft⟩
  have hHere := (Date.month_day_spec d).2.1
  unfold Date.monthAfter at hYear ⊢
  unfold nextMonth
  by_cases hEarly : d.month < 12
  · rw [if_neg (by omega), if_pos hEarly]
    rfl
  · rw [if_neg hEarly] at hYear ⊢
    have hCount : checkedCount (d.year + 1) = .ok (d.year + 1) := by
      apply if_pos
      simp only [Date.firstYear, Date.lastYear] at hYear
      unfold CountFits
      omega
    rw [if_pos (by omega), hCount]
    rfl

/- A day that the month has is not cut. -/
theorem clampedDate?_of_isCalendarDay
    {year : Int}
    {month day asked : Nat}
    (hNames : Date.IsCalendarDay year month day)
    (hLength :
      daysInMonth year month = .ok (monthLength year month))
    (hAsked : max 1 (min asked (monthLength year month)) = day) :
    clampedDate? year month asked =
      .ok (some (Date.ofYearMonthDay year month day)) := by
  rw [clampedDate?, hLength]
  simp only [bind, Except.bind, pure, Except.pure, hAsked,
    Date.ofYearMonthDay?, if_pos hNames]

theorem stepMonthByDate_finds
    (r : Rule)
    (d : Date) :
    Finds (r.stepMonthByDate d) (r.FollowsByDate d)
      BeforeLastMonth := by
  let month := d.monthAfter
  let day :=
    min (asked r.dayOfMonth d.day) (monthLength month.1 month.2)
  have hMonth : 1 ≤ month.2 ∧ month.2 ≤ 12 :=
    Date.month_monthAfter d
  have hLong := shortestMonth_le month.1 month.2
  simp only [shortestMonth] at hLong
  have hAsked :=
    one_le_asked r.dayOfMonth (Date.month_day_spec d).2.2.1
  have hDay : 1 ≤ day ∧ day ≤ monthLength month.1 month.2 := by
    simp only [day]
    omega
  refine ⟨Date.ofYearMonthDay month.1 month.2 day, ?_, ?_⟩
  · intro next
    rw [FollowsByDate, Date.monthNumber_eq_succ_iff,
      Date.eq_ofYearMonthDay_iff hMonth hDay]
    apply and_congr_right
    rintro ⟨hYear, hSame⟩
    rw [hYear, hSame]
  · intro hReach
    rcases nextMonth_eq_monthAfter hDay hReach with
      ⟨hNext, hNames, hLength⟩
    rw [stepMonthByDate, hNext, positive?_getD]
    apply clampedDate?_of_isCalendarDay hNames hLength
    simp only [day, month] at hDay ⊢
    omega

theorem stepMonthByWeekday_finds
    (r : Rule)
    (d : Date) :
    Finds (r.stepMonthByWeekday d) (r.FollowsByWeekday d)
      BeforeLastMonth := by
  let month := d.monthAfter
  let w := r.targetWeekday?.getD d.weekday
  let day :=
    nthMatch (Date.firstMatch month.1 month.2 w)
      (monthLength month.1 month.2) (asked r.weekOfMonth 1)
  have hMonth : 1 ≤ month.2 ∧ month.2 ≤ 12 :=
    Date.month_monthAfter d
  have hDay : 1 ≤ day ∧ day ≤ monthLength month.1 month.2 :=
    Date.nthMatch_mem_month month.1 month.2 w _
  refine ⟨Date.ofYearMonthDay month.1 month.2 day, ?_, ?_⟩
  · intro next
    rw [FollowsByWeekday, Date.monthNumber_eq_succ_iff]
    constructor
    · rintro ⟨⟨hYear, hSame⟩, hMatch⟩
      rw [hYear, hSame, Date.nthOrLast?_weekdaysOfMonth,
        Option.some_inj] at hMatch
      exact hMatch.symm
    · intro hNext
      have hParts :=
        ((Date.eq_ofYearMonthDay_iff hMonth hDay).mp hNext).1
      refine ⟨hParts, ?_⟩
      rw [hParts.1, hParts.2, Date.nthOrLast?_weekdaysOfMonth,
        hNext]
  · intro hReach
    rcases nextMonth_eq_monthAfter hDay hReach with
      ⟨hNext, hNames, hLength⟩
    have hFirst :
        Date.ofYearMonthDay? month.1 month.2 1 =
          some (Date.ofYearMonthDay month.1 month.2 1) := by
      have hOne := Nat.le_trans hDay.1 hDay.2
      exact if_pos ⟨hNames.1, hMonth, Nat.le_refl _, hOne⟩
    have hNth :
        nthWeekdayOfMonth month.1 month.2 w
          (asked r.weekOfMonth 1) = .ok day := by
      simp only [nthWeekdayOfMonth, hFirst, month, hLength, bind,
        Except.bind]
      rfl
    rw [stepMonthByWeekday, hNext, positive?_getD]
    simp only [bind, Except.bind]
    rw [hNth]
    apply clampedDate?_of_isCalendarDay hNames hLength
    simp only [month] at hDay ⊢
    omega

------------------------------------------------------------
-- Steps
------------------------------------------------------------

/-
  The dates that a step can reach: those of the calendar, for
  a rule of months not in its last month.
-/
def CanReach
    (r : Rule)
    (next : Date) : Prop :=
  next.InCalendar ∧ (r.stepsByMonth = true → next.HasNextMonth)

/- Every step of a rule that repeats comes to what follows. -/
theorem nextDate_finds
    (hRecurring : r.isRecurring = true)
    (hInside : d.InCalendar) :
    Finds (r.nextDate d) (r.Follows d) r.CanReach := by
  unfold isRecurring at hRecurring
  unfold CanReach stepsByMonth Follows nextDate
  cases hFrequency : r.frequency with
  | none =>
      rw [hFrequency] at hRecurring
      cases hRecurring
  | weekly =>
      exact (r.stepWeeks_finds 1 hInside).mono
        fun next hReach => hReach.1
  | biweekly =>
      exact (r.stepWeeks_finds 2 hInside).mono
        fun next hReach => hReach.1
  | monthlyByDate =>
      exact (r.stepMonthByDate_finds d).mono
        fun next hReach => ⟨hReach.1, hReach.2 rfl⟩
  | monthlyByWeekday =>
      exact (r.stepMonthByWeekday_finds d).mono
        fun next hReach => ⟨hReach.1, hReach.2 rfl⟩

/-
  From a start that the clocks show on a date, a rule that
  repeats has one date that follows, whatever its parameters;
  and the next start is where the zone places that date at the
  time of day, unless the date is too late for the calendar.
-/
theorem nextAfter_of_follows
    {z : Zone}
    {time : ClockTime}
    {current : Instant}
    {here : LocalTime}
    (hRecurring : r.isRecurring = true)
    (hHere : z.toLocal current = .ok here) :
    (∃! next, r.Follows here.date next) ∧
      ∀ next, r.Follows here.date next →
        next.InCalendar →
        (r.stepsByMonth = true → next.HasNextMonth) →
          r.nextAfter z time current =
            some <$> z.localize ⟨next, time⟩ := by
  rcases nextDate_finds hRecurring (inCalendar_of_toLocal hHere)
    with ⟨found, hAnswers, hStep⟩
  constructor
  · exact ⟨found, (hAnswers found).mpr rfl,
      fun next hNext => (hAnswers next).mp hNext⟩
  · intro next hNext hInside hLeft
    cases (hAnswers next).mp hNext
    rw [nextAfter_of_toLocal hHere, startAfterDate,
      hStep ⟨hInside, hLeft⟩]
    rfl

/-
  On the fifth Thursday of each month: from January 30, 2025,
  the next start is on February 27, the last Thursday of a
  month that has four.
-/
theorem nextAfter_of_fifth_thursday :
    let r := monthlyByWeekday (some 3) (some 5)
    let time : ClockTime := ⟨68400, 0, by decide⟩
    let here : LocalTime := ⟨.ofYearMonthDay 2025 1 30, time⟩
    let next := Date.ofYearMonthDay 2025 2 27
    Zone.utc.toLocal here.inUtc = .ok here ∧
      r.Follows here.date next ∧
        r.nextAfter Zone.utc time here.inUtc =
          some <$> Zone.utc.localize ⟨next, time⟩ := by
  intro r time here next
  have hHere : Zone.utc.toLocal here.inUtc = .ok here := by
    decide
  have hFollows : r.Follows here.date next :=
    ⟨by decide +kernel, by decide +kernel⟩
  refine ⟨hHere, hFollows, ?_⟩
  exact (nextAfter_of_follows rfl hHere).2 next hFollows
    (by decide) (by decide)

end EventSeries.Rule
