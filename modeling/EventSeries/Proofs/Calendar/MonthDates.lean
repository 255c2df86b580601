import EventSeries.Proofs.Calendar.YearMonthDay
import Mathlib.Data.List.Sort
import Mathlib.Tactic.IntervalCases

/-
  Weekdays and months as sets of dates.  Weekdays follow each
  other in a circle of seven days, so that those of a month
  are every seventh date from the first of them; and months
  are counted, so that the month after a month is the one
  whose number is greater by one.

  Main declarations:
    * `Date.weekday_eq_iff`
    * `Date.monthNumber`
    * `Date.monthAfter`
    * `daysInMonth_eq`
    * `Date.weekdaysOfMonth`
    * `Date.weekdaysOfMonth_eq`
    * `Date.nthOrLast?_weekdaysOfMonth`
-/

namespace EventSeries

------------------------------------------------------------
-- Weekdays
------------------------------------------------------------

namespace Weekday

theorem exists_of_index
    {n : Nat}
    (hWeek : n < 7) :
    ∃ w, ofIndex? n = some w ∧ w.index = n := by
  interval_cases n <;> exact ⟨_, rfl, rfl⟩

theorem eq_of_index
    {v w : Weekday}
    (hSame : v.index = w.index) :
    v = w := by
  have hNamed := congrArg ofIndex? hSame
  simpa using hNamed

/- So many days after a weekday it is the other one. -/
theorem daysUntil_spec
    (v w : Weekday) :
    v.daysUntil w < 7 ∧
      (v.index + v.daysUntil w) % 7 = w.index := by
  have hFrom := v.index_lt
  have hTo := w.index_lt
  unfold daysUntil
  omega

end Weekday

namespace Date

/- The weekday of a date, on the circle of seven days. -/
theorem index_weekday
    (d : Date) :
    (d.weekday.index : Int) = (d.dayNumber + 3) % 7 := by
  have hWeek : ((d.dayNumber + 3) % 7).toNat < 7 := by
    omega
  rcases Weekday.exists_of_index hWeek with
    ⟨w, hNamed, hIndex⟩
  rw [weekday, hNamed, Option.getD_some, hIndex]
  omega

theorem weekday_eq_iff
    {d : Date}
    {w : Weekday} :
    d.weekday = w ↔ (d.dayNumber + 3) % 7 = w.index := by
  rw [← index_weekday]
  constructor
  · rintro rfl
    rfl
  · intro hSame
    exact Weekday.eq_of_index (by omega)

------------------------------------------------------------
-- Months In Order
------------------------------------------------------------

/- Months, counted from December of the year before year 0. -/
def monthNumber
    (d : Date) : Int :=
  12 * d.year + d.month

/- The year and the month after those of a date. -/
def monthAfter
    (d : Date) : Int × Nat :=
  if d.month < 12 then
    (d.year, d.month + 1)
  else
    (d.year + 1, 1)

theorem month_monthAfter
    (d : Date) :
    1 ≤ d.monthAfter.2 ∧ d.monthAfter.2 ≤ 12 := by
  unfold monthAfter
  split
  · simp only
    omega
  · simp

/- The dates of the next month have the next number. -/
theorem monthNumber_eq_succ_iff
    {d next : Date} :
    next.monthNumber = d.monthNumber + 1 ↔
      next.year = d.monthAfter.1 ∧
        next.month = d.monthAfter.2 := by
  have hHere := (month_day_spec d).2.1
  have hThere := (month_day_spec next).2.1
  unfold monthNumber monthAfter
  split
  · simp only
    omega
  · simp only
    omega

/- A date of a month is one of the days that the month has. -/
theorem eq_ofYearMonthDay_iff
    {d : Date}
    {year : Int}
    {month day : Nat}
    (hMonth : 1 ≤ month ∧ month ≤ 12)
    (hDay : 1 ≤ day ∧ day ≤ monthLength year month) :
    d = ofYearMonthDay year month day ↔
      (d.year = year ∧ d.month = month) ∧ d.day = day := by
  constructor
  · rintro rfl
    have hParts := month_day_ofYearMonthDay hMonth hDay
    exact ⟨⟨year_ofYearMonthDay hMonth hDay, hParts.1⟩,
      hParts.2⟩
  · rintro ⟨⟨rfl, rfl⟩, rfl⟩
    exact (ofYearMonthDay_year_month_day d).symm

end Date

------------------------------------------------------------
-- Months Of The Calendar
------------------------------------------------------------

/-
  A month of the calendar other than its last has its length
  read off the day before the next month.
-/
theorem daysInMonth_eq
    {year : Int}
    {month : Nat}
    (hYear : Date.firstYear ≤ year ∧ year ≤ Date.lastYear)
    (hMonth : 1 ≤ month ∧ month ≤ 12)
    (hLeft : year < Date.lastYear ∨ month < 12) :
    daysInMonth year month = .ok (monthLength year month) := by
  rcases nextMonth_ok hYear month with ⟨next, hNext⟩
  have hLength : 1 ≤ monthLength year month :=
    Nat.le_trans (by decide) (shortestMonth_le year month)
  have hNames :
      Date.IsCalendarDay year month (monthLength year month) :=
    ⟨hYear, hMonth, hLength, Nat.le_refl _⟩
  have hNextNames : Date.IsCalendarDay next.1 next.2 1 := by
    have hOne :=
      Nat.le_trans (by decide : 1 ≤ shortestMonth)
        (shortestMonth_le next.1 next.2)
    unfold Date.IsCalendarDay
    rcases nextMonth_cases hNext with ⟨_, rfl⟩ | ⟨_, rfl⟩
    · simp only at hOne ⊢
      omega
    · simp only at hOne ⊢
      omega
  have hFirst :
      Date.first < Date.ofYearMonthDay next.1 next.2 1 := by
    have hBegun : Date.first.dayNumber ≤ _ :=
      (Date.inCalendar_of_isCalendarDay hNames).1
    rw [← Date.eq_last_of_nextMonth hMonth hNext] at hBegun
    rw [Date.lt_def]
    omega
  rw [daysInMonth, hNext]
  apply congrArg Except.ok
  rw [dayBeforeMonth_eq hMonth hNext,
    if_pos ⟨hNextNames, hFirst⟩]

------------------------------------------------------------
-- Weekdays Of A Month
------------------------------------------------------------

namespace Date

/- The dates of a month, in order. -/
def datesOfMonth
    (year : Int)
    (month : Nat) : List Date :=
  (List.range (monthLength year month)).map fun k =>
    ofYearMonthDay year month (k + 1)

/- Those of them that fall on a weekday. -/
def weekdaysOfMonth
    (year : Int)
    (month : Nat)
    (w : Weekday) : List Date :=
  (datesOfMonth year month).filter (·.weekday = w)

/- Day of month of the first of them. -/
def firstMatch
    (year : Int)
    (month : Nat)
    (w : Weekday) : Nat :=
  1 + (ofYearMonthDay year month 1).weekday.daysUntil w

/-
  The numbers below a bound with one remainder are every
  seventh from that remainder on.
-/
theorem filter_range_mod_seven
    {n k : Nat}
    (hWeek : k < 7)
    (hMore : k < n) :
    (List.range n).filter (fun i => decide (i % 7 = k)) =
      (List.range ((n - 1 - k) / 7 + 1)).map
        (fun i => k + 7 * i) := by
  apply List.Pairwise.eq_of_mem_iff (r := (· < ·))
  · exact List.Pairwise.filter _ List.pairwise_lt_range
  · apply List.pairwise_map.mpr
    apply List.pairwise_lt_range.imp
    intro i j hLt
    omega
  · intro i
    simp only [List.mem_filter, List.mem_range,
      decide_eq_true_eq, List.mem_map]
    constructor
    · rintro ⟨hBelow, rfl⟩
      exact ⟨i / 7, by omega, by omega⟩
    · rintro ⟨j, hBelow, rfl⟩
      omega

/- They are every seventh date from the first one on. -/
theorem weekdaysOfMonth_eq
    (year : Int)
    (month : Nat)
    (w : Weekday) :
    let first := firstMatch year month w
    weekdaysOfMonth year month w =
      (List.range ((monthLength year month - first) / 7 + 1)).map
        fun i => ofYearMonthDay year month (first + 7 * i) := by
  intro first
  let lead := (ofYearMonthDay year month 1).weekday.daysUntil w
  have hFirstMatch : first = 1 + lead := rfl
  have hUntil :=
    (ofYearMonthDay year month 1).weekday.daysUntil_spec w
  have hLong := shortestMonth_le year month
  simp only [shortestMonth] at hLong
  have hFalls (k : Nat) :
      (ofYearMonthDay year month (k + 1)).weekday = w ↔
        k % 7 = lead := by
    have hFirst := index_weekday (ofYearMonthDay year month 1)
    have hNumber :
        (ofYearMonthDay year month (k + 1)).dayNumber =
          (ofYearMonthDay year month 1).dayNumber + k := by
      simp only [ofYearMonthDay]
      omega
    rw [weekday_eq_iff, hNumber]
    omega
  have hFilter :
      (List.range (monthLength year month)).filter
          (fun k => decide
            ((ofYearMonthDay year month (k + 1)).weekday = w)) =
        (List.range ((monthLength year month - first) / 7
          + 1)).map (fun i => lead + 7 * i) := by
    simp only [hFalls]
    rw [filter_range_mod_seven hUntil.1 (by omega),
      Nat.sub_sub]
    rfl
  rw [weekdaysOfMonth, datesOfMonth, List.filter_map]
  simp only [Function.comp_def]
  rw [hFilter, List.map_map]
  apply List.map_congr_left
  intro i _
  simp only [Function.comp_def]
  congr 1
  omega

/-
  The `n`-th of some dates, counted from 1, or the last of
  them if there are fewer.
-/
def nthOrLast?
    (dates : List Date)
    (n : Nat) : Option Date :=
  dates[n - 1]?.or dates.getLast?

theorem nthOrLast?_weekdaysOfMonth
    (year : Int)
    (month : Nat)
    (w : Weekday)
    (n : Nat) :
    nthOrLast? (weekdaysOfMonth year month w) n =
      some (ofYearMonthDay year month
        (nthMatch (firstMatch year month w)
          (monthLength year month) n)) := by
  rw [weekdaysOfMonth_eq, nthMatch]
  generalize
    (monthLength year month - firstMatch year month w) / 7
      = more
  have hLast : (List.range (more + 1))[more]? = some more :=
    List.getElem?_range (by omega)
  rw [nthOrLast?, List.getLast?_eq_getElem?, List.getElem?_map,
    List.getElem?_map, List.length_map, List.length_range,
    Nat.add_sub_cancel, hLast]
  by_cases hSome : n - 1 < more + 1
  · have hIndex : min (max n 1) (more + 1) - 1 = n - 1 := by
      omega
    rw [List.getElem?_range hSome, hIndex]
    rfl
  · have hNone : (List.range (more + 1))[n - 1]? = none :=
      List.getElem?_eq_none (by
        rw [List.length_range]
        omega)
    have hIndex : min (max n 1) (more + 1) - 1 = more := by
      omega
    rw [hNone, hIndex]
    rfl

/- Each weekday of a month is a day that the month has. -/
theorem nthMatch_mem_month
    (year : Int)
    (month : Nat)
    (w : Weekday)
    (n : Nat) :
    let day := nthMatch (firstMatch year month w)
      (monthLength year month) n
    1 ≤ day ∧ day ≤ monthLength year month := by
  have hLead :=
    ((ofYearMonthDay year month 1).weekday.daysUntil_spec w).1
  have hLong := shortestMonth_le year month
  simp only [nthMatch, firstMatch, shortestMonth] at hLong ⊢
  omega

end Date

end EventSeries
