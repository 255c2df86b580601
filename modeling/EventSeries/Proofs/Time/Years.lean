import EventSeries.Event.Offsets
import EventSeries.Proofs.Calendar.Bounded
import EventSeries.Proofs.Calendar.YearMonthDay
import EventSeries.Time.LocalTime

/-
  Instants of the years 1 to 9999, and those near to them.
  The calendar reaches so much further in both directions that
  the times of an event can be carried over from any start in
  these years to any other.

  Main declarations:
    * `Instant.InYears`
    * `Instant.Near`
    * `Instant.InYears.near`
    * `Instant.seconds_plusUnchecked`
    * `Instant.plus_since_meets`
    * `Offsets.timeAt_meets`
-/

namespace EventSeries

------------------------------------------------------------
-- The Years 1 To 9999
------------------------------------------------------------

/- First second of the year 1, and first after the year 9999. -/
def firstSecond : Int :=
  -62135596800

def endSecond : Int :=
  253402300800

namespace Instant

/- An instant of one of these years, leap seconds included. -/
def InYears
    (t : Instant) : Prop :=
  (1 ≤ t.utcReading.date.year ∧
    t.utcReading.date.year ≤ 9999) ∧
  t.nanos < 2 * nanosPerSecond

instance
    (t : Instant) :
    Decidable t.InYears := by
  unfold InYears
  infer_instance

/- An instant that lies at most `slack` seconds off them. -/
structure Near
    (slack : Int)
    (t : Instant) : Prop where
  first : firstSecond - slack ≤ t.seconds
  last : t.seconds < endSecond + slack
  nanos : t.nanos < 2 * nanosPerSecond

variable {t : Instant}
variable {slack : Int}

theorem Near.mono
    {more : Int}
    (hNear : t.Near slack)
    (hLe : slack ≤ more) :
    t.Near more where
  first := by
    have hFirst := hNear.first
    omega
  last := by
    have hLast := hNear.last
    omega
  nanos := hNear.nanos

/- The years are counted on the dates of universal time. -/
theorem InYears.near
    (hYears : t.InYears) :
    t.Near 0 := by
  rcases hYears with ⟨⟨hFirst, hLast⟩, hNanos⟩
  rcases Date.dayNumber_of_years hFirst hLast with
    ⟨hBegins, hEnds⟩
  have hFirstYear : daysBeforeYear 1 = 366 := by decide
  have hLastYear : daysBeforeYear (9999 + 1) = 3652425 := by
    decide
  have hDay :
      t.utcReading.date.dayNumber = t.seconds / 86400 := rfl
  simp only [Date.epochOffset] at hBegins hEnds
  refine ⟨?_, ?_, hNanos⟩
  · rw [firstSecond]
    omega
  · rw [endSecond]
    omega

/- What is not off by millions of seconds is in the calendar. -/
theorem Near.inCalendar
    (hNear : t.Near slack)
    (hSlack : slack ≤ 7000000000000) :
    t.InCalendar := by
  have hFirst := hNear.first
  have hLast := hNear.last
  simp only [firstSecond, endSecond] at hFirst hLast
  simp only [InCalendar, Date.first, Date.last, secondsPerDay]
  omega

theorem Near.checked
    (hNear : t.Near slack)
    (hSlack : slack ≤ 7000000000000) :
    t.checked = .ok t := by
  rw [Instant.checked, if_pos (hNear.inCalendar hSlack)]

------------------------------------------------------------
-- Sums And Differences
------------------------------------------------------------

/- A sum is as far off as its span is long, and two seconds. -/
theorem seconds_plusUnchecked
    {s : Span}
    {n : Int}
    (hNanos : t.nanos < 2 * nanosPerSecond)
    (hLong :
      -(n * nanosPerSecond) ≤ s.nanoseconds ∧
        s.nanoseconds ≤ n * nanosPerSecond) :
    t.seconds - n - 2 ≤ (t.plusUnchecked s).seconds ∧
      (t.plusUnchecked s).seconds ≤ t.seconds + n + 2 := by
  have hParts :
      s.wholeSeconds * nanosPerSecond + s.subsecondNanos =
        s.nanoseconds :=
    Int.tdiv_mul_add_tmod s.nanoseconds nanosPerSecond
  have hBelow : s.subsecondNanos < nanosPerSecond :=
    Int.tmod_lt_of_pos s.nanoseconds (by decide)
  have hAbove : -(nanosPerSecond : Int) < s.subsecondNanos :=
    Int.lt_tmod_of_pos s.nanoseconds (by decide)
  simp only [nanosPerSecond] at hNanos hLong hParts hBelow hAbove
  unfold plusUnchecked
  by_cases hLeap : t.isLeap = true
  · rw [if_neg (fun hOrdinary => hOrdinary hLeap)]
    split
    · simp only [ofSecondAndNanos, nanosPerSecond]
      omega
    · split
      · simp only [ofSecondAndNanos, nanosPerSecond]
        omega
      · simp only
        omega
  · rw [if_pos hLeap]
    simp only [ofSecondAndNanos, nanosPerSecond]
    omega

/- No two instants of these years lie so many seconds apart. -/
def yearsLong : Int :=
  endSecond - firstSecond + 3

/- Two instants of these years are no further apart than that. -/
theorem Near.since_long
    {r : Instant}
    (hT : t.Near 0)
    (hR : r.Near 0) :
    -(yearsLong * nanosPerSecond) ≤ (t.since r).nanoseconds ∧
      (t.since r).nanoseconds ≤ yearsLong * nanosPerSecond := by
  have hPassed :
      -1 ≤ leapSecondsPassed t r ∧
        leapSecondsPassed t r ≤ 1 := by
    unfold leapSecondsPassed
    split
    · omega
    · split <;> omega
  rcases hT with ⟨hTFirst, hTLast, hTNanos⟩
  rcases hR with ⟨hRFirst, hRLast, hRNanos⟩
  simp only [since, yearsLong, firstSecond, endSecond,
    nanosPerSecond] at *
  omega

/- One distance of these years, from a start near to them. -/
theorem plus_since_meets
    {start r : Instant}
    (hStart : start.Near slack)
    (hSlack : slack ≤ 4000000000000)
    (hT : t.Near 0)
    (hR : r.Near 0) :
    (start.plus (t.since r)).Meets fun _ => True := by
  have hSum :=
    seconds_plusUnchecked hStart.nanos (hT.since_long hR)
  have hFirst := hStart.first
  have hLast := hStart.last
  have hInside :
      (start.plusUnchecked (t.since r)).InCalendar := by
    simp only [yearsLong, firstSecond, endSecond]
      at hSum hFirst hLast
    simp only [InCalendar, Date.first, Date.last, secondsPerDay]
    omega
  exact ⟨_, if_pos hInside, trivial⟩

end Instant

/- The times of an event, carried over to such a start. -/
theorem Offsets.timeAt_meets
    {start : Instant}
    {slack : Int}
    {reference time : Option Instant}
    (hStart : start.Near slack)
    (hSlack : slack ≤ 4000000000000)
    (hReference : ∀ r, reference = some r → r.Near 0)
    (hTime : ∀ t, time = some t → t.Near 0) :
    (timeAt start (spanFrom? reference time)).Meets
      fun _ => True := by
  cases reference with
  | none => exact ⟨none, rfl, trivial⟩
  | some r =>
      cases time with
      | none => exact ⟨none, rfl, trivial⟩
      | some t =>
          exact (Instant.plus_since_meets hStart hSlack
            (hTime t rfl) (hReference r rfl)).map
              fun _ _ => trivial

end EventSeries
