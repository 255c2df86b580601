import EventSeries.Proofs.Rule.NextDate
import EventSeries.Proofs.Zone.Folds

/-
  The steps of a rule from start to start.  A step is one of
  the pattern of dates, made on the date that the clocks of
  the zone show at a start.  Where they show the date that the
  start was placed for, or a later one, it leads to a later
  start; and so it does where the clocks are set two days
  apart or more, and back by a day at most.

  Main declarations:
    * `Rule.startAfterDate`
    * `Rule.nextAfter_of_toLocal`
    * `Rule.nextAfter_cases`
    * `Rule.StandsOn`
    * `Rule.standsOn_of_nextAfter`
    * `Rule.lt_of_nextAfter`
-/

namespace EventSeries

namespace Rule

------------------------------------------------------------
-- Steps
------------------------------------------------------------

/- The start on the date that follows a date, if one does. -/
def startAfterDate
    (r : Rule)
    (z : Zone)
    (time : ClockTime)
    (d : Date) : Bounded (Option Instant) := do
  match ← r.nextDate d with
  | .none => return .none
  | some next => some <$> z.localize ⟨next, time⟩

variable {r : Rule}
variable {z : Zone}
variable {time : ClockTime}

theorem startAfterDate_cases
    {d : Date}
    {found : Option Instant}
    (hNext : r.startAfterDate z time d = .ok found) :
    (found = .none ∧ r.nextDate d = .ok .none) ∨
    ∃ later next, found = some next ∧
      r.nextDate d = .ok (some later) ∧
        z.localize ⟨later, time⟩ = .ok next := by
  unfold startAfterDate at hNext
  cases hDate : r.nextDate d with
  | error range =>
      rw [hDate] at hNext
      cases hNext
  | ok date =>
      simp only [hDate, bind, Except.bind] at hNext
      cases date with
      | none =>
          cases hNext
          exact Or.inl ⟨rfl, rfl⟩
      | some later =>
          simp only at hNext
          cases hPlaced : z.localize ⟨later, time⟩ with
          | error range =>
              rw [hPlaced] at hNext
              cases hNext
          | ok next =>
              rw [hPlaced] at hNext
              cases hNext
              exact Or.inr ⟨later, next, rfl, rfl, hPlaced⟩

/- A step is made on the date that the clocks show. -/
theorem nextAfter_of_toLocal
    {current : Instant}
    {here : LocalTime}
    (hHere : z.toLocal current = .ok here) :
    r.nextAfter z time current =
      r.startAfterDate z time here.date := by
  rw [nextAfter, hHere]
  rfl

theorem nextAfter_cases
    {current : Instant}
    {found : Option Instant}
    (hNext : r.nextAfter z time current = .ok found) :
    z.toLocal current = .ok (z.wallTime current) ∧
      r.startAfterDate z time (z.wallTime current).date =
        .ok found := by
  cases hHere : z.toLocal current with
  | error range =>
      rw [nextAfter, hHere] at hNext
      cases hNext
  | ok here =>
      rcases Zone.eq_wallTime_of_toLocal hHere with ⟨rfl, _⟩
      rw [nextAfter_of_toLocal hHere] at hNext
      exact ⟨rfl, hNext⟩

/- The first of some steps, and those that are left after it. -/
theorem exists_nextAfter_of_startsAfter
    {steps : Nat}
    {current : Instant}
    (hStarts :
      ∃ starts,
        r.startsAfter z time (steps + 1) current = .ok starts) :
    ∃ found, r.nextAfter z time current = .ok found ∧
      ∀ next, found = some next →
        ∃ starts, r.startsAfter z time steps next = .ok starts := by
  rcases hStarts with ⟨starts, hStarts⟩
  rw [startsAfter] at hStarts
  cases hNext : r.nextAfter z time current with
  | error range =>
      rw [hNext] at hStarts
      cases hStarts
  | ok found =>
      refine ⟨found, rfl, ?_⟩
      rintro next rfl
      simp only [hNext, bind, Except.bind] at hStarts
      cases hRest : r.startsAfter z time steps next with
      | error range =>
          rw [hRest] at hStarts
          cases hStarts
      | ok rest => exact ⟨rest, rfl⟩

------------------------------------------------------------
-- Dates That Starts Stand On
------------------------------------------------------------

/-
  A start stands on a date of the calendar when the zone
  places that date there, at the time of day of the series,
  and the pattern steps from the start past the date.
-/
structure StandsOn
    (r : Rule)
    (z : Zone)
    (time : ClockTime)
    (d : Date)
    (start : Instant) : Prop where
  inCalendar : d.InCalendar
  places : z.Places ⟨d, time⟩ start
  passes :
    ∀ next, r.nextDate (z.wallTime start).date =
      .ok (some next) → d < next

/- A local date is one of the calendar. -/
theorem inCalendar_of_toLocal
    {t : Instant}
    {here : LocalTime}
    (hHere : z.toLocal t = .ok here) :
    here.date.InCalendar := by
  rcases Zone.eq_wallTime_of_toLocal hHere with ⟨_, hInside⟩
  have hSecond := here.time.second_lt
  simp only [Instant.InCalendar, LocalTime.inUtc,
    secondsPerDay] at hInside hSecond
  change Date.first.dayNumber ≤ _ ∧ _ ≤ Date.last.dayNumber
  omega

/- The start of an event stands on its local date. -/
theorem standsOn_of_toLocal
    {start : Instant}
    {here : LocalTime}
    (hHere : z.toLocal start = .ok here) :
    r.StandsOn z here.time here.date start := by
  have hInside := inCalendar_of_toLocal hHere
  rcases Zone.eq_wallTime_of_toLocal hHere with ⟨rfl, _⟩
  refine ⟨hInside, Zone.places_wallTime start, ?_⟩
  intro next hNext
  exact lt_of_nextDate hNext

/-
  The start placed for a later date stands on that date.  A
  rule that steps over weeks passes it even if the clocks show
  the start a day too early; one that steps from month to
  month needs clocks that move no wall time back.
-/
theorem standsOn_of_localize
    {d : Date}
    {start : Instant}
    (hNear : z.OffsetsNear)
    (hForward : r.stepsByMonth = true → z.MovesForward)
    (hNanos : time.nanos < 2 * nanosPerSecond)
    (hInside : d.InCalendar)
    (hStart : z.localize ⟨d, time⟩ = .ok start) :
    r.StandsOn z time d start := by
  have hPlaces := Zone.places_of_localize hNanos hStart
  refine ⟨hInside, hPlaces, ?_⟩
  intro next hNext
  cases hMonths : r.stepsByMonth with
  | true =>
      have hShown :=
        (hForward hMonths).le_date hNanos hStart
      have hLater := lt_of_nextDate hNext
      rw [Date.lt_def] at hLater ⊢
      exact Int.lt_of_le_of_lt hShown hLater
  | false =>
      have hShown := Zone.le_date_of_places hNear hPlaces
      have hLater := week_le_of_nextDate hMonths hNext
      simp only at hShown
      rw [Date.lt_def]
      omega

/- A step leads to a later start, which stands on a later date. -/
theorem standsOn_of_nextAfter
    {d : Date}
    {start next : Instant}
    (hNear : z.OffsetsNear)
    (hForward : r.stepsByMonth = true → z.MovesForward)
    (hNanos : time.nanos < 2 * nanosPerSecond)
    (hStands : r.StandsOn z time d start)
    (hNext : r.nextAfter z time start = .ok (some next)) :
    start < next ∧
      ∃ later, d < later ∧ r.StandsOn z time later next := by
  rcases startAfterDate_cases (nextAfter_cases hNext).2 with
    ⟨hNone, _⟩ | ⟨later, placed, hSome, hDate, hPlaced⟩
  · cases hNone
  · cases hSome
    have hLater := hStands.passes later hDate
    have hNextStands :=
      standsOn_of_localize hNear hForward hNanos
        (inCalendar_of_nextDate hDate) hPlaced
    exact ⟨Zone.lt_of_places hNear hLater hStands.places
      hNextStands.places, later, hLater, hNextStands⟩

------------------------------------------------------------
-- Starts Set At A Time Of Day
------------------------------------------------------------

/-
  A step leads to a later start, set at the same time of day.
  Over a week the offsets of the zone are too short to make up
  for the days between; over the end of a month it may be one
  day, and depends on how far the clocks are set back.
-/
theorem lt_of_nextAfter
    {start next : Instant}
    (hShort : z.OffsetsShort)
    (hMonths :
      r.stepsByMonth = true → z.Spaced ∧ z.FoldsShort)
    (hNanos : time.nanos < 2 * nanosPerSecond)
    (hSet : z.SetAt time start)
    (hNext : r.nextAfter z time start = .ok (some next)) :
    start < next ∧ z.SetAt time next := by
  rcases startAfterDate_cases (nextAfter_cases hNext).2 with
    ⟨hNone, _⟩ | ⟨later, placed, hSome, hDate, hPlaced⟩
  · cases hNone
  · cases hSome
    refine ⟨?_, Or.inr ⟨later, hPlaced⟩⟩
    cases hSteps : r.stepsByMonth with
    | true =>
        rcases hMonths hSteps with ⟨hSpaced, hFolds⟩
        exact Zone.SetAt.lt_of_localize hSpaced hShort hNanos
          (lt_of_nextDate hDate) hPlaced hFolds hSet
    | false =>
        exact Zone.lt_of_places_of_week hShort
          (week_le_of_nextDate hSteps hDate)
          (Zone.places_of_localize hNanos hPlaced)

end Rule

end EventSeries
