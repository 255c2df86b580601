import EventSeries.Proofs.Event.Instants
import EventSeries.Proofs.Rule.Range
import EventSeries.Proofs.Series.Modes
import EventSeries.Settings

/-
  Series inside the years 1 to 9999.  With all its instants
  and the horizon in these years, no run comes near the ends
  of the calendar: the horizon stops a walk on the first date
  behind it, however many attempts and occurrences are asked
  for, and a step from a date in reach leads no further than
  two months.

  Main declarations:
    * `Event.occurrenceAt_meets`
    * `WalkPlan.visit_meets`
    * `WalkPlan.next?_meets`
    * `WalkPlan.walkFrom_in_range`
    * `Event.ManualInYears`
    * `Generator.series_in_range`
    * `Settings.defaultHorizon_meets`
-/

namespace EventSeries

------------------------------------------------------------
-- Plain Occurrences
------------------------------------------------------------

namespace Event

variable {e : Event}
variable (hEvent : ∀ t ∈ e.instants, t.InYears)
include hEvent

/- The times that an event has lie in the years. -/
theorem times_near :
    (∀ t, e.startsAt = some t → t.Near 0) ∧
      (∀ t, e.nextStart = some t → t.Near 0) ∧
      (∀ t, e.doorsAt = some t → t.Near 0) ∧
      (∀ t, e.endsAt = some t → t.Near 0) ∧
      ∀ t, e.curfewAt = some t → t.Near 0 := by
  refine ⟨?_, ?_, ?_, ?_, ?_⟩
  all_goals
    intro t hTime
    apply Instant.InYears.near
    apply hEvent
    simp [instants, hTime]

theorem referenceStart?_near :
    ∀ r, e.referenceStart? = some r → r.Near 0 := by
  rcases times_near hEvent with ⟨hStart, hNext, _⟩
  intro r hReference
  rcases Option.or_eq_some_iff.mp hReference with
    hStarts | ⟨_, hCached⟩
  · exact hStart r hStarts
  · exact hNext r hCached

/- At any start near to the years there is an occurrence. -/
theorem occurrenceAt_meets
    {start : Instant}
    {slack : Int}
    (hStart : start.Near slack)
    (hSlack : slack ≤ 4000000000000) :
    (e.occurrenceAt start).Meets fun _ => True := by
  have hReference := referenceStart?_near hEvent
  rcases times_near hEvent with ⟨_, _, hDoors, hEnd, hCurfew⟩
  apply (Offsets.timeAt_meets hStart hSlack hReference
    hDoors).bind
  intro doors _
  apply (Offsets.timeAt_meets hStart hSlack hReference hEnd).bind
  intro finish _
  apply (Offsets.timeAt_meets hStart hSlack hReference
    hCurfew).bind
  intro curfew _
  exact ⟨_, rfl, trivial⟩

end Event

------------------------------------------------------------
-- Walks
------------------------------------------------------------

namespace WalkPlan

variable {p : WalkPlan}
variable {horizon : Instant}
variable {slack : Int}

/- A date of a walk that began in the years. -/
structure FromYears
    (date : Instant) : Prop where
  first : firstSecond ≤ date.seconds
  nanos : date.nanos < 2 * nanosPerSecond

variable (hEvent : ∀ t ∈ p.event.instants, t.InYears)
variable (hNanos : p.timeOfDay.nanos < 2 * nanosPerSecond)
variable (hShort : p.zone.OffsetsShort)
variable (hHorizon : p.options.horizonEnd = some horizon)
variable (hNear : horizon.Near slack)
variable (hSlack : 0 ≤ slack ∧ slack ≤ 5000000000)

section

include hHorizon hNear hSlack

/- The horizon keeps the dates in reach near to the years. -/
theorem near_of_withinHorizon
    {date : Instant}
    (hFrom : FromYears date)
    (hWithin : p.options.withinHorizon date = true) :
    date.Near slack := by
  rw [SeriesOptions.withinHorizon, hHorizon, Option.all_some,
    decide_eq_true_eq, Instant.le_def] at hWithin
  have hFirst := hFrom.first
  have hLast := hNear.last
  exact ⟨by omega, by omega, hFrom.nanos⟩

include hEvent in
/- A visit stays in range, and ends the walk past the horizon. -/
theorem visit_meets
    {date : Instant}
    (hFrom : FromYears date) :
    (p.visit date).Meets fun visit =>
      visit = .pastHorizon ∨ date.Near slack := by
  cases hWithin : p.options.withinHorizon date with
  | false => exact ⟨.pastHorizon, by simp [visit, hWithin], .inl rfl⟩
  | true =>
      have hDate :=
        near_of_withinHorizon hHorizon hNear hSlack hFrom hWithin
      have hFound : ∃ visit, p.visit date = .ok visit := by
        rw [visit, hWithin]
        split
        · exact ⟨_, rfl⟩
        · split
          · exact ⟨_, rfl⟩
          · exact ⟨_, rfl⟩
          · unfold visitPlain
            split
            · exact ⟨_, rfl⟩
            · split
              · rcases Event.occurrenceAt_meets hEvent hDate
                    (by omega) with
                  ⟨o, hAt, _⟩
                rw [hAt]
                exact ⟨_, rfl⟩
              · exact ⟨_, rfl⟩
      rcases hFound with ⟨visit, hVisit⟩
      exact ⟨visit, hVisit, .inr hDate⟩

end

section

include hNanos hShort

/- A step stays in range, and leads to a later date. -/
theorem next?_meets
    {date : Instant}
    (hDate : date.Near slack)
    (hSlack : slack ≤ 5000000000)
    (hFrom : FromYears date) :
    (p.next? date).Meets fun found =>
      ∀ next, found = some next → FromYears next := by
  apply (Rule.nextAfter_meets hShort hNanos hDate
    (by omega)).bind
  intro found hFound
  refine ⟨_, rfl, ?_⟩
  intro next hNext
  rcases Option.filter_eq_some_iff.mp hNext with ⟨hSome, hLater⟩
  rw [decide_eq_true_eq, Instant.lt_def] at hLater
  have hFirst := hFrom.first
  exact ⟨by omega, (hFound next hSome).nanos⟩

include hEvent hHorizon hNear hSlack

/-
  No walk from a date in the years leaves the calendar.  The
  induction is on the attempts; they may be as many as one
  likes, since a date past the horizon is the last.
-/
theorem walkFrom_in_range
    (n : Nat)
    (date : Instant)
    (s : WalkState)
    (hFrom : FromYears date)
    (range : OutOfRange) :
    (p.walkFrom n date s).stop ≠ .outOfRange range := by
  induction n generalizing date s with
  | zero =>
      intro hStop
      cases hStop
  | succ n ih =>
      rcases visit_meets hEvent hHorizon hNear hSlack hFrom with
        ⟨visit, hVisit, hPast⟩
      simp only [walkFrom, hVisit]
      split
      · intro hStop
        cases hStop
      · split
        · intro hStop
          cases hStop
        · have hDate := hPast.resolve_left ‹_›
          rcases next?_meets hNanos hShort hDate hSlack.2
              hFrom with
            ⟨found, hNext, hLater⟩
          rw [hNext]
          cases found with
          | none =>
              intro hStop
              cases hStop
          | some next => exact ih next _ (hLater next rfl)

end

/- A walk counts no more dates than it has attempts. -/
theorem walkFrom_examined_le
    (p : WalkPlan)
    (n : Nat)
    (date : Instant)
    (s : WalkState) :
    (p.walkFrom n date s).state.examined ≤ s.examined + n := by
  induction n generalizing date s with
  | zero => exact Nat.le_refl _
  | succ n ih =>
      have hCounted (visit : Visit) :
          (s.record p.event.id date visit).examined =
            s.examined + 1 := by
        cases visit <;> rfl
      rw [walkFrom]
      cases p.visit date with
      | error range => exact Nat.le_add_right _ _
      | ok visit =>
          have hOne := hCounted visit
          simp only
          generalize s.record p.event.id date visit = s' at hOne
          split
          · simp only
            omega
          · split
            · simp only
              omega
            · split
              · simp only
                omega
              · simp only
                omega
              · have hRest := ih ‹_› s'
                omega

end WalkPlan

------------------------------------------------------------
-- Dates Listed By Hand
------------------------------------------------------------

/-
  A reading of a listed date lies in the years: as the instant
  that it is, or on the wall or at the instant found for it.
-/
def ManualDate.Reading.InYears
    (z : Zone) : Reading → Prop
  | .instant t => t.InYears
  | .wall l =>
      l.inUtc.InYears ∨ ∃ t, z.localize l = .ok t ∧ t.InYears

/- The readings of all entries that can be read do. -/
def Event.ManualInYears
    (e : Event)
    (z : Zone) : Prop :=
  ∀ entry ∈ e.manualEntries, ∀ r,
    ManualDate.reading? (trimChars entry.toList) = some r →
      r.InYears z

section

variable {z : Zone}
variable (hShort : z.OffsetsShort)
include hShort

theorem ManualDate.Reading.instantIn_meets
    {r : Reading}
    (hYears : r.InYears z) :
    (r.instantIn z).Meets (·.Near (2 * secondsPerDay)) := by
  cases r with
  | instant t =>
      exact ⟨t, rfl, hYears.near.mono (by decide)⟩
  | wall l =>
      rcases hYears with hWall | ⟨t, hFound, hInYears⟩
      · exact (Zone.localize_meets hShort hWall.near
          (by decide)).mono fun _ hPlaced =>
            hPlaced.mono (by decide)
      · exact ⟨t, hFound, hInYears.near.mono (by decide)⟩

/- Entries that cannot be read are dropped, and no others. -/
theorem Event.readEntries_meets
    {event : Id}
    {entries : List String}
    (hYears :
      ∀ entry ∈ entries, ∀ r,
        ManualDate.reading? (trimChars entry.toList) = some r →
          r.InYears z) :
    (readEntries z event entries).value.Meets fun ts =>
      ∀ t ∈ ts, t.Near (2 * secondsPerDay) := by
  induction entries with
  | nil => exact ⟨[], rfl, nofun⟩
  | cons entry entries ih =>
      have hLater :=
        ih fun other hOther =>
          hYears other (List.mem_cons_of_mem entry hOther)
      have hHere := hYears entry List.mem_cons_self
      unfold readEntries ManualDate.parse
      cases hReading :
          ManualDate.reading? (trimChars entry.toList) with
      | none => exact hLater
      | some r =>
          rcases ManualDate.Reading.instantIn_meets hShort
              (hHere r hReading) with
            ⟨t, hInstant, hNear⟩
          simp only [hInstant]
          apply hLater.map
          intro ts hAll u hMember
          rcases List.mem_cons.mp hMember with rfl | hRest
          · exact hNear
          · exact hAll u hRest

theorem Event.manualDates_meets
    {e : Event}
    (hManual : e.ManualInYears z) :
    (e.manualDates z).value.Meets fun ts =>
      ∀ t ∈ ts, t.Near (2 * secondsPerDay) := by
  apply (readEntries_meets hShort hManual).map
  intro ts hAll t hMember
  exact hAll t (List.mem_mergeSort.mp hMember)

end

------------------------------------------------------------
-- Series
------------------------------------------------------------

namespace Generator

variable {g : Generator}
variable {e : Event}
variable {records : List ExceptionRecord}
variable {windows : List HolidayWindow}
variable {o : SeriesOptions}

variable (hEvent : ∀ t ∈ e.instants, t.InYears)
variable (hRecords :
  ∀ r ∈ records, ∀ t ∈ r.instants, t.InYears)
include hEvent hRecords

/- A walk begins at a time of the event or on a recorded date. -/
theorem anchor?_near
    {anchor : Instant}
    (hAnchor :
      anchor? e (.ofList e.id records) = some anchor) :
    anchor.Near 0 := by
  rcases Event.times_near hEvent with ⟨hStart, hNext, _⟩
  rcases Option.bind_eq_some_iff.mp hAnchor with
    ⟨start, hStarts, hFrom⟩
  have hOwn : start.Near 0 := by
    unfold Event.anchorStart? at hStarts
    split at hStarts
    · rcases Option.or_eq_some_iff.mp hStarts with
        hCached | ⟨_, hStarts⟩
      · exact hNext start hCached
      · exact hStart start hStarts
    · exact hStart start hStarts
  split at hFrom
  · have hEq :
        (ExceptionIndex.ofList e.id records).anchorFor start =
          anchor :=
      Option.some.inj hFrom
    rcases ExceptionIndex.anchorFor_cases
        (ExceptionIndex.isFirst_ofList e.id records) start with
      ⟨t, hOverride⟩ | ⟨hSelf, _⟩
    · rw [hEq] at hOverride
      rcases ExceptionIndex.overrideStartOn?_eq_some_iff.mp
          hOverride with
        ⟨r, _, hRecord, _⟩
      rcases ExceptionIndex.mem_of_record?_ofList hRecord with
        ⟨hMember, _, rfl⟩
      exact (hRecords r hMember _ List.mem_cons_self).near
    · rw [← hEq, hSelf]
      exact hOwn
  · cases hFrom
    exact hOwn

/-
  No series leaves the calendar whose event, records and
  horizon lie in the years 1 to 9999, or whose horizon lies
  not much behind them.
-/
theorem series_in_range
    {horizon : Instant}
    {slack : Int}
    (hShort : g.zone.OffsetsShort)
    (hManual : e.ManualInYears g.zone)
    (hHorizon : o.horizonEnd = some horizon)
    (hNear : horizon.Near slack)
    (hSlack : 0 ≤ slack ∧ slack ≤ 5000000000) :
    ∃ os, g.series e records windows o = .ok os := by
  by_cases hNone : o.maxOccurrences = 0
  · exact ⟨[], series_of_none_wanted hNone g e records windows⟩
  · have hWanted : 0 < o.maxOccurrences := by omega
    rcases Event.manualDates_meets hShort hManual with
      ⟨dates, hDates, hListed⟩
    cases dates with
    | cons first rest =>
        rw [series_of_manual hDates hWanted]
        apply exists_mapM_eq_ok
        intro date hKept
        have hMember : date ∈ first :: rest :=
          List.mem_of_mem_filter (List.mem_of_mem_take hKept)
        rcases Event.occurrenceAt_meets hEvent
            (hListed date hMember) (by decide) with
          ⟨x, hAt, _⟩
        exact ⟨x, hAt⟩
    | nil =>
        cases hAnchor : anchor? e (.ofList e.id records) with
        | none => exact ⟨[], series_of_no_anchor hDates hAnchor windows⟩
        | some anchor =>
            have hFrom := anchor?_near hEvent hRecords hAnchor
            cases hRecurring : e.isRecurring with
            | false =>
                rw [anchor?_of_single hRecurring] at hAnchor
                rw [series_of_single hRecurring hDates hAnchor
                  hWanted]
                rcases Event.occurrenceAt_meets hEvent hFrom
                    (by decide) with
                  ⟨x, hAt, _⟩
                simp only [singleSeries, hAt, bind, Except.bind]
                exact ⟨_, rfl⟩
            | true =>
                have hStart : (e.startsAt.getD anchor).Near 0 := by
                  cases hStarts : e.startsAt with
                  | none => exact hFrom
                  | some start =>
                      exact (Event.times_near hEvent).1 start
                        hStarts
                rcases Zone.toLocal_meets hShort hStart
                    (by decide) with
                  ⟨here, hHere, _, hLocal⟩
                have hTime : g.timeOfDay e anchor = .ok here.time := by
                  simp only [timeOfDay, hHere, bind, Except.bind]
                  rfl
                rw [series_eq_walk hRecurring hDates hAnchor
                  hWanted hTime]
                have hStop :=
                  WalkPlan.walkFrom_in_range
                    (p := g.plan e (.ofList e.id records) windows
                      o here.time)
                    hEvent hLocal.nanos hShort hHorizon hNear
                    hSlack (g.maxAttempts o) anchor {}
                    ⟨by
                      have hFirst := hFrom.first
                      omega, hFrom.nanos⟩
                rw [WalkPlan.walk]
                unfold WalkEnd.occurrences
                split
                · exact absurd ‹_› (hStop _)
                · exact ⟨_, rfl⟩

end Generator

------------------------------------------------------------
-- Horizons
------------------------------------------------------------

/- The horizon of the settings lies a hundred years ahead at most. -/
theorem Settings.defaultHorizon_meets
    {s : Settings}
    {z : Zone}
    {now : Instant}
    (hShort : z.OffsetsShort)
    (hNow : now.InYears) :
    (s.defaultHorizon z now).Meets (·.Near 5000000000) := by
  apply (Zone.toLocal_meets hShort hNow.near (by decide)).bind
  rintro here ⟨_, hHere⟩
  apply (LocalTime.addMonths_meets hHere (by decide)
    (Nat.min_le_right _ _)).bind
  intro l hAhead
  apply (Zone.localize_meets hShort hAhead (by decide)).mono
  intro t hPlaced
  exact hPlaced.mono (by decide)

end EventSeries
