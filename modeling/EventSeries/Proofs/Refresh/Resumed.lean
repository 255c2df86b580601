import EventSeries.Proofs.Refresh.Basic
import EventSeries.Proofs.Series.Membership
import EventSeries.Proofs.Series.Resumed

/-
  Series of an event with a cached start, for a horizon and a
  number of occurrences that the whole series leaves room in.
  Where the cached start resumes the walk without losing an
  upcoming date, listings and refreshes cannot tell the event
  from the one that was never refreshed.

  Main declarations:
    * `Scheduler.refreshPlan`
    * `Scheduler.SameSchedule`
    * `Scheduler.HasRoom`
    * `Scheduler.SettlesOn`
    * `Scheduler.SettlesOn.sameSchedule_of_resumes`
    * `Scheduler.first_refresh`
-/

namespace EventSeries

namespace Scheduler

------------------------------------------------------------
-- Plans Of Refreshes
------------------------------------------------------------

/- The plan of the walk that a refresh makes. -/
def refreshPlan
    (s : Scheduler)
    (e : Event)
    (records : List ExceptionRecord)
    (windows : List HolidayWindow)
    (maxOccurrences : Nat)
    (horizon : Instant)
    (time : ClockTime) : WalkPlan :=
  s.generator.plan e (.ofList e.id records) windows
    (refreshOptions maxOccurrences horizon) time

/- The options of a refresh, without past occurrences. -/
def upcomingOptions
    (maxOccurrences : Nat)
    (horizon : Instant) : SeriesOptions where
  maxOccurrences := maxOccurrences
  horizonEnd := some horizon

/-
  Two events have the same series without past occurrences,
  and a refresh gives both the same start.
-/
structure SameSchedule
    (s : Scheduler)
    (e other : Event)
    (records : List ExceptionRecord)
    (windows : List HolidayWindow)
    (maxOccurrences : Nat)
    (horizon : Instant) : Prop where
  series :
    ∃ os,
      s.series e records windows
        (upcomingOptions maxOccurrences horizon) = .ok os ∧
      s.series other records windows
        (upcomingOptions maxOccurrences horizon) = .ok os
  refresh :
    ∃ next,
      s.RefreshesTo e records windows maxOccurrences
        (some horizon) next ∧
      s.RefreshesTo other records windows maxOccurrences
        (some horizon) next

/-
  Some occurrences are wanted, and the walk from the start of
  the event, with past ones included, is stopped neither by
  their count nor by the number of attempts.
-/
structure HasRoom
    (s : Scheduler)
    (e : Event)
    (records : List ExceptionRecord)
    (windows : List HolidayWindow)
    (maxOccurrences : Nat)
    (horizon : Instant) : Prop where
  wanted : 0 < maxOccurrences
  uncut :
    ∀ start time, e.startsAt = some start →
      s.generator.timeOfDay e start = .ok time →
        let finish := (s.refreshPlan e records windows
          maxOccurrences horizon time).walk start
        finish.stop ≠ .filled ∧
          finish.stop ≠ .attemptsExhausted

/-
  A recurring event without manual dates whose walk from its
  start settles on the listed dates.
-/
structure SettlesOn
    (s : Scheduler)
    (e : Event)
    (records : List ExceptionRecord)
    (windows : List HolidayWindow)
    (maxOccurrences : Nat)
    (horizon start : Instant)
    (time : ClockTime)
    (dates : List Instant) : Prop where
  recurring : e.isRecurring = true
  manual : (e.manualDates s.zone).value = .ok []
  starts : e.startsAt = some start
  timeOfDay : s.generator.timeOfDay e start = .ok time
  settled :
    (s.refreshPlan e records windows maxOccurrences horizon
      time).Settled start dates

variable {s : Scheduler}
variable {e : Event}
variable {records : List ExceptionRecord}
variable {windows : List HolidayWindow}
variable {maxOccurrences : Nat}
variable {horizon start : Instant}
variable {time : ClockTime}
variable {dates : List Instant}

/- A walk that the horizon stops is not cut short. -/
theorem HasRoom.of_horizon
    (hWanted : 0 < maxOccurrences)
    (hStart : e.startsAt = some start)
    (hTime : s.generator.timeOfDay e start = .ok time)
    (hStop :
      ((s.refreshPlan e records windows maxOccurrences horizon
        time).walk start).stop = .horizon) :
    s.HasRoom e records windows maxOccurrences horizon := by
  refine ⟨hWanted, ?_⟩
  intro other otherTime hOther hOtherTime
  rw [hStart, Option.some.injEq] at hOther
  subst hOther
  rw [hTime, Except.ok.injEq] at hOtherTime
  subst hOtherTime
  simp [hStop]

/- The series of the event with a cache is a walk. -/
theorem series_eq_walk
    (hRecurring : e.isRecurring = true)
    (hManual : (e.manualDates s.zone).value = .ok [])
    (hStart : e.startsAt = some start)
    (hTime : s.generator.timeOfDay e start = .ok time)
    (hWanted : 0 < maxOccurrences)
    (cached : Option Instant)
    (present : Instant)
    (includePast : Bool) :
    (s.movedTo present).series (e.withCache cached) records
        windows ⟨maxOccurrences, includePast, some horizon⟩ =
      (((s.refreshPlan e records windows maxOccurrences horizon
        time).seenAt present includePast).walk
          ((ExceptionIndex.ofList e.id records).walkStart start
            cached)).occurrences :=
  Generator.series_withCache (g := (s.movedTo present).generator)
    hRecurring hManual hStart hWanted hTime records cached

/- An event that has room and a series settles on dates. -/
theorem exists_settlesOn
    {present : Instant}
    {os : List Occurrence}
    (hRecurring : e.isRecurring = true)
    (hManual : (e.manualDates s.zone).value = .ok [])
    (hStart : e.startsAt = some start)
    (hUncached : e.nextStart = none)
    (hRoom :
      s.HasRoom e records windows maxOccurrences horizon)
    (hSeries :
      (s.movedTo present).series e records windows
        (refreshOptions maxOccurrences horizon) = .ok os) :
    ∃ time dates,
      s.SettlesOn e records windows maxOccurrences horizon
        start time dates := by
  rw [← Event.withCache_self hUncached] at hSeries
  rcases
      Generator.exists_timeOfDay_of_series
        (g := (s.movedTo present).generator) hRecurring hManual
        hStart hRoom.wanted hSeries with
    ⟨time, hTime⟩
  have hWalk :
      (s.movedTo present).series (e.withCache none) records
          windows (refreshOptions maxOccurrences horizon) =
        _ :=
    series_eq_walk hRecurring hManual hStart hTime
      hRoom.wanted none present true
  rw [WalkPlan.walk_seenAt rfl] at hWalk
  rcases hRoom.uncut start time hStart hTime with
    ⟨hFilled, hAttempts⟩
  rcases
      WalkPlan.settled_of_walk rfl hRoom.wanted
        (hWalk.symm.trans hSeries) hFilled hAttempts with
    ⟨dates, hSettled⟩
  exact ⟨time, dates, hRecurring, hManual, hStart, hTime,
    hSettled⟩

------------------------------------------------------------
-- Series From A Cached Start
------------------------------------------------------------

namespace SettlesOn

variable (hSettles :
  s.SettlesOn e records windows maxOccurrences horizon start
    time dates)
include hSettles

theorem wanted : 0 < maxOccurrences :=
  Nat.zero_lt_of_lt hSettles.settled.room

/- A date of the series not after a settled one is settled. -/
theorem mem_of_hasDate
    {date settled : Instant}
    (hDate : e.HasDate s.zone date)
    (hMember : settled ∈ dates)
    (hLe : date ≤ settled) :
    date ∈ dates := by
  have hFrom :=
    (Generator.hasDate_iff (g := s.generator) hSettles.starts
      hSettles.timeOfDay).mp hDate
  exact WalkPlan.mem_of_le hSettles.settled.settles hFrom
    hMember hLe

/- Without a cached start the walk is the settled one. -/
theorem settled_uncached :
    (s.refreshPlan e records windows maxOccurrences horizon
      time).Settled
        ((ExceptionIndex.ofList e.id records).walkStart start
          none) dates :=
  hSettles.settled

theorem resumes_uncached
    (now : Instant) :
    (s.refreshPlan e records windows maxOccurrences horizon
      time).Resumes dates now
        ((ExceptionIndex.ofList e.id records).walkStart start
          none) :=
  hSettles.settled_uncached.resumes now

/- The occurrences of a listing without past ones. -/
theorem series_upcoming
    {later : List Instant}
    {cached : Option Instant}
    (hLater :
      (s.refreshPlan e records windows maxOccurrences horizon
        time).Settled
          ((ExceptionIndex.ofList e.id records).walkStart start
            cached) later)
    (present : Instant) :
    (s.movedTo present).series (e.withCache cached) records
        windows (upcomingOptions maxOccurrences horizon) =
      .ok (sortOccurrences (upcoming present
        ((s.refreshPlan e records windows maxOccurrences horizon
          time).occurrencesOn later))) := by
  calc (s.movedTo present).series (e.withCache cached) records
        windows (upcomingOptions maxOccurrences horizon)
      = (((s.refreshPlan e records windows maxOccurrences
          horizon time).seenAt present false).walk
            ((ExceptionIndex.ofList e.id records).walkStart
              start cached)).occurrences :=
        series_eq_walk hSettles.recurring hSettles.manual
          hSettles.starts hSettles.timeOfDay hSettles.wanted
          cached present false
    _ = _ := hLater.occurrences_upcoming present

/- The occurrences of a refresh. -/
theorem series_withPast
    {later : List Instant}
    {cached : Option Instant}
    (hLater :
      (s.refreshPlan e records windows maxOccurrences horizon
        time).Settled
          ((ExceptionIndex.ofList e.id records).walkStart start
            cached) later)
    (present : Instant) :
    (s.movedTo present).series (e.withCache cached) records
        windows (refreshOptions maxOccurrences horizon) =
      .ok (sortOccurrences
        ((s.refreshPlan e records windows maxOccurrences horizon
          time).occurrencesOn later)) := by
  calc (s.movedTo present).series (e.withCache cached) records
        windows (refreshOptions maxOccurrences horizon)
      = (((s.refreshPlan e records windows maxOccurrences
          horizon time).seenAt present true).walk
            ((ExceptionIndex.ofList e.id records).walkStart
              start cached)).occurrences :=
        series_eq_walk hSettles.recurring hSettles.manual
          hSettles.starts hSettles.timeOfDay hSettles.wanted
          cached present true
    _ = _ := hLater.occurrences_withPast present

------------------------------------------------------------
-- Resumed Series
------------------------------------------------------------

section

variable {cached : Option Instant}
variable {now present : Instant}
variable (hResumes :
  (s.refreshPlan e records windows maxOccurrences horizon
    time).Resumes dates now
      ((ExceptionIndex.ofList e.id records).walkStart start
        cached))
variable (hLe : now ≤ present)
include hResumes hLe

/- A resumed listing shows what is upcoming on all dates. -/
theorem series_of_resumes :
    (s.movedTo present).series (e.withCache cached) records
        windows (upcomingOptions maxOccurrences horizon) =
      .ok (sortOccurrences (upcoming present
        ((s.refreshPlan e records windows maxOccurrences horizon
          time).occurrencesOn dates))) := by
  rcases hResumes.exists_settled hSettles.settled hLe with
    ⟨later, hLater, hSame⟩
  rw [hSettles.series_upcoming hLater, hSame]

/- A resumed refresh finds the earliest start on all dates. -/
theorem withPast_of_resumes :
    ∃ os,
      (s.movedTo present).series (e.withCache cached) records
          windows (refreshOptions maxOccurrences horizon) =
        .ok os ∧
      (e.withCache cached).upcomingStart? present os =
        earliestUpcoming? present
          ((s.refreshPlan e records windows maxOccurrences
            horizon time).occurrencesOn dates) := by
  rcases hResumes.exists_settled hSettles.settled hLe with
    ⟨later, hLater, hSame⟩
  refine ⟨_, hSettles.series_withPast hLater present, ?_⟩
  rw [Event.upcomingStart?, Event.withCache_isRecurring,
    if_pos hSettles.recurring]
  apply earliestUpcoming?_congr
  intro o
  rw [← hSame, mem_upcoming, mem_upcoming, mem_sortOccurrences]

theorem refreshesTo_of_resumes :
    (s.movedTo present).RefreshesTo (e.withCache cached) records
      windows maxOccurrences (some horizon)
      (earliestUpcoming? present
        ((s.refreshPlan e records windows maxOccurrences horizon
          time).occurrencesOn dates)) := by
  rcases hSettles.withPast_of_resumes hResumes hLe with
    ⟨os, hSeries, hUpcoming⟩
  rw [← hUpcoming]
  exact refreshesTo_of_series rfl hSeries

/- A refresh of the resumed event that succeeds caches it. -/
theorem refresh_event_of_resumes
    {σ : Type}
    [StartStore σ]
    {store : σ}
    {out : RefreshOutcome}
    (hDone :
      ((s.movedTo present).refresh (e.withCache cached) records
        windows maxOccurrences (some horizon) store).outcome =
          .ok out) :
    ((s.movedTo present).refresh (e.withCache cached) records
        windows maxOccurrences (some horizon) store).event =
      e.withCache (earliestUpcoming? present
        ((s.refreshPlan e records windows maxOccurrences horizon
          time).occurrencesOn dates)) := by
  rcases refresh_of_ok hDone with
    ⟨other, hOther, hSeries, hNext, hEvent⟩
  cases hOther
  rcases hSettles.withPast_of_resumes hResumes hLe with
    ⟨os, hOs, hUpcoming⟩
  rw [hOs, Except.ok.injEq] at hSeries
  rw [hEvent, hNext, ← hSeries, Event.withCache_withCache,
    ← hUpcoming]
  rfl

end

------------------------------------------------------------
-- The Untouched Event
------------------------------------------------------------

theorem series_uncached
    (hUncached : e.nextStart = none)
    (present : Instant) :
    (s.movedTo present).series e records windows
        (upcomingOptions maxOccurrences horizon) =
      .ok (sortOccurrences (upcoming present
        ((s.refreshPlan e records windows maxOccurrences horizon
          time).occurrencesOn dates))) := by
  have hSeries :=
    hSettles.series_upcoming hSettles.settled_uncached present
  rw [Event.withCache_self hUncached] at hSeries
  exact hSeries

theorem refreshesTo_uncached
    (hUncached : e.nextStart = none)
    (present : Instant) :
    (s.movedTo present).RefreshesTo e records windows
      maxOccurrences (some horizon)
      (earliestUpcoming? present
        ((s.refreshPlan e records windows maxOccurrences horizon
          time).occurrencesOn dates)) := by
  have hRefreshes :=
    hSettles.refreshesTo_of_resumes
      (hSettles.resumes_uncached present) (Std.le_refl present)
  rw [Event.withCache_self hUncached] at hRefreshes
  exact hRefreshes

/- A resumed event cannot be told from the untouched one. -/
theorem sameSchedule_of_resumes
    {cached : Option Instant}
    {now present : Instant}
    (hUncached : e.nextStart = none)
    (hResumes :
      (s.refreshPlan e records windows maxOccurrences horizon
        time).Resumes dates now
          ((ExceptionIndex.ofList e.id records).walkStart start
            cached))
    (hLe : now ≤ present) :
    (s.movedTo present).SameSchedule (e.withCache cached) e
      records windows maxOccurrences horizon where
  series :=
    ⟨_, hSettles.series_of_resumes hResumes hLe,
      hSettles.series_uncached hUncached present⟩
  refresh :=
    ⟨_, hSettles.refreshesTo_of_resumes hResumes hLe,
      hSettles.refreshesTo_uncached hUncached present⟩

end SettlesOn

------------------------------------------------------------
-- First Refreshes
------------------------------------------------------------

/-
  A refresh of an event without a cached start settles its
  dates, returns what is on them, and caches the earliest
  upcoming start.
-/
theorem first_refresh
    {σ : Type}
    [StartStore σ]
    {store : σ}
    {now : Instant}
    {out : RefreshOutcome}
    (hRecurring : e.isRecurring = true)
    (hManual : (e.manualDates s.zone).value = .ok [])
    (hStart : e.startsAt = some start)
    (hUncached : e.nextStart = none)
    (hRoom :
      s.HasRoom e records windows maxOccurrences horizon)
    (hDone :
      ((s.movedTo now).refresh e records windows maxOccurrences
        (some horizon) store).outcome = .ok out) :
    ∃ time dates,
      s.SettlesOn e records windows maxOccurrences horizon
        start time dates ∧
      (let p := s.refreshPlan e records windows maxOccurrences
        horizon time
      (∀ o, o ∈ out.occurrences ↔ o ∈ p.occurrencesOn dates) ∧
        out.nextStart =
          earliestUpcoming? now (p.occurrencesOn dates)) ∧
      ((s.movedTo now).refresh e records windows maxOccurrences
        (some horizon) store).event =
          e.withCache out.nextStart := by
  rcases refresh_of_ok hDone with
    ⟨other, hOther, hSeries, hNext, hEvent⟩
  cases hOther
  rcases
      exists_settlesOn hRecurring hManual hStart hUncached hRoom
        hSeries with
    ⟨time, dates, hSettles⟩
  refine ⟨time, dates, hSettles, ?_, hEvent⟩
  have hAll :=
    hSettles.series_withPast hSettles.settled_uncached now
  rw [Event.withCache_self hUncached, hSeries, Except.ok.injEq]
    at hAll
  refine ⟨?_, ?_⟩
  · intro o
    rw [hAll, mem_sortOccurrences]
  · rw [hNext, Event.upcomingStart?, if_pos hRecurring]
    apply earliestUpcoming?_congr
    intro o
    rw [hAll, mem_upcoming, mem_upcoming, mem_sortOccurrences]

end Scheduler

end EventSeries
