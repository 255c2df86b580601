import EventSeries.Scheduler
import EventSeries.Store

/-
  This file keeps the cached start of an event up to date.  A
  refresh computes the series with past occurrences included
  and caches the earliest start from the present on; an event
  that does not recur has nothing to cache.  The cache is
  written only when it changes.

  Key definitions include:
    * `RefreshOutcome`
    * `Refreshed`
    * `Event.upcomingStart?`
    * `applyRefresh`
    * `Scheduler.refresh`
-/

namespace EventSeries

------------------------------------------------------------
-- Outcomes
------------------------------------------------------------

/- What a refresh found, and whether it wrote. -/
structure RefreshOutcome where
  nextStart : Option Instant
  changed : Bool
  occurrences : List Occurrence
  deriving DecidableEq, Repr

/- The outcome, the event and the store after a refresh. -/
structure Refreshed (σ : Type) where
  outcome : Except ScheduleError RefreshOutcome
  event : Event
  store : σ
  log : List LogEntry

------------------------------------------------------------
-- Applying A Series
------------------------------------------------------------

/- The earliest of the starts that are not in the past. -/
def earliestUpcoming?
    (now : Instant)
    (occurrences : List Occurrence) : Option Instant :=
  Instant.earliest?
    ((occurrences.map (·.start)).filter (now ≤ ·))

/- The start to cache for an event with a given series. -/
def Event.upcomingStart?
    (e : Event)
    (now : Instant)
    (occurrences : List Occurrence) : Option Instant :=
  if e.isRecurring then
    earliestUpcoming? now occurrences
  else
    none

/- What is reported when the cache of an event has changed. -/
def cacheEntry
    (event : Id) :
    Option Instant → LogEntry
  | some next => .nextStartUpdated event next
  | none => .nextStartCleared event

variable {σ : Type}

/- Write the start of a series if it differs from the cache. -/
def applyRefresh
    [StartStore σ]
    (e : Event)
    (occurrences : List Occurrence)
    (now : Instant)
    (store : σ) : Refreshed σ :=
  let upcoming := e.upcomingStart? now occurrences
  if e.nextStart = upcoming then
    { outcome := .ok ⟨upcoming, false, occurrences⟩
      event := e
      store := store
      log := [.nextStartUnchanged e.id] }
  else
    match StartStore.write store e.id e.nextStart upcoming with
    | (.error error, store) =>
        { outcome := .error error
          event := e
          store := store
          log := [] }
    | (.ok (), store) =>
        { outcome := .ok ⟨upcoming, true, occurrences⟩
          event := { e with nextStart := upcoming }
          store := store
          log := [cacheEntry e.id upcoming] }

------------------------------------------------------------
-- Refreshing
------------------------------------------------------------

namespace Scheduler

/- A given horizon, or that of the settings. -/
def horizonOr
    (s : Scheduler) :
    Option Instant → Bounded Instant
  | some horizon => .ok horizon
  | none => s.defaultHorizon

/- The options of a refresh. -/
def refreshOptions
    (maxOccurrences : Nat)
    (horizon : Instant) : SeriesOptions where
  maxOccurrences := maxOccurrences
  includePast := true
  horizonEnd := some horizon

/- Bring the cached start of an event up to date. -/
def refresh
    [StartStore σ]
    (s : Scheduler)
    (e : Event)
    (records : List ExceptionRecord)
    (windows : List HolidayWindow)
    (maxOccurrences : Nat)
    (horizonEnd : Option Instant)
    (store : σ) : Refreshed σ :=
  match s.horizonOr horizonEnd with
  | .error range => ⟨.error (.outOfRange range), e, store, []⟩
  | .ok horizon =>
      let series := s.tracedSeries e records windows
        (refreshOptions maxOccurrences horizon)
      match series.value with
      | .error range =>
          ⟨.error (.outOfRange range), e, store, series.log⟩
      | .ok occurrences =>
          let applied := applyRefresh e occurrences s.now store
          { applied with log := series.log ++ applied.log }

end Scheduler

end EventSeries
