import EventSeries.Settings

/-
  This file defines the scheduler of an organization, which
  has its settings, their zone, and the present moment.

  Key definitions include:
    * `Scheduler`
    * `Scheduler.ofSettings`
    * `Scheduler.defaultHorizon`
    * `Scheduler.listingOptions`
    * `Scheduler.tracedSeries`
    * `Scheduler.series`
-/

namespace EventSeries

/- Settings that are valid, with their zone and the present. -/
structure Scheduler where
  zone : Zone
  now : Instant
  settings : Settings

namespace Scheduler

/- The scheduler of valid settings. -/
def ofSettings
    (s : Settings)
    (now : Instant) : Except ScheduleError Scheduler := do
  return ⟨← s.validate, now, s⟩

/- The default settings in a zone. -/
def inZone
    (z : Zone)
    (now : Instant) : Scheduler where
  zone := z
  now := now
  settings := { timezone := z.name }

/- The horizon of the settings, seen from the present. -/
def defaultHorizon
    (s : Scheduler) : Bounded Instant :=
  s.settings.defaultHorizon s.zone s.now

/- The options of a listing: all up to the horizon. -/
def listingOptions
    (s : Scheduler) : Bounded SeriesOptions := do
  return {
    maxOccurrences := s.settings.maxOccurrences
    includePast := true
    horizonEnd := some (← s.defaultHorizon) }

/- The generator with the scheduler's number of attempts. -/
def generator
    (s : Scheduler) : Generator :=
  Generator.withAttempts ⟨s.zone, s.now, 6⟩
    s.settings.attemptsPerOccurrence

/- The series of an event, and what was reported on the way. -/
def tracedSeries
    (s : Scheduler)
    (e : Event)
    (records : List ExceptionRecord)
    (windows : List HolidayWindow)
    (o : SeriesOptions) :
    Traced (Bounded (List Occurrence)) :=
  s.generator.tracedSeries e records windows o

/- The occurrences of an event, in order of start. -/
def series
    (s : Scheduler)
    (e : Event)
    (records : List ExceptionRecord)
    (windows : List HolidayWindow)
    (o : SeriesOptions) : Bounded (List Occurrence) :=
  (s.tracedSeries e records windows o).value

end Scheduler

end EventSeries
