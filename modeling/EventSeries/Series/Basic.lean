import EventSeries.Event.ManualDates
import EventSeries.Series.Walk

/-
  This file defines the series of an event: its occurrences
  in order of start, for a zone and a present moment.

  Dates listed by hand come before the rule, and neither
  records nor windows touch them.  An event that does not
  repeat has its start as its one occurrence.  A recurring
  event is walked from its anchor, and one without an anchor
  has no occurrences.

  Key definitions include:
    * `Generator`
    * `Generator.maxAttempts`
    * `Generator.anchor?`
    * `Generator.series`
-/

namespace EventSeries

/-
  A zone, the present, and the number of dates that may be
  tried for each occurrence that is wanted.
-/
structure Generator where
  zone : Zone
  now : Instant
  attemptsPerOccurrence : Nat := 6

/- The largest number of a machine word. -/
def largestWord : Nat :=
  UInt64.size - 1

/- A product that stops at the largest machine word. -/
def cappedProduct
    (m n : Nat) : Nat :=
  min (m * n) largestWord

namespace Generator

/- The same generator with another number of attempts. -/
def withAttempts
    (g : Generator)
    (attempts : Nat) : Generator :=
  { g with attemptsPerOccurrence := max attempts 1 }

/- The number of dates that a walk may examine. -/
def maxAttempts
    (g : Generator)
    (o : SeriesOptions) : Nat :=
  cappedProduct o.maxOccurrences g.attemptsPerOccurrence

------------------------------------------------------------
-- Manual Dates And Single Events
------------------------------------------------------------

/- The dates that are kept, up to the number wanted. -/
def keptDates
    (g : Generator)
    (o : SeriesOptions)
    (dates : List Instant) : List Instant :=
  (dates.filter (o.keeps g.now)).take o.maxOccurrences

/- The series of dates listed by hand. -/
def manualSeries
    (g : Generator)
    (e : Event)
    (o : SeriesOptions)
    (dates : List Instant) : Bounded (List Occurrence) :=
  (g.keptDates o dates).mapM e.occurrenceAt

/- The series of an event that happens once. -/
def singleSeries
    (g : Generator)
    (e : Event)
    (o : SeriesOptions)
    (start : Instant) : Bounded (List Occurrence) := do
  let occurrence ← e.occurrenceAt start
  return if o.keeps g.now start then [occurrence] else []

------------------------------------------------------------
-- Recurring Events
------------------------------------------------------------

/-
  The date at which a walk begins.  A cached start may be
  that of an override; the walk then begins at the date that
  the override replaced.  An earlier date whose override was
  moved to that date or later is walked again.
-/
def anchor?
    (e : Event)
    (index : ExceptionIndex) : Option Instant := do
  let anchor ← e.anchorStart?
  if e.isRecurring && e.nextStart == some anchor then
    let date := (index.replacedStart? anchor).getD anchor
    return (index.movedPast? date).getD date
  else
    return anchor

/- The plan of a walk, once its time of day is known. -/
def plan
    (g : Generator)
    (e : Event)
    (index : ExceptionIndex)
    (windows : List HolidayWindow)
    (o : SeriesOptions)
    (timeOfDay : ClockTime) : WalkPlan where
  event := e
  index := index
  windows := windows
  zone := g.zone
  timeOfDay := timeOfDay
  now := g.now
  options := o
  maxAttempts := g.maxAttempts o

/- The time of day at which the dates of a series start. -/
def timeOfDay
    (g : Generator)
    (e : Event)
    (anchor : Instant) : Bounded ClockTime := do
  return (← g.zone.toLocal (e.startsAt.getD anchor)).time

/- The series of a recurring event, walked from its anchor. -/
def recurringSeries
    (g : Generator)
    (e : Event)
    (index : ExceptionIndex)
    (windows : List HolidayWindow)
    (o : SeriesOptions)
    (anchor : Instant) :
    Traced (Bounded (List Occurrence)) :=
  match g.timeOfDay e anchor with
  | .error range => ⟨.error range, []⟩
  | .ok time =>
      let finish := (g.plan e index windows o time).walk anchor
      ⟨finish.occurrences, finish.log e.id o.maxOccurrences⟩

/- The series of an event without dates listed by hand. -/
def anchoredSeries
    (g : Generator)
    (e : Event)
    (index : ExceptionIndex)
    (windows : List HolidayWindow)
    (o : SeriesOptions) :
    Traced (Bounded (List Occurrence)) :=
  match anchor? e index with
  | none => ⟨.ok [], []⟩
  | some anchor =>
      if e.isRecurring then
        g.recurringSeries e index windows o anchor
      else
        ⟨g.singleSeries e o anchor, []⟩

------------------------------------------------------------
-- All Events
------------------------------------------------------------

/- The series of an event, and what was reported on the way. -/
def tracedSeries
    (g : Generator)
    (e : Event)
    (records : List ExceptionRecord)
    (windows : List HolidayWindow)
    (o : SeriesOptions) :
    Traced (Bounded (List Occurrence)) :=
  if o.maxOccurrences = 0 then
    ⟨.ok [], []⟩
  else
    let manual := e.manualDates g.zone
    match manual.value with
    | .error range => ⟨.error range, manual.log⟩
    | .ok (d :: ds) =>
        ⟨g.manualSeries e o (d :: ds), manual.log⟩
    | .ok [] =>
        let index := ExceptionIndex.ofList e.id records
        let rest := g.anchoredSeries e index windows o
        ⟨rest.value, manual.log ++ index.log ++ rest.log⟩

/- The occurrences of an event, in order of start. -/
def series
    (g : Generator)
    (e : Event)
    (records : List ExceptionRecord)
    (windows : List HolidayWindow)
    (o : SeriesOptions) : Bounded (List Occurrence) :=
  (g.tracedSeries e records windows o).value

end Generator

end EventSeries
