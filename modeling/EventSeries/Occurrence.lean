import EventSeries.Event.Offsets

/-
  This file defines occurrences, the single dates of an
  event, and the keys of the records that change them.

  Key definitions include:
    * `OccurrenceKey`
    * `Occurrence`
    * `Segment`
    * `Occurrence.segment`
    * `Occurrence.doorsOrStart`
    * `Event.occurrenceAt`
    * `Event.overrideOccurrence`
    * `sortOccurrences`
-/

namespace EventSeries

------------------------------------------------------------
-- Occurrences
------------------------------------------------------------

/- A date of a series: the series, and the start by its rule. -/
structure OccurrenceKey where
  series : Id
  occurrenceStart : Instant
  deriving DecidableEq, Repr

/-
  One date of an event.  An override names the date that it
  stands in for, and `event` is then the event in its place.
-/
structure Occurrence where
  event : Id
  start : Instant
  doors : Option Instant
  finish : Option Instant
  curfew : Option Instant
  isOverride : Bool
  sourceException : Option OccurrenceKey
  deriving DecidableEq, Repr

/- The times that the shifts of an occurrence are laid to. -/
structure Segment where
  startsAt : Instant
  doorsAt : Option Instant
  endsAt : Option Instant
  curfewAt : Option Instant
  deriving DecidableEq, Repr

namespace Occurrence

/- The times of an occurrence. -/
def segment
    (o : Occurrence) : Segment where
  startsAt := o.start
  doorsAt := o.doors
  endsAt := o.finish
  curfewAt := o.curfew

/- When people may come in: at the doors, or at the start. -/
def doorsOrStart
    (o : Occurrence) : Instant :=
  o.doors.getD o.start

end Occurrence

------------------------------------------------------------
-- Occurrences Of Events
------------------------------------------------------------

namespace Event

/- The occurrence of an event at a start of its own. -/
def occurrenceAt
    (e : Event)
    (start : Instant) : Bounded Occurrence := do
  return {
    event := e.id
    start := start
    doors := ← e.offsets.doorsAt start
    finish := ← e.offsets.endAt start
    curfew := ← e.offsets.curfewAt start
    isOverride := false
    sourceException := none }

/- The occurrence of an override at the times it states. -/
def overrideOccurrence
    (e : Event)
    (key : OccurrenceKey)
    (start : Instant) : Occurrence where
  event := e.id
  start := start
  doors := e.doorsAt
  finish := e.endsAt
  curfew := e.curfewAt
  isOverride := true
  sourceException := some key

end Event

/- Occurrences by start; those of one start keep their order. -/
def sortOccurrences
    (os : List Occurrence) : List Occurrence :=
  os.mergeSort fun a b => decide (a.start ≤ b.start)

end EventSeries
