import EventSeries.Occurrence

/-
  This file defines the records of single dates of a series
  that are skipped, closed for a holiday, or replaced by an
  override event.

  Key definitions include:
    * `ExceptionKind`
    * `ExceptionRecord`
    * `ExceptionRecord.skip`
    * `ExceptionRecord.holiday`
    * `ExceptionRecord.replacing`
    * `ExceptionRecord.afterDeletionOf?`
    * `ExceptionRecord.key`
    * `ExceptionRecord.skipped`
    * `ExceptionRecord.activeOverride?`
-/

namespace EventSeries

/- What a record does to its date. -/
inductive ExceptionKind where
  | skip
  | replace
  | holiday
  deriving DecidableEq, Repr

/-
  A record for one date of a series.  Only a replaced date
  makes use of the override event.
-/
structure ExceptionRecord where
  series : Id
  occurrenceStart : Instant
  kind : ExceptionKind := .skip
  overrideEvent : Option Event := none
  note : String := ""
  deriving DecidableEq, Repr

namespace ExceptionRecord

/- The record that skips a date. -/
def skip
    (series : Id)
    (occurrenceStart : Instant) : ExceptionRecord where
  series := series
  occurrenceStart := occurrenceStart

/- The record that closes a date for a holiday. -/
def holiday
    (series : Id)
    (occurrenceStart : Instant) : ExceptionRecord :=
  { skip series occurrenceStart with kind := .holiday }

/- The record that puts an event in the place of a date. -/
def replacing
    (series : Id)
    (occurrenceStart : Instant)
    (event : Event) : ExceptionRecord :=
  { skip series occurrenceStart with
    kind := .replace
    overrideEvent := some event }

/-
  The record that an override leaves behind when it is
  deleted.  Events that override nothing leave none.
-/
def afterDeletionOf?
    (event : Event) : Option ExceptionRecord := do
  return skip (← event.parentSeries)
    (← event.parentOccurrenceStart)

/- The date that a record is about. -/
def key
    (r : ExceptionRecord) : OccurrenceKey where
  series := r.series
  occurrenceStart := r.occurrenceStart

/- The record turned into a skip, without its event. -/
def skipped
    (r : ExceptionRecord) : ExceptionRecord :=
  { r with kind := .skip, overrideEvent := none }

/- The event in the place of the date, if there is one. -/
def activeOverride?
    (r : ExceptionRecord) : Option Event :=
  match r.kind with
  | .replace => r.overrideEvent
  | .skip | .holiday => none

end ExceptionRecord

end EventSeries
