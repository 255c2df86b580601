import EventSeries.Exception.Record
import EventSeries.HolidayWindow

/-
  The instants that a record holds, those of the records in it
  included.  What is asked of all instants of a record is
  asked of this list.

  Main declarations:
    * `Event.instants`
    * `Occurrence.instants`
    * `ExceptionRecord.instants`
    * `HolidayWindow.instants`
-/

namespace EventSeries

/- When a performer is on. -/
def Performer.instants
    (p : Performer) : List Instant :=
  p.slotStartsAt.toList ++ p.slotEndsAt.toList

/- The times of an event and of its performers. -/
def Event.instants
    (e : Event) : List Instant :=
  e.doorsAt.toList ++ e.startsAt.toList ++ e.endsAt.toList
    ++ e.curfewAt.toList ++ e.nextStart.toList
    ++ e.parentOccurrenceStart.toList
    ++ e.performers.flatMap Performer.instants

/- The times of an occurrence, and the date it stands in for. -/
def Occurrence.instants
    (x : Occurrence) : List Instant :=
  x.start :: x.doors.toList ++ x.finish.toList
    ++ x.curfew.toList
    ++ (x.sourceException.map (·.occurrenceStart)).toList

/- The date of a record, and the instants of its override. -/
def ExceptionRecord.instants
    (r : ExceptionRecord) : List Instant :=
  r.occurrenceStart :: r.overrideEvent.elim [] Event.instants

/- The ends of a window. -/
def HolidayWindow.instants
    (w : HolidayWindow) : List Instant :=
  [w.startsAt, w.endsAt]

end EventSeries
