import EventSeries.Event.Basic
import EventSeries.Log
import EventSeries.ManualDate

/-
  This file gives the instants of the dates that an event
  lists by hand, in order of time.  Blank entries are passed
  over; entries that cannot be read are dropped and reported.

  Key definitions include:
    * `Event.manualEntries`
    * `Event.manualDates`
-/

namespace EventSeries.Event

/- The entries of the list without blanks around them. -/
def manualEntries
    (e : Event) : List String :=
  (e.manualOccurrences.map trim).filter (· ≠ "")

/-
  The instants of some entries in their order.  Reading stops
  where an instant would lie outside the calendar.
-/
def readEntries
    (z : Zone)
    (event : Id) :
    List String → Traced (Bounded (List Instant))
  | [] => ⟨.ok [], []⟩
  | entry :: entries =>
      match ManualDate.parse z entry with
      | .ok t =>
          let later := readEntries z event entries
          ⟨later.value.map (t :: ·), later.log⟩
      | .error (.outOfRange range) => ⟨.error range, []⟩
      | .error error =>
          let later := readEntries z event entries
          ⟨later.value,
            .manualDateDropped event error :: later.log⟩

/- Instants in order of time. -/
def sortInstants
    (ts : List Instant) : List Instant :=
  ts.mergeSort fun a b => decide (a ≤ b)

/- The instants that an event lists by hand, in order. -/
def manualDates
    (e : Event)
    (z : Zone) : Traced (Bounded (List Instant)) :=
  let read := readEntries z e.id e.manualEntries
  ⟨read.value.map sortInstants, read.log⟩

end EventSeries.Event
