import EventSeries.Event.Basic

/-
  This file defines holiday windows, spans of time in which
  the recurring events of a venue do not take place.  A
  window hides the dates that start inside it and shifts
  none.

  Key definitions include:
    * `HolidayWindow`
    * `HolidayWindow.named`
    * `HolidayWindow.appliesTo`
    * `HolidayWindow.contains`
    * `HolidayWindow.overlapping`
    * `HolidayWindow.blocking?`
-/

namespace EventSeries

/- A closure of the venue. -/
structure HolidayWindow where
  id : Id
  name : String
  startsAt : Instant
  endsAt : Instant
  appliesToEveryone : Bool := true
  appliesToStaff : Bool := true
  note : String := ""
  deriving DecidableEq, Repr

namespace HolidayWindow

/- A window for all events. -/
def named
    (id : Id)
    (name : String)
    (startsAt endsAt : Instant) : HolidayWindow where
  id := id
  name := name
  startsAt := startsAt
  endsAt := endsAt

/- Whether the window is for events of an audience. -/
def appliesTo
    (w : HolidayWindow) : Audience → Bool
  | .everyone => w.appliesToEveryone
  | .staff => w.appliesToStaff

/- Both ends of a window belong to it. -/
def contains
    (w : HolidayWindow)
    (t : Instant) : Bool :=
  w.startsAt ≤ t && t ≤ w.endsAt

/- The windows that meet a range, which may be open. -/
def overlapping
    (windows : List HolidayWindow)
    (start stop : Option Instant) : List HolidayWindow :=
  windows.filter fun w =>
    start.all (· ≤ w.endsAt) && stop.all (w.startsAt ≤ ·)

/- The first window that hides a start. -/
def blocking?
    (windows : List HolidayWindow)
    (audience : Audience)
    (start : Instant) : Option HolidayWindow :=
  windows.find? fun w =>
    w.appliesTo audience && w.contains start

end HolidayWindow

end EventSeries
