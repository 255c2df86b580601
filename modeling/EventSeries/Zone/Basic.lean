import EventSeries.Time.LocalTime

/-
  This file defines time zones as tables of offsets from
  universal time.  A table has an initial offset and a list
  of transitions in order of time; each transition ends one
  span of constant offset and starts the next.

  A wall time that the clocks show twice is taken to be the
  earlier of its instants.  A wall time that the clocks skip
  is read with the offset in force a day earlier, which moves
  it forward by the length of the gap.

  Key definitions include:
    * `Transition`
    * `Zone`
    * `Zone.utc`
    * `Zone.offsetAt`
    * `Zone.offsetOfLocal?`
    * `Zone.toLocal`
    * `Zone.localize`
-/

namespace EventSeries

------------------------------------------------------------
-- Tables
------------------------------------------------------------

/- From a given second on, a new offset holds. -/
structure Transition where
  second : Int
  offset : Int
  deriving DecidableEq, Repr

/- A named table of offsets, in seconds east of Greenwich. -/
structure Zone where
  name : String
  initialOffset : Int
  transitions : List Transition
  deriving DecidableEq, Repr

namespace Zone

/- Universal time, which never changes its offset. -/
def utc : Zone where
  name := "UTC"
  initialOffset := 0
  transitions := []

------------------------------------------------------------
-- Spans Of Constant Offset
------------------------------------------------------------

/-
  The offset at a universal second, where `offset` holds up
  to the first of the remaining transitions.
-/
def offsetFrom
    (offset : Int) :
    List Transition → Int → Int
  | [], _ => offset
  | t :: later, second =>
      if second < t.second then
        offset
      else
        offsetFrom t.offset later second

/- The offset of the span that a universal second lies in. -/
def offsetAt
    (z : Zone)
    (second : Int) : Int :=
  offsetFrom z.initialOffset z.transitions second

/-
  The offset of the first span in which some second shows the
  wall time `wall`, among a span that starts at `start` and
  those after it.  A span without a start is the first.
-/
def localOffsetFrom?
    (start : Option Int)
    (offset : Int) :
    List Transition → Int → Option Int
  | [], wall =>
      if start.all (· ≤ wall - offset) then
        some offset
      else
        none
  | t :: later, wall =>
      if start.all (· ≤ wall - offset) ∧
          wall - offset < t.second then
        some offset
      else
        localOffsetFrom? (some t.second) t.offset later wall

/-
  The offset at the earliest second whose wall time, counted
  as if it were universal, is `wall`.
-/
def offsetOfLocal?
    (z : Zone)
    (wall : Int) : Option Int :=
  localOffsetFrom? none z.initialOffset z.transitions wall

------------------------------------------------------------
-- Conversions
------------------------------------------------------------

/- Wall time of an instant, on an endless calendar. -/
def wallTime
    (z : Zone)
    (t : Instant) : LocalTime :=
  Instant.utcReading
    ⟨t.seconds + z.offsetAt t.seconds, t.nanos⟩

/- Wall time of an instant. -/
def toLocal
    (z : Zone)
    (t : Instant) : Bounded LocalTime :=
  let l := z.wallTime t
  if l.inUtc.InCalendar then .ok l else .error .calendar

/-
  The instant of a wall time that the clocks skip.  Unlike a
  conversion, this is a difference of times, and a leap
  second does not outlive it.
-/
def localizeSkipped
    (z : Zone)
    (l : LocalTime) : Bounded Instant := do
  let dayBefore ←
    l.inUtc.plus (Span.ofSeconds (-secondsPerDay))
  let offset := z.offsetAt dayBefore.seconds
  l.inUtc.plus (-Span.ofSeconds offset)

/- The instant at which the clocks of a zone show `l`. -/
def localize
    (z : Zone)
    (l : LocalTime) : Bounded Instant :=
  match z.offsetOfLocal? l.inUtc.seconds with
  | some offset =>
      Instant.checked ⟨l.inUtc.seconds - offset, l.time.nanos⟩
  | none => z.localizeSkipped l

end Zone

end EventSeries
