import EventSeries.Error
import EventSeries.Text.TimestampReading
import EventSeries.Zone.Basic

/-
  This file reads the dates that an event lists by hand.  A
  date with an offset, in the strict form of RFC 3339, names
  its instant; any other is a wall time in one of four
  layouts and is placed in the zone of the organization.

  Key definitions include:
    * `ManualDate.Reading`
    * `ManualDate.reading?`
    * `ManualDate.parse`
-/

namespace EventSeries.ManualDate

/- What a text says: an instant, or a time on the wall. -/
inductive Reading where
  | instant (t : Instant)
  | wall (l : LocalTime)
  deriving DecidableEq, Repr

/- A trimmed text read as an instant with an offset. -/
def strictReading?
    (cs : List Char) : Option Reading :=
  (Scan.strictInstant.whole? cs).map .instant

/- A trimmed text read as a wall time in a layout. -/
def wallReading?
    (cs : List Char)
    (layout : Scan.WallLayout) : Option Reading :=
  ((Scan.wallTime layout).whole? cs).map .wall

/- The first reading that a trimmed text admits. -/
def reading?
    (cs : List Char) : Option Reading :=
  (strictReading? cs).or
    (Scan.WallLayout.all.findSome? (wallReading? cs))

/- The instant of a reading in a zone. -/
def Reading.instantIn
    (z : Zone) : Reading → Bounded Instant
  | .instant t => .ok t
  | .wall l => z.localize l

/- The instant that a text lists, blanks around it aside. -/
def parse
    (z : Zone)
    (raw : String) : Except ScheduleError Instant :=
  match reading? (trimChars raw.toList) with
  | some r => Bounded.toSchedule (r.instantIn z)
  | none => .error (.invalidManualDate raw)

end EventSeries.ManualDate
