import EventSeries.Event.Basic

/-
  This file defines how far doors, end and curfew of an event
  lie from its start.  The offsets carry these times over to
  every other start.

  Key definitions include:
    * `Offsets`
    * `Offsets.between`
    * `Offsets.doorsAt`
    * `Offsets.endAt`
    * `Offsets.curfewAt`
    * `Event.offsets`
-/

namespace EventSeries

------------------------------------------------------------
-- Offsets
------------------------------------------------------------

/- Spans from a start to doors, end and curfew. -/
structure Offsets where
  doors : Option Span
  finish : Option Span
  curfew : Option Span
  deriving DecidableEq, Repr

namespace Offsets

/- The span from a reference to a time, if both are set. -/
def spanFrom?
    (reference time : Option Instant) : Option Span :=
  match reference, time with
  | some r, some t => some (t.since r)
  | _, _ => none

/- The offsets of three times from a reference. -/
def between
    (reference doors finish curfew : Option Instant) :
    Offsets where
  doors := spanFrom? reference doors
  finish := spanFrom? reference finish
  curfew := spanFrom? reference curfew

/- The time at an offset from a start, if there is one. -/
def timeAt
    (start : Instant) :
    Option Span → Bounded (Option Instant)
  | some s => some <$> start.plus s
  | none => .ok none

/- Doors of an occurrence. -/
def doorsAt
    (o : Offsets)
    (start : Instant) : Bounded (Option Instant) :=
  timeAt start o.doors

/- End of an occurrence. -/
def endAt
    (o : Offsets)
    (start : Instant) : Bounded (Option Instant) :=
  timeAt start o.finish

/- Curfew of an occurrence. -/
def curfewAt
    (o : Offsets)
    (start : Instant) : Bounded (Option Instant) :=
  timeAt start o.curfew

end Offsets

/- The offsets of an event from its reference start. -/
def Event.offsets
    (e : Event) : Offsets :=
  .between e.referenceStart? e.doorsAt e.endsAt e.curfewAt

end EventSeries
