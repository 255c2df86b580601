/-
  This file defines signed lengths of time at nanosecond
  resolution, and the split of a length into whole seconds
  and nanoseconds of one sign.

  Key definitions include:
    * `nanosPerSecond`
    * `Span`
    * `Span.ofSeconds`
    * `Span.wholeSeconds`
    * `Span.subsecondNanos`
-/

namespace EventSeries

------------------------------------------------------------
-- Spans
------------------------------------------------------------

/- Nanoseconds in a second. -/
def nanosPerSecond : Nat :=
  1000000000

/- A signed length of time. -/
structure Span where
  nanoseconds : Int
  deriving DecidableEq, Repr

namespace Span

/- A length of whole seconds. -/
def ofSeconds
    (seconds : Int) : Span :=
  ⟨seconds * nanosPerSecond⟩

instance : Neg Span where
  neg s := ⟨-s.nanoseconds⟩

/- Whole seconds, cut toward zero. -/
def wholeSeconds
    (s : Span) : Int :=
  s.nanoseconds.tdiv nanosPerSecond

/- What is left beside the whole seconds, with their sign. -/
def subsecondNanos
    (s : Span) : Int :=
  s.nanoseconds.tmod nanosPerSecond

end Span

end EventSeries
