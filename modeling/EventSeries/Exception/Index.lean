import EventSeries.Exception.Record
import EventSeries.Log

/-
  This file looks up the records of one series by date.  Of
  several records for one date the first counts; the others
  are reported.

  Key definitions include:
    * `ExceptionIndex`
    * `ExceptionIndex.ofList`
    * `ExceptionIndex.record?`
    * `ExceptionIndex.resolve`
    * `ExceptionIndex.replacedStart?`
    * `ExceptionIndex.movedPast?`
    * `ExceptionIndex.log`
-/

namespace EventSeries

/- The records of a series that count, and those that do not. -/
structure ExceptionIndex where
  records : List ExceptionRecord := []
  duplicates : List ExceptionRecord := []
  deriving DecidableEq, Repr

/- What becomes of a date. -/
inductive Resolution where
  | unchanged
  | override (record : ExceptionRecord) (event : Event)
  | suppressed (record : ExceptionRecord)
  deriving DecidableEq, Repr

namespace ExceptionIndex

------------------------------------------------------------
-- Building
------------------------------------------------------------

/- The record of a date. -/
def record?
    (index : ExceptionIndex)
    (start : Instant) : Option ExceptionRecord :=
  index.records.find? (·.occurrenceStart == start)

/- An index with one record more. -/
def add
    (index : ExceptionIndex)
    (r : ExceptionRecord) : ExceptionIndex :=
  if (index.record? r.occurrenceStart).isSome then
    { index with duplicates := index.duplicates ++ [r] }
  else
    { index with records := index.records ++ [r] }

/- The index of the records that belong to a series. -/
def ofList
    (series : Id)
    (records : List ExceptionRecord) : ExceptionIndex :=
  (records.filter (·.series == series)).foldl add {}

/- Reports of the records that do not count. -/
def log
    (index : ExceptionIndex) : List LogEntry :=
  index.duplicates.map fun r =>
    .duplicateException r.series r.occurrenceStart

------------------------------------------------------------
-- Looking Up
------------------------------------------------------------

/- What becomes of the date `start`. -/
def resolve
    (index : ExceptionIndex)
    (start : Instant) : Resolution :=
  match index.record? start with
  | none => .unchanged
  | some r =>
      match r.activeOverride? with
      | some event => .override r event
      | none => .suppressed r

/- Where the override of a record starts, if it has one. -/
def overrideStart?
    (r : ExceptionRecord) : Option Instant :=
  r.activeOverride?.bind Event.startsAt

/- The dates of the records that pass a test. -/
def datesWhere
    (index : ExceptionIndex)
    (ok : ExceptionRecord → Bool) : List Instant :=
  (index.records.filter ok).map (·.occurrenceStart)

/- The date that an override starting at `start` replaced. -/
def replacedStart?
    (index : ExceptionIndex)
    (start : Instant) : Option Instant :=
  Instant.earliest? <|
    index.datesWhere fun r => overrideStart? r == some start

/-
  The earliest date before `anchor` whose override was moved
  to `anchor` or later.
-/
def movedPast?
    (index : ExceptionIndex)
    (anchor : Instant) : Option Instant :=
  Instant.earliest? <| index.datesWhere fun r =>
    r.occurrenceStart < anchor &&
      (overrideStart? r).any (anchor ≤ ·)

end ExceptionIndex

end EventSeries
