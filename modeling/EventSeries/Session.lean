import EventSeries.Event.Validation
import EventSeries.Json.Schedule
import EventSeries.Override

/-
  This file defines sessions of work on one event: the event
  with its records and windows, the slugs that are taken, the
  store of cached starts, and a scheduler whose present moves
  on.  An operation that fails leaves the session as it was,
  save that a clone whose edit fails has taken its slug.

  Key definitions include:
    * `Session`
    * `Session.movedTo`
    * `Session.refresh`
    * `Session.series`
    * `Session.edit?`
    * `Session.clone`
    * `Session.attach`
    * `Session.markSkipped?`
    * `Session.deleteOverride?`
    * `Event.patched`
-/

namespace EventSeries

------------------------------------------------------------
-- Edits Of Events
------------------------------------------------------------

namespace Json

/- The members of an object with one of them set. -/
def setMember :
    List (String × Json) → String × Json →
      List (String × Json)
  | [], change => [change]
  | (key, value) :: members, change =>
      if key = change.1 then
        change :: members
      else
        (key, value) :: setMember members change

/- The members of an object with some of them set. -/
def setMembers
    (changes : List (String × Json)) : Json → Json
  | .object members =>
      .object (changes.foldl setMember members)
  | j => j

end Json

/- An event with some of its fields set from JSON. -/
def Event.patched
    (e : Event)
    (changes : List (String × Json)) : Reading Event :=
  Event.read (e.toJson.setMembers changes)

------------------------------------------------------------
-- Sessions
------------------------------------------------------------

/- The state of the work on an event. -/
structure Session where
  scheduler : Scheduler
  event : Event
  records : List ExceptionRecord := []
  windows : List HolidayWindow := []
  slugs : SlugSet := []
  store : MemoryStore := {}
  ids : IdSource

namespace Session

/- Move the present. -/
def movedTo
    (s : Session)
    (now : Instant) : Session :=
  { s with scheduler := { s.scheduler with now := now } }

/- The series of the event as things stand. -/
def series
    (s : Session)
    (o : SeriesOptions) : Bounded (List Occurrence) :=
  s.scheduler.series s.event s.records s.windows o

/- The series that a listing shows. -/
def listing
    (s : Session) : Bounded (List Occurrence) := do
  s.series (← s.scheduler.listingOptions)

/- Bring the cached start of the event up to date. -/
def refresh
    (s : Session)
    (maxOccurrences : Option Nat)
    (horizonEnd : Option Instant) :
    Except ScheduleError RefreshOutcome × Session :=
  let done := s.scheduler.refresh s.event s.records s.windows
    (maxOccurrences.getD s.scheduler.settings.maxOccurrences)
    horizonEnd s.store
  (done.outcome,
    { s with event := done.event, store := done.store })

/- The event with fields set from JSON. -/
def edit?
    (s : Session)
    (changes : List (String × Json)) : Option Session := do
  let (event, ids) ← (s.event.patched changes).run s.ids
  return { s with event := event, ids := ids }

/- Whether the event may be scheduled. -/
def validate
    (s : Session) : Except ScheduleError Unit :=
  s.event.validate s.scheduler.zone

------------------------------------------------------------
-- Overrides
------------------------------------------------------------

/- Clone the event for a start, and take the clone's slug. -/
def clone
    (s : Session)
    (id : Id)
    (start : Instant) : Bounded (Event × Session) := do
  let clone ← s.event.cloneFor id start s.scheduler.zone
    s.slugs
  return (clone,
    { s with slugs := s.slugs.insert clone.slug })

/- An event with fields set from JSON, and the ids left. -/
def editClone?
    (s : Session)
    (clone : Event)
    (changes : List (String × Json)) :
    Option (Event × Session) := do
  let (event, ids) ← (clone.patched changes).run s.ids
  return (event, { s with ids := ids })

/- Put an event in the place of the date `start`. -/
def attach
    (s : Session)
    (start : Instant)
    (replacement : Event) : Session :=
  { s with
    records := s.records ++
      [.replacing s.event.id start replacement] }

------------------------------------------------------------
-- Records
------------------------------------------------------------

/- Skip the date `start`. -/
def skip
    (s : Session)
    (start : Instant) : Session :=
  { s with
    records := s.records ++ [.skip s.event.id start] }

/- Close the date `start` for a holiday. -/
def close
    (s : Session)
    (start : Instant) : Session :=
  { s with
    records := s.records ++ [.holiday s.event.id start] }

/- Turn a record into a skip; its event is handed back. -/
def markSkipped?
    (s : Session)
    (index : Nat) : Option (Option Event × Session) := do
  let r ← s.records[index]?
  return (r.overrideEvent,
    { s with records := s.records.set index r.skipped })

/-
  Delete the override of a record; the skip that it leaves
  behind takes the place of the record.
-/
def deleteOverride?
    (s : Session)
    (index : Nat) :
    Option (Option ExceptionRecord × Session) := do
  let r ← s.records[index]?
  match r.overrideEvent.bind
      ExceptionRecord.afterDeletionOf? with
  | some left =>
      return (some left,
        { s with records := s.records.set index left })
  | none => return (none, s)

/- Remove all records of the date `start`. -/
def unskip
    (s : Session)
    (start : Instant) : Session :=
  { s with
    records :=
      s.records.filter (·.occurrenceStart ≠ start) }

------------------------------------------------------------
-- Windows And The Store
------------------------------------------------------------

/- Add a window. -/
def addWindow
    (s : Session)
    (w : HolidayWindow) : Session :=
  { s with windows := s.windows ++ [w] }

/- Remove all windows. -/
def clearWindows
    (s : Session) : Session :=
  { s with windows := [] }

/- Set the stored start of the event. -/
def seed
    (s : Session)
    (value : Option Instant) : Session :=
  { s with store := s.store.seed s.event.id value }

/- Write to the store in the name of the event. -/
def write
    (s : Session)
    (previous next : Option Instant) :
    Except ScheduleError Unit × Session :=
  let (result, store) :=
    s.store.write s.event.id previous next
  (result, { s with store := store })

/- Slugs by code point. -/
def sortedSlugs
    (s : Session) : List String :=
  s.slugs.mergeSort fun a b => decide (a ≤ b)

/- What can be seen of a session. -/
def toJson
    (s : Session) : Json :=
  .object [
    ("next_start", .ofOption .ofInstant s.event.nextStart),
    ("stored",
      .ofOption .ofInstant (s.store.get s.event.id)),
    ("writes", .ofNat s.store.writes),
    ("exceptions",
      .ofList (ExceptionKind.toJson ·.kind) s.records),
    ("windows", .ofNat s.windows.length),
    ("slugs", .ofList .text s.sortedSlugs)]

end Session

end EventSeries
