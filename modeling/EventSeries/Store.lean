import EventSeries.Error
import EventSeries.Identifier
import EventSeries.Time.Instant

/-
  This file defines stores of cached starts.  A write names
  the value that the writer has read, so that a store may
  refuse a writer who has not seen the latest one.

  Key definitions include:
    * `StartStore`
    * `MemoryStore`
    * `MemoryStore.get`
    * `MemoryStore.seed`
    * `MemoryStore.write`
-/

namespace EventSeries

------------------------------------------------------------
-- Stores
------------------------------------------------------------

/-
  A store with states in `σ`.  A write may fail, and may
  change the state when it does.
-/
class StartStore (σ : Type) where
  write :
    σ → Id → Option Instant → Option Instant →
      Except ScheduleError Unit × σ

------------------------------------------------------------
-- A Store In Memory
------------------------------------------------------------

/-
  Entries by event, the latest first, and the number of
  writes.  An entry may hold no start.
-/
structure MemoryStore where
  entries : List (Id × Option Instant) := []
  writes : Nat := 0
  deriving DecidableEq, Repr

namespace MemoryStore

/- The entry of an event. -/
def entry?
    (s : MemoryStore)
    (event : Id) : Option (Option Instant) :=
  s.entries.lookup event

/- The start that is stored for an event. -/
def get
    (s : MemoryStore)
    (event : Id) : Option Instant :=
  (s.entry? event).join

/- The store with another entry for an event. -/
def insert
    (s : MemoryStore)
    (event : Id)
    (value : Option Instant) : MemoryStore :=
  { s with
    entries :=
      (event, value) :: s.entries.filter (·.1 ≠ event) }

/- Set an entry without counting a write. -/
def seed
    (s : MemoryStore)
    (event : Id)
    (value : Option Instant) : MemoryStore :=
  s.insert event value

/- The entry of an event, if there is one, is `previous`. -/
def agrees
    (s : MemoryStore)
    (event : Id)
    (previous : Option Instant) : Bool :=
  (s.entry? event).all (· == previous)

/- The error of a writer who has not seen the latest value. -/
def staleWrite
    (event : Id) : ScheduleError :=
  .store ("next_start of event " ++ event.text
    ++ " changed concurrently")

/- Replace the value that the writer has read. -/
def write
    (s : MemoryStore)
    (event : Id)
    (previous next : Option Instant) :
    Except ScheduleError Unit × MemoryStore :=
  if s.agrees event previous then
    (.ok (),
      { s.insert event next with writes := s.writes + 1 })
  else
    (.error (staleWrite event), s)

instance : StartStore MemoryStore where
  write := MemoryStore.write

end MemoryStore

end EventSeries
