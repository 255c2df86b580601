import EventSeries.Event.Basic
import EventSeries.Store

/-
  What a store in memory answers after an entry was set, and
  what a write does to it.  Each event has an entry of its
  own.  A write for an event with an entry goes through if
  the entry is the value that the writer has read, and is
  refused otherwise.

  Main declarations:
    * `MemoryStore.entry?_insert_self`
    * `MemoryStore.entry?_insert_of_ne`
    * `MemoryStore.write_of_current`
    * `MemoryStore.write_of_stale`
    * `MemoryStore.seeded`
    * `MemoryStore.exists_entry_seeded`
-/

namespace EventSeries

namespace MemoryStore

variable {s : MemoryStore}
variable {event other : Id}
variable {value previous : Option Instant}

------------------------------------------------------------
-- Entries
------------------------------------------------------------

/- Entries of one event do not hide those of another. -/
theorem lookup_filter_of_ne
    (hOther : other ≠ event)
    (entries : List (Id × Option Instant)) :
    (entries.filter (·.1 ≠ event)).lookup other =
      entries.lookup other := by
  induction entries with
  | nil => rfl
  | cons entry entries ih =>
      by_cases hEvent : entry.1 = event
      · have hSkip : (other == entry.1) = false := by
          rw [hEvent]
          exact beq_false_of_ne hOther
        rw [List.filter_cons_of_neg (by simpa using hEvent), ih,
          List.lookup_cons, hSkip]
      · rw [List.filter_cons_of_pos (by simpa using hEvent),
          List.lookup_cons, List.lookup_cons, ih]

@[simp] theorem entry?_insert_self
    (s : MemoryStore)
    (event : Id)
    (value : Option Instant) :
    entry? (s.insert event value) event = some value :=
  List.lookup_cons_self

theorem entry?_insert_of_ne
    (hOther : other ≠ event) :
    entry? (s.insert event value) other = s.entry? other := by
  have hSkip : (other == event) = false := beq_false_of_ne hOther
  simp only [insert, entry?, List.lookup_cons, hSkip]
  exact lookup_filter_of_ne hOther s.entries

theorem get_of_entry
    (hEntry : s.entry? event = some value) :
    s.get event = value := by
  rw [get, hEntry, Option.join_some]

/- An entry that is there stays there when another is set. -/
theorem exists_entry_insert
    (hEntry : ∃ value, s.entry? event = some value)
    (other : Id)
    (next : Option Instant) :
    ∃ value, entry? (s.insert other next) event = some value := by
  by_cases hEvent : event = other
  · subst hEvent
    exact ⟨next, entry?_insert_self s event next⟩
  · rw [entry?_insert_of_ne hEvent]
    exact hEntry

------------------------------------------------------------
-- Writes
------------------------------------------------------------

/- The store after a write that went through. -/
def written
    (s : MemoryStore)
    (event : Id)
    (next : Option Instant) : MemoryStore :=
  { s.insert event next with writes := s.writes + 1 }

/- A writer who has read the entry replaces it. -/
theorem write_of_current
    (hEntry : s.entry? event = some previous)
    (next : Option Instant) :
    StartStore.write s event previous next =
      (.ok (), s.written event next) := by
  have hAgrees : s.agrees event previous = true := by
    simp [agrees, hEntry]
  exact if_pos hAgrees

/- A writer who has read another value is refused. -/
theorem write_of_stale
    (hEntry : s.entry? event = some value)
    (hStale : value ≠ previous)
    (next : Option Instant) :
    StartStore.write s event previous next =
      (.error (staleWrite event), s) := by
  have hDiffers : ¬ s.agrees event previous = true := by
    simpa [agrees, hEntry] using hStale
  exact if_neg hDiffers

------------------------------------------------------------
-- Seeds
------------------------------------------------------------

/- The store that has been given the caches of some events. -/
def seeded
    (events : List Event) : MemoryStore :=
  events.foldl (fun s e => s.seed e.id e.nextStart) {}

theorem writes_foldl_seed
    (events : List Event)
    (s : MemoryStore) :
    (events.foldl (fun s e => s.seed e.id e.nextStart) s).writes =
      s.writes := by
  induction events generalizing s with
  | nil => rfl
  | cons e events ih => exact ih _

/- Seeding counts no writes. -/
@[simp] theorem writes_seeded
    (events : List Event) :
    (seeded events).writes = 0 :=
  writes_foldl_seed events {}

theorem exists_entry_foldl_seed
    {events : List Event}
    (hEntry :
      (∃ value, s.entry? event = some value) ∨
        ∃ e ∈ events, e.id = event) :
    ∃ value,
      entry?
          (events.foldl (fun s e => s.seed e.id e.nextStart) s)
          event = some value := by
  induction events generalizing s with
  | nil =>
      rcases hEntry with hEntry | ⟨e, hMember, _⟩
      · exact hEntry
      · cases hMember
  | cons first events ih =>
      apply ih
      rcases hEntry with hEntry | ⟨e, hMember, hId⟩
      · left
        exact exists_entry_insert hEntry first.id first.nextStart
      · rcases List.mem_cons.mp hMember with rfl | hLater
        · left
          rw [← hId]
          exact ⟨_, entry?_insert_self s e.id e.nextStart⟩
        · exact Or.inr ⟨e, hLater, hId⟩

/- Each event that was seeded has an entry. -/
theorem exists_entry_seeded
    {events : List Event}
    (hSeeded : ∃ e ∈ events, e.id = event) :
    ∃ value, entry? (seeded events) event = some value :=
  exists_entry_foldl_seed (Or.inr hSeeded)

end MemoryStore

end EventSeries
