import EventSeries.Proofs.Refresh.Writes
import EventSeries.Proofs.Store.Memory

/-
  Any number of holders refresh their copies of some events,
  one call after the other in any order, each with records,
  windows, a horizon and a present of its own.  They share one
  store in memory, which was given the cached starts of the
  events.  A write goes through exactly if its writer has read
  the start that is stored, so that no write undoes another
  one unseen.

  Main declarations:
    * `HeldCall`
    * `Sharing`
    * `Sharing.Ends`
    * `Sharing.Replaces`
    * `Sharing.ends_of_entry`
    * `Sharing.advances_after`
    * `Sharing.advances_of_run`
    * `Sharing.no_update_lost`
-/

namespace EventSeries

------------------------------------------------------------
-- Holders
------------------------------------------------------------

/- A refresh that a holder makes of its copy. -/
structure HeldCall (ι : Type) where
  holder : ι
  scheduler : Scheduler
  records : List ExceptionRecord := []
  windows : List HolidayWindow := []
  maxOccurrences : Nat
  horizonEnd : Option Instant

/- The copies of the holders, and the store that they share. -/
structure Sharing (ι : Type) where
  copies : ι → Event
  store : MemoryStore

namespace Sharing

variable {ι : Type}

/- The copy with which a call is made. -/
def copy
    (s : Sharing ι)
    (c : HeldCall ι) : Event :=
  s.copies c.holder

/- The series that the refresh of a call goes by. -/
def seriesOf
    (s : Sharing ι)
    (c : HeldCall ι) : Bounded (List Occurrence) :=
  c.scheduler.refreshSeries (s.copy c) c.records c.windows
    c.maxOccurrences c.horizonEnd

/- What a call does, as a whole. -/
def refreshed
    (s : Sharing ι)
    (c : HeldCall ι) : Refreshed MemoryStore :=
  c.scheduler.refresh (s.copy c) c.records c.windows
    c.maxOccurrences c.horizonEnd s.store

/- A call changes the copy of its holder, and the store. -/
def after
    [DecidableEq ι]
    (s : Sharing ι)
    (c : HeldCall ι) : Sharing ι where
  copies := Function.update s.copies c.holder (s.refreshed c).event
  store := (s.refreshed c).store

/- Calls in a row, in the order in which they are made. -/
def run
    [DecidableEq ι]
    (s : Sharing ι)
    (calls : List (HeldCall ι)) : Sharing ι :=
  calls.foldl after s

------------------------------------------------------------
-- Ends Of A Call
------------------------------------------------------------

/- A call that fails leaves its copy and the store alone. -/
structure Fails
    (s : Sharing ι)
    (c : HeldCall ι)
    (error : ScheduleError) : Prop where
  outcome : (s.refreshed c).outcome = .error error
  event : (s.refreshed c).event = s.copy c
  store : (s.refreshed c).store = s.store

/- So does a call that finds its copy up to date. -/
structure FindsSame
    (s : Sharing ι)
    (c : HeldCall ι)
    (os : List Occurrence)
    (next : Option Instant) : Prop where
  outcome : (s.refreshed c).outcome = .ok ⟨next, false, os⟩
  event : (s.refreshed c).event = s.copy c
  store : (s.refreshed c).store = s.store

/-
  A call that writes a start leaves it in its copy and in the
  store, and leaves the entries of all other events alone.
-/
structure Writes
    (s : Sharing ι)
    (c : HeldCall ι)
    (os : List Occurrence)
    (next : Option Instant) : Prop where
  outcome : (s.refreshed c).outcome = .ok ⟨next, true, os⟩
  event : (s.refreshed c).event = (s.copy c).withCache next
  entry : MemoryStore.entry? (s.refreshed c).store (s.copy c).id =
      some next
  writes : (s.refreshed c).store.writes = s.store.writes + 1
  others :
    ∀ other, other ≠ (s.copy c).id →
      MemoryStore.entry? (s.refreshed c).store other =
        s.store.entry? other

/- A call has a series, and this is the start that it gives. -/
def Gives
    (s : Sharing ι)
    (c : HeldCall ι)
    (os : List Occurrence)
    (next : Option Instant) : Prop :=
  s.seriesOf c = .ok os ∧
    (s.copy c).upcomingStart? c.scheduler.now os = next

/-
  How a call ends.  It has to write the start that its series
  gives, unless its copy has it already.  Then it succeeds if
  its copy has the start that is stored for the event, and is
  refused as a stale one otherwise.
-/
structure Ends
    (s : Sharing ι)
    (c : HeldCall ι) : Prop where
  outOfRange :
    ∀ range, s.seriesOf c = .error range →
      s.Fails c (.outOfRange range)
  same :
    ∀ os next, s.Gives c os next →
      (s.copy c).nextStart = next → s.FindsSame c os next
  current :
    ∀ os next, s.Gives c os next →
      (s.copy c).nextStart ≠ next →
        s.store.get (s.copy c).id = (s.copy c).nextStart →
          s.Writes c os next
  stale :
    ∀ os next, s.Gives c os next →
      (s.copy c).nextStart ≠ next →
        s.store.get (s.copy c).id ≠ (s.copy c).nextStart →
          s.Fails c (MemoryStore.staleWrite (s.copy c).id)

section

variable {s : Sharing ι}
variable {c : HeldCall ι}

theorem fails_of_outOfRange
    {range : OutOfRange}
    (hSeries : s.seriesOf c = .error range) :
    s.Fails c (.outOfRange range) := by
  rcases Scheduler.refresh_of_outOfRange hSeries s.store with
    ⟨log, hDone⟩
  constructor <;> rw [refreshed, hDone]

section

variable {os : List Occurrence}
variable {next : Option Instant}

variable (hGives : s.Gives c os next)

include hGives

/- A call with a series applies it to its copy. -/
theorem refreshed_of_gives :
    ∃ log,
      s.refreshed c =
        { applyRefresh (s.copy c) os c.scheduler.now s.store with
          log := log } :=
  Scheduler.refresh_of_refreshSeries hGives.1 s.store

theorem findsSame_of_eq
    (hSame : (s.copy c).nextStart = next) :
    s.FindsSame c os next := by
  rcases refreshed_of_gives hGives with ⟨log, hDone⟩
  rcases hGives with ⟨_, rfl⟩
  rw [Scheduler.applyRefresh_of_same hSame] at hDone
  constructor
  · rw [hDone]
  · rw [hDone]
  · rw [hDone]

section

variable (hDiffers : (s.copy c).nextStart ≠ next)

include hDiffers

theorem writes_of_current
    (hEntry :
      s.store.entry? (s.copy c).id = some (s.copy c).nextStart) :
    s.Writes c os next := by
  rcases refreshed_of_gives hGives with ⟨log, hDone⟩
  rcases hGives with ⟨_, rfl⟩
  rw [Scheduler.applyRefresh_of_written hDiffers
    (MemoryStore.write_of_current hEntry _)] at hDone
  refine ⟨?_, ?_, ?_, ?_, ?_⟩
  · rw [hDone]
  · rw [hDone]
  · rw [hDone]
    exact MemoryStore.entry?_insert_self _ _ _
  · rw [hDone]
    rfl
  · intro other hOther
    rw [hDone]
    exact MemoryStore.entry?_insert_of_ne hOther

theorem fails_of_stale
    {value : Option Instant}
    (hEntry : s.store.entry? (s.copy c).id = some value)
    (hStale : value ≠ (s.copy c).nextStart) :
    s.Fails c (MemoryStore.staleWrite (s.copy c).id) := by
  rcases refreshed_of_gives hGives with ⟨log, hDone⟩
  rcases hGives with ⟨_, rfl⟩
  rw [Scheduler.applyRefresh_of_refused hDiffers
    (MemoryStore.write_of_stale hEntry hStale _)] at hDone
  constructor
  · rw [hDone]
  · rw [hDone]
  · rw [hDone]

end

end

/- With an entry in the store a call ends in one of these ways. -/
theorem ends_of_entry
    (hEntry : ∃ value, s.store.entry? (s.copy c).id = some value) :
    s.Ends c := by
  rcases hEntry with ⟨value, hEntry⟩
  have hStored := MemoryStore.get_of_entry hEntry
  refine ⟨?_, ?_, ?_, ?_⟩
  · intro range hSeries
    exact fails_of_outOfRange hSeries
  · intro os next hGives hSame
    exact findsSame_of_eq hGives hSame
  · intro os next hGives hDiffers hCurrent
    rw [hStored] at hCurrent
    subst hCurrent
    exact writes_of_current hGives hDiffers hEntry
  · intro os next hGives hDiffers hStale
    rw [hStored] at hStale
    exact fails_of_stale hGives hDiffers hEntry hStale

end

------------------------------------------------------------
-- Writes That Replace What Was Read
------------------------------------------------------------

/- The write of a call that returned a change. -/
def change?
    (s : Sharing ι)
    (c : HeldCall ι) : Option StoreCall :=
  match (s.refreshed c).outcome with
  | .ok ⟨next, true, _⟩ =>
      some ⟨(s.copy c).id, (s.copy c).nextStart, next⟩
  | _ => none

/-
  The writes for an event, among some in a row, replace each
  what the one before it has written: the first replaces
  `value`, and the last one has written `last`.
-/
def Replaces
    (event : Id) :
    Option Instant → List StoreCall → Option Instant → Prop
  | value, [], last => value = last
  | value, w :: later, last =>
      if w.event = event then
        w.previous = value ∧ Replaces event w.next later last
      else
        Replaces event value later last

theorem Replaces.append
    {event : Id}
    {value middle last : Option Instant}
    {earlier later : List StoreCall}
    (hEarlier : Replaces event value earlier middle)
    (hLater : Replaces event middle later last) :
    Replaces event value (earlier ++ later) last := by
  induction earlier generalizing value with
  | nil =>
      cases hEarlier
      exact hLater
  | cons w earlier ih =>
      rw [Replaces] at hEarlier
      rw [List.cons_append, Replaces]
      split at hEarlier
      · rename_i hEvent
        rw [if_pos hEvent]
        exact ⟨hEarlier.1, ih hEarlier.2⟩
      · rename_i hOther
        rw [if_neg hOther]
        exact ih hEarlier

/-
  A call either changes nothing in the store, or replaces the
  start that its copy has read and counts as one write.
-/
theorem change_cases
    {s : Sharing ι}
    {c : HeldCall ι}
    (hEnds : s.Ends c) :
    (s.refreshed c).event.id = (s.copy c).id ∧
    ((s.change? c = none ∧ (s.refreshed c).store = s.store) ∨
    ∃ os next,
      s.store.get (s.copy c).id = (s.copy c).nextStart ∧
      s.change? c =
        some ⟨(s.copy c).id, (s.copy c).nextStart, next⟩ ∧
      s.Writes c os next) := by
  have hFails {error : ScheduleError} (hFailed : s.Fails c error) :
      (s.refreshed c).event.id = (s.copy c).id ∧
        s.change? c = none ∧
        (s.refreshed c).store = s.store := by
    refine ⟨by rw [hFailed.event], ?_, hFailed.store⟩
    rw [change?, hFailed.outcome]
  cases hSeries : s.seriesOf c with
  | error range =>
      rcases hFails (hEnds.outOfRange range hSeries) with
        ⟨hId, hNone⟩
      exact ⟨hId, Or.inl hNone⟩
  | ok os =>
      have hGives : s.Gives c os _ := ⟨hSeries, rfl⟩
      by_cases hSame :
          (s.copy c).nextStart =
            (s.copy c).upcomingStart? c.scheduler.now os
      · have hFound := hEnds.same os _ hGives hSame
        refine ⟨by rw [hFound.event], Or.inl ⟨?_, hFound.store⟩⟩
        rw [change?, hFound.outcome]
      · by_cases hCurrent :
            s.store.get (s.copy c).id = (s.copy c).nextStart
        · have hWrites := hEnds.current os _ hGives hSame hCurrent
          refine ⟨?_, Or.inr ⟨os, _, hCurrent, ?_, hWrites⟩⟩
          · rw [hWrites.event, Event.withCache_id]
          · rw [change?, hWrites.outcome]
        · rcases hFails (hEnds.stale os _ hGives hSame hCurrent)
            with ⟨hId, hNone⟩
          exact ⟨hId, Or.inl hNone⟩

/- A write for one event replaces nothing of another. -/
theorem replaces_of_writes
    {s : Sharing ι}
    {c : HeldCall ι}
    {os : List Occurrence}
    {next : Option Instant}
    (hCurrent :
      s.store.get (s.copy c).id = (s.copy c).nextStart)
    (hWrites : s.Writes c os next)
    (event : Id) :
    Replaces event (s.store.get event)
      [⟨(s.copy c).id, (s.copy c).nextStart, next⟩]
      ((s.refreshed c).store.get event) := by
  rw [Replaces]
  by_cases hEvent : (s.copy c).id = event
  · subst hEvent
    rw [if_pos rfl]
    exact ⟨hCurrent.symm,
      (MemoryStore.get_of_entry hWrites.entry).symm⟩
  · rw [if_neg hEvent, Replaces, MemoryStore.get,
      MemoryStore.get, hWrites.others event (Ne.symm hEvent)]

------------------------------------------------------------
-- One Call
------------------------------------------------------------

/- Each copy is of an event with an entry in the store. -/
def HasEntries
    (s : Sharing ι) : Prop :=
  ∀ i, ∃ value, s.store.entry? (s.copies i).id = some value

variable [DecidableEq ι]

/- A call counts its write, and replaces what it has read. -/
structure Advances
    (s : Sharing ι)
    (changes : List StoreCall)
    (done : Sharing ι) : Prop where
  entries : done.HasEntries
  writes : done.store.writes = s.store.writes + changes.length
  replaces :
    ∀ event,
      Replaces event (s.store.get event) changes
        (done.store.get event)

theorem id_after
    {s : Sharing ι}
    {c : HeldCall ι}
    (hId : (s.refreshed c).event.id = (s.copy c).id)
    (i : ι) :
    ((s.after c).copies i).id = (s.copies i).id := by
  change (Function.update s.copies c.holder _ i).id = _
  by_cases hHolder : i = c.holder
  · subst hHolder
    rw [Function.update_self]
    exact hId
  · rw [Function.update_of_ne hHolder]

theorem advances_after
    {s : Sharing ι}
    (hEntries : s.HasEntries)
    (c : HeldCall ι) :
    s.Advances (s.change? c).toList (s.after c) := by
  have hEnds : s.Ends c := ends_of_entry (hEntries c.holder)
  rcases change_cases hEnds with
    ⟨hId, ⟨hNone, hStore⟩ |
      ⟨os, next, hCurrent, hChange, hWrites⟩⟩
  · have hAfter : (s.after c).store = s.store := hStore
    rw [hNone]
    refine ⟨?_, ?_, ?_⟩
    · intro i
      rw [hAfter, id_after hId]
      exact hEntries i
    · rw [hAfter]
      rfl
    · intro event
      rw [hAfter]
      rfl
  · rw [hChange]
    refine ⟨?_, hWrites.writes, ?_⟩
    · intro i
      rw [id_after hId]
      by_cases hEvent : (s.copies i).id = (s.copy c).id
      · rw [hEvent]
        exact ⟨next, hWrites.entry⟩
      · rcases hEntries i with ⟨value, hEntry⟩
        exact ⟨value,
          (hWrites.others (s.copies i).id hEvent).trans hEntry⟩
    · exact replaces_of_writes hCurrent hWrites

------------------------------------------------------------
-- Runs
------------------------------------------------------------

/- The writes of those calls in a row that returned a change. -/
def changes :
    Sharing ι → List (HeldCall ι) → List StoreCall
  | _, [] => []
  | s, c :: later =>
      (s.change? c).toList ++ changes (s.after c) later

/- What one call keeps a whole run keeps. -/
theorem advances_of_run
    {s : Sharing ι}
    (hEntries : s.HasEntries)
    (calls : List (HeldCall ι)) :
    s.Advances (s.changes calls) (s.run calls) := by
  induction calls generalizing s with
  | nil => exact ⟨hEntries, rfl, fun _ => rfl⟩
  | cons c later ih =>
      have hFirst := advances_after hEntries c
      have hRest := ih hFirst.entries
      refine ⟨hRest.entries, ?_, ?_⟩
      · rw [changes, List.length_append, ← Nat.add_assoc,
          ← hFirst.writes]
        exact hRest.writes
      · intro event
        exact (hFirst.replaces event).append
          (hRest.replaces event)

/-
  Whatever calls the holders of copies have made, in whatever
  order: the store has counted the writes of those that
  returned a change; the writes for an event have each replaced
  what the one before has written, from the start seeded to the
  one stored now; and the next call, whoever makes it, ends as
  `Ends` says.
-/
theorem no_update_lost
    {events : List Event}
    {copies : ι → Event}
    (hHeld : ∀ i, ∃ e ∈ events, e.id = (copies i).id)
    (calls : List (HeldCall ι)) :
    let first : Sharing ι := ⟨copies, MemoryStore.seeded events⟩
    let s := first.run calls
    s.store.writes = (first.changes calls).length ∧
      (∀ event,
        Replaces event (first.store.get event)
          (first.changes calls) (s.store.get event)) ∧
      ∀ c, s.Ends c := by
  intro first s
  have hEntries : first.HasEntries := fun i =>
    MemoryStore.exists_entry_seeded (hHeld i)
  have hRun := advances_of_run hEntries calls
  refine ⟨?_, hRun.replaces, ?_⟩
  · rw [hRun.writes, MemoryStore.writes_seeded, Nat.zero_add]
  · intro c
    exact ends_of_entry (hRun.entries c.holder)

/-
  Two holders of jazz night refresh it on its first evening
  and a week later.  The first one writes the second night.
  The other one has not seen that, and cannot write the third
  one until it has.
-/
theorem no_update_lost_jazzNight :
    let call (holder : Bool) (week : Nat) : HeldCall Bool :=
      { holder := holder
        scheduler := Scheduler.inZone .utc (nightTime week 1)
        maxOccurrences := 10
        horizonEnd := some (nightTime 5 0) }
    let first : Sharing Bool :=
      ⟨fun _ => jazzNight, MemoryStore.seeded [jazzNight]⟩
    let s := first.run [call false 0, call true 1]
    s.store.writes = 1 ∧
      s.store.get jazzNight.id = some (nightTime 1 0) ∧
      Replaces jazzNight.id none
        [⟨jazzNight.id, none, some (nightTime 1 0)⟩]
        (s.store.get jazzNight.id) ∧
      s.Fails (call true 1)
        (MemoryStore.staleWrite jazzNight.id) ∧
      (∃ os,
        s.Writes (call false 1) os (some (nightTime 2 0))) := by
  intro call first s
  have hHeld :
      ∀ i, ∃ e ∈ [jazzNight], e.id = (first.copies i).id :=
    fun _ => ⟨jazzNight, List.mem_singleton_self _, rfl⟩
  have hRun := no_update_lost hHeld [call false 0, call true 1]
  change s.store.writes = (first.changes _).length ∧
    (∀ event, Replaces event (first.store.get event)
      (first.changes _) (s.store.get event)) ∧
    ∀ c, s.Ends c at hRun
  have hChanges :
      first.changes [call false 0, call true 1] =
        [⟨jazzNight.id, none, some (nightTime 1 0)⟩] := by
    cbv
  have hStored :
      s.store.get jazzNight.id = some (nightTime 1 0) := by
    cbv
  have hNext (holder : Bool) :
      (s.seriesOf (call holder 1)).map
          (jazzNight.upcomingStart? (nightTime 1 1)) =
        .ok (some (nightTime 2 0)) := by
    cases holder <;> cbv
  have hSeen :
      s.copy (call false 1) =
        jazzNight.withCache (some (nightTime 1 0)) := by
    cbv
  have hUnseen : s.copy (call true 1) = jazzNight := by
    cbv
  rw [hChanges] at hRun
  rcases hRun with ⟨hWrites, hReplaces, hEnds⟩
  refine ⟨hWrites, hStored, hReplaces jazzNight.id, ?_, ?_⟩
  · rcases exists_ok_of_map (hNext true) with ⟨os, hOs, hStart⟩
    have hGives :
        s.Gives (call true 1) os (some (nightTime 2 0)) := by
      refine ⟨hOs, ?_⟩
      rw [hUnseen]
      exact hStart
    have hStale := (hEnds (call true 1)).stale os _ hGives
    rw [hUnseen, hStored] at hStale
    exact hStale (by decide) (by decide)
  · rcases exists_ok_of_map (hNext false) with ⟨os, hOs, hStart⟩
    have hGives :
        s.Gives (call false 1) os (some (nightTime 2 0)) := by
      refine ⟨hOs, ?_⟩
      rw [hSeen]
      exact hStart
    have hCurrent := (hEnds (call false 1)).current os _ hGives
    rw [hSeen] at hCurrent
    exact ⟨os, hCurrent (by decide) hStored⟩

end Sharing

end EventSeries
