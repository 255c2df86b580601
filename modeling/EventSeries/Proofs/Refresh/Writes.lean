import EventSeries.Proofs.Refresh.Basic
import EventSeries.Proofs.Series.Resumed

/-
  What a refresh writes, to any store.  A store that keeps a
  list of the writes tried on it shows that there is one when
  the pointer of the event changes and none otherwise.  If
  the store refuses it, its error is the outcome, and the
  event stays as it was in every field.

  Main declarations:
    * `Recorded`
    * `Scheduler.refreshCalls`
    * `Event.IsPointer`
    * `Refreshed.Settles`
    * `Scheduler.refresh_recorded`
    * `Scheduler.refresh_writes_on_change`
-/

namespace EventSeries

------------------------------------------------------------
-- Stores That Record Their Writes
------------------------------------------------------------

/- A write as the store is asked for it. -/
structure StoreCall where
  event : Id
  previous : Option Instant
  next : Option Instant
  deriving DecidableEq, Repr

/- A store, and the writes that were tried on it so far. -/
structure Recorded (σ : Type) where
  store : σ
  calls : List StoreCall := []

section

variable {σ : Type}
variable [StartStore σ]

/- It answers as the store itself does. -/
instance : StartStore (Recorded σ) where
  write s event previous next :=
    let written := StartStore.write s.store event previous next
    (written.1,
      ⟨written.2, s.calls ++ [⟨event, previous, next⟩]⟩)

theorem recorded_write
    {store store' : σ}
    {result : Except ScheduleError Unit}
    {event : Id}
    {previous next : Option Instant}
    (hWrite :
      StartStore.write store event previous next =
        (result, store'))
    (calls : List StoreCall) :
    StartStore.write (⟨store, calls⟩ : Recorded σ) event
        previous next =
      (result, ⟨store', calls ++ [⟨event, previous, next⟩]⟩) := by
  change ((StartStore.write store event previous next).1, _) = _
  rw [hWrite]

/- Recording leaves the run as it is. -/
theorem applyRefresh_recorded
    (e : Event)
    (os : List Occurrence)
    (now : Instant)
    (store : σ)
    (calls : List StoreCall) :
    let seen := applyRefresh e os now
      (⟨store, calls⟩ : Recorded σ)
    let done := applyRefresh e os now store
    seen.outcome = done.outcome ∧
      seen.event = done.event ∧
      seen.store.store = done.store := by
  intro seen done
  by_cases hSame : e.nextStart = e.upcomingStart? now os
  · simp only [seen, done, Scheduler.applyRefresh_of_same hSame,
      and_self]
  · cases hWrite : StartStore.write store e.id e.nextStart
        (e.upcomingStart? now os) with
    | mk result store' =>
        cases result with
        | error error =>
            have hSeen :=
              Scheduler.applyRefresh_of_refused hSame
                (recorded_write hWrite calls)
            simp only [seen, done, hSeen,
              Scheduler.applyRefresh_of_refused hSame hWrite,
              and_self]
        | ok _ =>
            have hSeen :=
              Scheduler.applyRefresh_of_written hSame
                (recorded_write hWrite calls)
            simp only [seen, done, hSeen,
              Scheduler.applyRefresh_of_written hSame hWrite,
              and_self]

end

------------------------------------------------------------
-- Pointers
------------------------------------------------------------

/-
  What an event should cache for a series: the least start
  that is not past if it recurs, and nothing if there is no
  such start or it does not recur.
-/
def Event.IsPointer
    (e : Event)
    (now : Instant)
    (os : List Occurrence) : Option Instant → Prop
  | some next =>
      e.isRecurring = true ∧
        (∃ o ∈ os, o.start = next) ∧ now ≤ next ∧
        ∀ o ∈ os, now ≤ o.start → next ≤ o.start
  | none => e.isRecurring = true → ∀ o ∈ os, o.start < now

/- A series leaves one pointer, the start that it gives. -/
theorem Event.isPointer_iff
    {e : Event}
    {now : Instant}
    {os : List Occurrence}
    {pointer : Option Instant} :
    e.IsPointer now os pointer ↔
      e.upcomingStart? now os = pointer := by
  by_cases hRecurring : e.isRecurring = true
  · rw [upcomingStart?, if_pos hRecurring]
    cases pointer with
    | none =>
        rw [earliestUpcoming?_eq_none_iff]
        exact ⟨fun hPast => hPast hRecurring,
          fun hPast _ => hPast⟩
    | some next =>
        rw [earliestUpcoming?_eq_some_iff]
        exact ⟨And.right, And.intro hRecurring⟩
  · rw [upcomingStart?, if_neg hRecurring]
    cases pointer with
    | none =>
        exact ⟨fun _ => rfl,
          fun _ hRecurs => absurd hRecurs hRecurring⟩
    | some next =>
        exact ⟨fun hLeast => absurd hLeast.1 hRecurring, nofun⟩

------------------------------------------------------------
-- One Write At Most
------------------------------------------------------------

/-
  The three ways in which a refresh ends once it knows the
  pointer: the event has it already, or the store is asked to
  write it and does so or refuses.
-/
inductive Refreshed.Settles
    {σ : Type}
    [StartStore σ]
    (e : Event)
    (os : List Occurrence)
    (pointer : Option Instant)
    (store : σ)
    (done : Refreshed σ)
    (calls : List StoreCall) : Prop where
  | unchanged
      (hSame : e.nextStart = pointer)
      (hCalls : calls = [])
      (hStore : done.store = store)
      (hOutcome : done.outcome = .ok ⟨pointer, false, os⟩)
      (hEvent : done.event = e)
  | written
      (hDiffers : e.nextStart ≠ pointer)
      (hCalls : calls = [⟨e.id, e.nextStart, pointer⟩])
      (hWrite :
        StartStore.write store e.id e.nextStart pointer =
          (.ok (), done.store))
      (hOutcome : done.outcome = .ok ⟨pointer, true, os⟩)
      (hEvent : done.event = e.withCache pointer)
  | refused
      (error : ScheduleError)
      (hDiffers : e.nextStart ≠ pointer)
      (hCalls : calls = [⟨e.id, e.nextStart, pointer⟩])
      (hWrite :
        StartStore.write store e.id e.nextStart pointer =
          (.error error, done.store))
      (hOutcome : done.outcome = .error error)
      (hEvent : done.event = e)

/- A store that records its writes shows how a series is applied. -/
theorem settles_applyRefresh
    {σ : Type}
    [StartStore σ]
    (e : Event)
    (os : List Occurrence)
    (now : Instant)
    (store : σ) :
    let pointer := e.upcomingStart? now os
    let seen := applyRefresh e os now
      ({ store := store } : Recorded σ)
    Refreshed.Settles e os pointer store
      { seen with store := seen.store.store }
      seen.store.calls := by
  intro pointer
  by_cases hSame : e.nextStart = pointer
  · rw [Scheduler.applyRefresh_of_same hSame]
    exact .unchanged hSame rfl rfl rfl rfl
  · cases hWrite :
        StartStore.write store e.id e.nextStart pointer with
    | mk result store' =>
        have hSeen := recorded_write hWrite []
        cases result with
        | error error =>
            rw [Scheduler.applyRefresh_of_refused hSame hSeen]
            exact .refused error hSame rfl hWrite rfl rfl
        | ok _ =>
            rw [Scheduler.applyRefresh_of_written hSame hSeen]
            exact .written hSame rfl hWrite rfl rfl

/- Only the outcome, the event and the store matter. -/
theorem Refreshed.Settles.of_eq
    {σ : Type}
    [StartStore σ]
    {e : Event}
    {os : List Occurrence}
    {pointer : Option Instant}
    {store : σ}
    {done other : Refreshed σ}
    {calls : List StoreCall}
    (hSettles : Settles e os pointer store done calls)
    (hOutcome : other.outcome = done.outcome)
    (hEvent : other.event = done.event)
    (hStore : other.store = done.store) :
    Settles e os pointer store other calls := by
  cases done
  cases other
  subst hOutcome hEvent hStore
  cases hSettles with
  | unchanged hSame hCalls hStore hOutcome hEvent =>
      exact .unchanged hSame hCalls hStore hOutcome hEvent
  | written hDiffers hCalls hWrite hOutcome hEvent =>
      exact .written hDiffers hCalls hWrite hOutcome hEvent
  | refused error hDiffers hCalls hWrite hOutcome hEvent =>
      exact .refused error hDiffers hCalls hWrite hOutcome
        hEvent

------------------------------------------------------------
-- Refreshes
------------------------------------------------------------

namespace Scheduler

section

variable {σ : Type}
variable [StartStore σ]

variable (s : Scheduler)
variable (e : Event)
variable (records : List ExceptionRecord)
variable (windows : List HolidayWindow)
variable (maxOccurrences : Nat)
variable (horizonEnd : Option Instant)

/- The writes that a refresh tries on a store. -/
def refreshCalls
    (store : σ) : List StoreCall :=
  (s.refresh e records windows maxOccurrences horizonEnd
    ({ store := store } : Recorded σ)).store.calls

/- The store that records its writes sees the same refresh. -/
theorem refresh_recorded
    (store : σ) :
    let seen := s.refresh e records windows maxOccurrences
      horizonEnd ({ store := store } : Recorded σ)
    let done := s.refresh e records windows maxOccurrences
      horizonEnd store
    seen.outcome = done.outcome ∧
      seen.event = done.event ∧
      seen.store.store = done.store := by
  intro seen done
  cases hSeries : s.refreshSeries e records windows
      maxOccurrences horizonEnd with
  | error range =>
      rcases refresh_of_outOfRange hSeries store with
        ⟨_, hDone⟩
      rcases
          refresh_of_outOfRange hSeries
            ({ store := store } : Recorded σ) with
        ⟨_, hSeen⟩
      simp only [seen, done, hSeen, hDone, and_self]
  | ok os =>
      rcases refresh_of_refreshSeries hSeries store with
        ⟨_, hDone⟩
      rcases
          refresh_of_refreshSeries hSeries
            ({ store := store } : Recorded σ) with
        ⟨_, hSeen⟩
      rcases applyRefresh_recorded e os s.now store [] with
        ⟨hOutcome, hEvent, hStore⟩
      simp only [seen, done, hSeen, hDone, hOutcome, hEvent,
        hStore, and_self]

variable {s e records windows maxOccurrences horizonEnd}

theorem refreshCalls_of_outOfRange
    {range : OutOfRange}
    (hSeries :
      s.refreshSeries e records windows maxOccurrences
        horizonEnd = .error range)
    (store : σ) :
    s.refreshCalls e records windows maxOccurrences horizonEnd
      store = [] := by
  rcases
      refresh_of_outOfRange hSeries
        ({ store := store } : Recorded σ) with
    ⟨_, hSeen⟩
  rw [refreshCalls, hSeen]

/- A refresh that has a series ends as this is applied. -/
theorem settles_of_refreshSeries
    {os : List Occurrence}
    (hSeries :
      s.refreshSeries e records windows maxOccurrences
        horizonEnd = .ok os)
    (store : σ) :
    let seen := s.refresh e records windows maxOccurrences
      horizonEnd ({ store := store } : Recorded σ)
    Refreshed.Settles e os (e.upcomingStart? s.now os) store
      { seen with store := seen.store.store }
      seen.store.calls := by
  intro seen
  rcases
      refresh_of_refreshSeries hSeries
        ({ store := store } : Recorded σ) with
    ⟨log, hSeen⟩
  simp only [seen, hSeen]
  exact (settles_applyRefresh e os s.now store).of_eq rfl rfl
    rfl

end

/-
  A refresh of any event with any store goes by its series,
  and tries one write exactly if the pointer is not the start
  that the event caches.  A write that is refused, and a
  series or a horizon out of the calendar's range, leave the
  event as it was.
-/
theorem refresh_writes_on_change
    {σ : Type}
    [StartStore σ]
    (s : Scheduler)
    (e : Event)
    (records : List ExceptionRecord)
    (windows : List HolidayWindow)
    (maxOccurrences : Nat)
    (horizonEnd : Option Instant)
    (store : σ) :
    let done := s.refresh e records windows maxOccurrences
      horizonEnd store
    let calls := s.refreshCalls e records windows
      maxOccurrences horizonEnd store
    match s.refreshSeries e records windows maxOccurrences
        horizonEnd with
    | .ok os =>
        ∃ pointer,
          e.IsPointer s.now os pointer ∧
          Refreshed.Settles e os pointer store done calls
    | .error range =>
        done.outcome = .error (.outOfRange range) ∧
          done.event = e ∧
          done.store = store ∧
          calls = [] := by
  intro done calls
  cases hSeries : s.refreshSeries e records windows
      maxOccurrences horizonEnd with
  | error range =>
      have hCalls : calls = [] :=
        refreshCalls_of_outOfRange hSeries store
      rcases refresh_of_outOfRange hSeries store with
        ⟨log, hDone⟩
      change done = _ at hDone
      rw [hDone]
      exact ⟨rfl, rfl, rfl, hCalls⟩
  | ok os =>
      rcases
          refresh_recorded s e records windows maxOccurrences
            horizonEnd store with
        ⟨hOutcome, hEvent, hStore⟩
      refine ⟨_, Event.isPointer_iff.mpr rfl, ?_⟩
      exact (settles_of_refreshSeries hSeries store).of_eq
        hOutcome.symm hEvent.symm hStore.symm

/-
  A store that holds another start for jazz night is asked
  once, and refuses.
-/
example :
    let s := Scheduler.inZone .utc (nightTime 0 52)
    let horizon := some (nightTime 5 0)
    let store := ({} : MemoryStore).seed jazzNight.id
      (some (nightTime 2 0))
    let done := s.refresh jazzNight [] [] 4 horizon store
    s.refreshCalls jazzNight [] [] 4 horizon store =
        [⟨jazzNight.id, none, some (nightTime 1 0)⟩] ∧
      done.outcome =
        .error (MemoryStore.staleWrite jazzNight.id) ∧
      done.event = jazzNight := by
  refine ⟨?_, ?_, ?_⟩
  · cbv
  · cbv
  · cbv

end Scheduler

end EventSeries
