import EventSeries.Proofs.Series.Recurring
import EventSeries.Refresh

/-
  What a refresh does: it succeeds with the start that its
  series gives and caches it, or its store refuses the write,
  or there is no series and nothing changes.

  Main declarations:
    * `Scheduler.movedTo`
    * `Scheduler.refreshSeries`
    * `Scheduler.refresh_of_ok`
    * `Scheduler.RefreshesTo`
    * `Scheduler.refreshesTo_of_series`
    * `Scheduler.RefreshesTo.empty_store`
    * `Scheduler.Refreshes`
-/

namespace EventSeries

namespace Scheduler

variable {σ : Type}
variable [StartStore σ]

/- The scheduler at another present. -/
def movedTo
    (s : Scheduler)
    (now : Instant) : Scheduler :=
  { s with now := now }

------------------------------------------------------------
-- One Write
------------------------------------------------------------

section

variable {e : Event}
variable {os : List Occurrence}
variable {now : Instant}
variable {store store' : σ}

/- A start that is cached already is not written. -/
theorem applyRefresh_of_same
    (hSame : e.nextStart = e.upcomingStart? now os)
    (store : σ) :
    applyRefresh e os now store =
      ⟨.ok ⟨e.upcomingStart? now os, false, os⟩, e, store,
        [.nextStartUnchanged e.id]⟩ := by
  simp only [applyRefresh]
  exact if_pos hSame

/- A start that the store accepts is cached. -/
theorem applyRefresh_of_written
    (hDiffers : e.nextStart ≠ e.upcomingStart? now os)
    (hWrite :
      StartStore.write store e.id e.nextStart
        (e.upcomingStart? now os) = (.ok (), store')) :
    applyRefresh e os now store =
      ⟨.ok ⟨e.upcomingStart? now os, true, os⟩,
        e.withCache (e.upcomingStart? now os), store',
        [cacheEntry e.id (e.upcomingStart? now os)]⟩ := by
  simp only [applyRefresh]
  rw [if_neg hDiffers, hWrite]
  rfl

/- The error of a store that refuses is handed on. -/
theorem applyRefresh_of_refused
    {error : ScheduleError}
    (hDiffers : e.nextStart ≠ e.upcomingStart? now os)
    (hWrite :
      StartStore.write store e.id e.nextStart
        (e.upcomingStart? now os) = (.error error, store')) :
    applyRefresh e os now store =
      ⟨.error error, e, store', []⟩ := by
  simp only [applyRefresh]
  rw [if_neg hDiffers, hWrite]

/- Writing a start succeeds with it, or the store refuses. -/
theorem applyRefresh_cases
    (e : Event)
    (os : List Occurrence)
    (now : Instant)
    (store : σ) :
    let next := e.upcomingStart? now os
    let applied := applyRefresh e os now store
    (∃ changed, applied.outcome = .ok ⟨next, changed, os⟩ ∧
      applied.event = e.withCache next) ∨
    (e.nextStart ≠ next ∧ ∃ error,
      (StartStore.write store e.id e.nextStart next).1 =
          .error error ∧
        applied.outcome = .error error ∧
        applied.event = e) := by
  intro next applied
  by_cases hSame : e.nextStart = next
  · left
    refine ⟨false, ?_, ?_⟩
    · simp only [applied, applyRefresh_of_same hSame, next]
    · simp only [applied, applyRefresh_of_same hSame]
      exact (Event.withCache_self hSame).symm
  · cases hWrite :
        StartStore.write store e.id e.nextStart next with
    | mk result store' =>
        cases result with
        | error error =>
            right
            refine ⟨hSame, error, rfl, ?_, ?_⟩
            · simp only [applied,
                applyRefresh_of_refused hSame hWrite]
            · simp only [applied,
                applyRefresh_of_refused hSame hWrite]
        | ok _ =>
            left
            refine ⟨true, ?_, ?_⟩
            · simp only [applied,
                applyRefresh_of_written hSame hWrite, next]
            · simp only [applied,
                applyRefresh_of_written hSame hWrite, next]

end

------------------------------------------------------------
-- One Refresh
------------------------------------------------------------

/-
  The series that a refresh goes by: past occurrences are
  included, up to the horizon given or that of the settings.
-/
def refreshSeries
    (s : Scheduler)
    (e : Event)
    (records : List ExceptionRecord)
    (windows : List HolidayWindow)
    (maxOccurrences : Nat)
    (horizonEnd : Option Instant) :
    Bounded (List Occurrence) := do
  s.series e records windows {
    maxOccurrences := maxOccurrences
    includePast := true
    horizonEnd := some (← s.horizonOr horizonEnd) }

section

variable {s : Scheduler}
variable {e : Event}
variable {records : List ExceptionRecord}
variable {windows : List HolidayWindow}
variable {maxOccurrences : Nat}
variable {horizonEnd : Option Instant}
variable {store : σ}

theorem refreshSeries_eq_ok_iff
    {os : List Occurrence} :
    s.refreshSeries e records windows maxOccurrences
        horizonEnd = .ok os ↔
      ∃ horizon,
        s.horizonOr horizonEnd = .ok horizon ∧
        s.series e records windows
          (refreshOptions maxOccurrences horizon) = .ok os := by
  unfold refreshSeries
  cases s.horizonOr horizonEnd with
  | error range =>
      refine ⟨nofun, ?_⟩
      rintro ⟨horizon, hHorizon, _⟩
      cases hHorizon
  | ok horizon =>
      constructor
      · intro hSeries
        exact ⟨horizon, rfl, hSeries⟩
      · rintro ⟨other, hHorizon, hSeries⟩
        cases hHorizon
        exact hSeries

/- A refresh with a series applies it, and only reports more. -/
theorem refresh_of_refreshSeries
    {os : List Occurrence}
    (hSeries :
      s.refreshSeries e records windows maxOccurrences
        horizonEnd = .ok os)
    (store : σ) :
    ∃ log,
      s.refresh e records windows maxOccurrences horizonEnd
          store =
        { applyRefresh e os s.now store with log := log } := by
  rcases refreshSeries_eq_ok_iff.mp hSeries with
    ⟨horizon, hHorizon, hOs⟩
  unfold series at hOs
  simp only [refresh, hHorizon, hOs]
  exact ⟨_, rfl⟩

/- A refresh without a series does not come to the store. -/
theorem refresh_of_outOfRange
    {range : OutOfRange}
    (hSeries :
      s.refreshSeries e records windows maxOccurrences
        horizonEnd = .error range)
    (store : σ) :
    ∃ log,
      s.refresh e records windows maxOccurrences horizonEnd
          store =
        ⟨.error (.outOfRange range), e, store, log⟩ := by
  unfold refreshSeries at hSeries
  unfold refresh
  cases hHorizon : s.horizonOr horizonEnd with
  | error other =>
      rw [hHorizon] at hSeries
      cases hSeries
      exact ⟨_, rfl⟩
  | ok horizon =>
      rw [hHorizon] at hSeries
      change (s.tracedSeries e records windows
        (refreshOptions maxOccurrences horizon)).value = _
        at hSeries
      simp only [hSeries]
      exact ⟨_, rfl⟩

theorem refresh_of_series
    {horizon : Instant}
    {os : List Occurrence}
    (hHorizon : s.horizonOr horizonEnd = .ok horizon)
    (hSeries :
      s.series e records windows
        (refreshOptions maxOccurrences horizon) = .ok os)
    (store : σ) :
    let done := s.refresh e records windows maxOccurrences
      horizonEnd store
    let applied := applyRefresh e os s.now store
    done.outcome = applied.outcome ∧
      done.event = applied.event := by
  intro done applied
  rcases
      refresh_of_refreshSeries
        (refreshSeries_eq_ok_iff.mpr ⟨horizon, hHorizon, hSeries⟩)
        store with
    ⟨log, hDone⟩
  simp only [done, applied, hDone, and_self]

/-
  A refresh that succeeds has a series, returns it with the
  start that it gives, and caches that start.
-/
theorem refresh_of_ok
    {out : RefreshOutcome}
    (hDone :
      (s.refresh e records windows maxOccurrences horizonEnd
        store).outcome = .ok out) :
    ∃ horizon,
      s.horizonOr horizonEnd = .ok horizon ∧
      s.series e records windows
        (refreshOptions maxOccurrences horizon) =
          .ok out.occurrences ∧
      out.nextStart = e.upcomingStart? s.now out.occurrences ∧
      (s.refresh e records windows maxOccurrences horizonEnd
        store).event = e.withCache out.nextStart := by
  cases hSeries : s.refreshSeries e records windows
      maxOccurrences horizonEnd with
  | error range =>
      rcases refresh_of_outOfRange hSeries store with
        ⟨log, hRefresh⟩
      rw [hRefresh] at hDone
      cases hDone
  | ok os =>
      rcases refresh_of_refreshSeries hSeries store with
        ⟨log, hRefresh⟩
      rw [hRefresh] at hDone ⊢
      rcases refreshSeries_eq_ok_iff.mp hSeries with
        ⟨horizon, hHorizon, hOs⟩
      rcases applyRefresh_cases e os s.now store with
        ⟨changed, hOk, hCached⟩ | ⟨_, error, _, hError, _⟩
      · simp only [hOk, Except.ok.injEq] at hDone
        subst hDone
        exact ⟨horizon, hHorizon, hOs, rfl, hCached⟩
      · simp only [hError] at hDone
        cases hDone

/- A refresh that fails leaves the event as it was. -/
theorem refresh_of_error
    {error : ScheduleError}
    (hDone :
      (s.refresh e records windows maxOccurrences horizonEnd
        store).outcome = .error error) :
    (s.refresh e records windows maxOccurrences horizonEnd
      store).event = e := by
  cases hSeries : s.refreshSeries e records windows
      maxOccurrences horizonEnd with
  | error range =>
      rcases refresh_of_outOfRange hSeries store with
        ⟨log, hRefresh⟩
      rw [hRefresh]
  | ok os =>
      rcases refresh_of_refreshSeries hSeries store with
        ⟨log, hRefresh⟩
      rw [hRefresh] at hDone ⊢
      rcases applyRefresh_cases e os s.now store with
        ⟨changed, hOk, _⟩ | ⟨_, _, _, _, hSame⟩
      · simp only [hOk] at hDone
        cases hDone
      · exact hSame

/- A refresh knows the records only by the series they give. -/
theorem refresh_congr
    {others : List ExceptionRecord}
    (hSeries :
      ∀ o, s.series e records windows o =
        s.series e others windows o)
    (store : σ) :
    let done := s.refresh e records windows maxOccurrences
      horizonEnd store
    let other := s.refresh e others windows maxOccurrences
      horizonEnd store
    done.outcome = other.outcome ∧
      done.event = other.event ∧
      done.store = other.store := by
  intro done other
  have hSame :
      s.refreshSeries e records windows maxOccurrences
          horizonEnd =
        s.refreshSeries e others windows maxOccurrences
          horizonEnd := by
    unfold refreshSeries
    cases s.horizonOr horizonEnd with
    | error range => rfl
    | ok horizon => exact hSeries _
  cases hOs : s.refreshSeries e records windows maxOccurrences
      horizonEnd with
  | error range =>
      rcases refresh_of_outOfRange hOs store with ⟨_, hDone⟩
      rcases refresh_of_outOfRange (hSame ▸ hOs) store with
        ⟨_, hOther⟩
      simp only [done, other, hDone, hOther, and_self]
  | ok os =>
      rcases refresh_of_refreshSeries hOs store with ⟨_, hDone⟩
      rcases refresh_of_refreshSeries (hSame ▸ hOs) store with
        ⟨_, hOther⟩
      simp only [done, other, hDone, hOther, and_self]

end

------------------------------------------------------------
-- The Start That A Refresh Gives
------------------------------------------------------------

/-
  A refresh from any store succeeds with this start, unless
  the store refuses to write it.
-/
def RefreshesTo
    (s : Scheduler)
    (e : Event)
    (records : List ExceptionRecord)
    (windows : List HolidayWindow)
    (maxOccurrences : Nat)
    (horizonEnd next : Option Instant) : Prop :=
  ∀ (σ : Type) [StartStore σ] (store : σ),
    let done := s.refresh e records windows maxOccurrences
      horizonEnd store
    (∃ out, done.outcome = .ok out ∧ out.nextStart = next) ∨
    (e.nextStart ≠ next ∧ ∃ error,
      (StartStore.write store e.id e.nextStart next).1 =
          .error error ∧
        done.outcome = .error error)

theorem refreshesTo_of_series
    {s : Scheduler}
    {e : Event}
    {records : List ExceptionRecord}
    {windows : List HolidayWindow}
    {maxOccurrences : Nat}
    {horizonEnd : Option Instant}
    {horizon : Instant}
    {os : List Occurrence}
    (hHorizon : s.horizonOr horizonEnd = .ok horizon)
    (hSeries :
      s.series e records windows
        (refreshOptions maxOccurrences horizon) = .ok os) :
    s.RefreshesTo e records windows maxOccurrences horizonEnd
      (e.upcomingStart? s.now os) := by
  intro σ _ store done
  have hOutcome :=
    (refresh_of_series hHorizon hSeries store).1
  change done.outcome = _ at hOutcome
  rw [hOutcome]
  rcases applyRefresh_cases e os s.now store with
    ⟨changed, hOk, _⟩ | ⟨hChanged, error, hWrite, hError, _⟩
  · exact Or.inl ⟨_, hOk, rfl⟩
  · exact Or.inr ⟨hChanged, error, hWrite, hError⟩

/- A store in memory without entries refuses no write. -/
theorem RefreshesTo.empty_store
    {s : Scheduler}
    {e : Event}
    {records : List ExceptionRecord}
    {windows : List HolidayWindow}
    {maxOccurrences : Nat}
    {horizonEnd next : Option Instant}
    (hRefreshes :
      s.RefreshesTo e records windows maxOccurrences horizonEnd
        next) :
    ∃ out,
      (s.refresh e records windows maxOccurrences horizonEnd
        ({} : MemoryStore)).outcome = .ok out ∧
      out.nextStart = next := by
  rcases hRefreshes MemoryStore {} with
    hOk | ⟨_, error, hWrite, _⟩
  · exact hOk
  · cases hWrite

/- A refresh gives one start. -/
theorem RefreshesTo.unique
    {s : Scheduler}
    {e : Event}
    {records : List ExceptionRecord}
    {windows : List HolidayWindow}
    {maxOccurrences : Nat}
    {horizonEnd next other : Option Instant}
    (hRefreshes :
      s.RefreshesTo e records windows maxOccurrences horizonEnd
        next)
    (hOther :
      s.RefreshesTo e records windows maxOccurrences horizonEnd
        other) :
    next = other := by
  rcases hRefreshes.empty_store with ⟨out, hOut, rfl⟩
  rcases hOther.empty_store with ⟨again, hAgain, rfl⟩
  rw [hOut, Except.ok.injEq] at hAgain
  rw [hAgain]

------------------------------------------------------------
-- Refreshes In A Row
------------------------------------------------------------

/-
  Refreshes of an event at some times, one after another and
  all successful, lead to an event and a store.
-/
inductive Refreshes
    (s : Scheduler)
    (records : List ExceptionRecord)
    (windows : List HolidayWindow)
    (maxOccurrences : Nat)
    (horizonEnd : Option Instant)
    (e : Event)
    (store : σ) :
    List Instant → Event → σ → Prop where
  | start :
      Refreshes s records windows maxOccurrences horizonEnd e
        store [] e store
  | refresh
      {times : List Instant}
      {now : Instant}
      {e' : Event}
      {store' : σ}
      {out : RefreshOutcome} :
      Refreshes s records windows maxOccurrences horizonEnd e
        store times e' store' →
      ((s.movedTo now).refresh e' records windows
        maxOccurrences horizonEnd store').outcome = .ok out →
      Refreshes s records windows maxOccurrences horizonEnd e
        store (times ++ [now])
        ((s.movedTo now).refresh e' records windows
          maxOccurrences horizonEnd store').event
        ((s.movedTo now).refresh e' records windows
          maxOccurrences horizonEnd store').store

end Scheduler

end EventSeries
