import EventSeries.Proofs.Refresh.Basic

/-
  Runs of refreshes that all succeed.  Each call may come from
  another scheduler, at any time, with records, windows, a
  number, a horizon and a store of its own.  Whatever the
  calls, the event keeps everything but its cached start.

  Main declarations:
    * `RefreshRun`
    * `RefreshRun.of_refresh`
    * `RefreshRun.of_nextStart`
    * `RefreshRun.eq_withCache`
-/

namespace EventSeries

------------------------------------------------------------
-- Runs
------------------------------------------------------------

/- A refresh that succeeded: when it was made, and with what. -/
structure RefreshCall where
  now : Instant
  outcome : RefreshOutcome
  deriving DecidableEq, Repr

/- Calls in a row that lead from an event to another one. -/
inductive RefreshRun
    (e : Event) :
    List RefreshCall → Event → Prop where
  | start :
      RefreshRun e [] e
  | refresh
      {calls : List RefreshCall}
      {e' : Event}
      {s : Scheduler}
      {records : List ExceptionRecord}
      {windows : List HolidayWindow}
      {maxOccurrences : Nat}
      {horizonEnd : Option Instant}
      {σ : Type}
      [StartStore σ]
      {store : σ}
      {out : RefreshOutcome} :
      RefreshRun e calls e' →
      (s.refresh e' records windows maxOccurrences horizonEnd
        store).outcome = .ok out →
      RefreshRun e (calls ++ [⟨s.now, out⟩])
        (s.refresh e' records windows maxOccurrences horizonEnd
          store).event

namespace RefreshRun

variable {e e' : Event}
variable {calls : List RefreshCall}

/- One refresh is a run. -/
theorem of_refresh
    {s : Scheduler}
    {records : List ExceptionRecord}
    {windows : List HolidayWindow}
    {maxOccurrences : Nat}
    {horizonEnd : Option Instant}
    {σ : Type}
    [StartStore σ]
    {store : σ}
    {out : RefreshOutcome}
    (hDone :
      (s.refresh e records windows maxOccurrences horizonEnd
        store).outcome = .ok out) :
    RefreshRun e [⟨s.now, out⟩] (e.withCache out.nextStart) := by
  rcases Scheduler.refresh_of_ok hDone with ⟨_, _, _, _, hEvent⟩
  rw [← hEvent]
  exact .refresh .start hDone

/- It is a run to the start that it is seen to find. -/
theorem of_nextStart
    {s : Scheduler}
    {records : List ExceptionRecord}
    {windows : List HolidayWindow}
    {maxOccurrences : Nat}
    {horizonEnd next : Option Instant}
    {σ : Type}
    [StartStore σ]
    {store : σ}
    (hNext :
      (s.refresh e records windows maxOccurrences horizonEnd
        store).outcome.map (·.nextStart) = .ok next) :
    ∃ out,
      (s.refresh e records windows maxOccurrences horizonEnd
        store).outcome = .ok out ∧
      out.nextStart = next ∧
      RefreshRun e [⟨s.now, out⟩] (e.withCache next) := by
  rcases exists_ok_of_map hNext with ⟨out, hDone, rfl⟩
  exact ⟨out, hDone, rfl, of_refresh hDone⟩

/- A run changes the cached start and nothing else. -/
theorem eq_withCache
    (hRun : RefreshRun e calls e') :
    e' = e.withCache e'.nextStart := by
  induction hRun with
  | start => rfl
  | refresh hRun hDone hBefore =>
      rcases Scheduler.refresh_of_ok hDone with
        ⟨_, _, _, _, hEvent⟩
      rw [hEvent, hBefore]
      rfl

end RefreshRun

/-
  Jazz night with an end, and with a cached start in place of
  its own one, used in examples.
-/
def unstartedNight : Event :=
  { jazzNight with
    startsAt := none
    endsAt := some (nightTime 0 2)
    nextStart := some (nightTime 0 0) }

end EventSeries
