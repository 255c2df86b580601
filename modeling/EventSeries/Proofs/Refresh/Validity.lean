import EventSeries.Proofs.Event.ManualDates
import EventSeries.Proofs.Refresh.Runs
import EventSeries.Proofs.Series.Resumed

/-
  What refreshes do to the validity of an event.  A recurring
  event needs a start, be it its own or a cached one, and a
  refresh that finds nothing upcoming clears the cache.  An
  event that has only the cache then has no start any more,
  so that later refreshes find nothing either.  All other
  events stay valid through any run of refreshes.

  Main declarations:
    * `Event.validate_withCache`
    * `RefreshCall.FoundUpcoming`
    * `RefreshRun.isSome_nextStart_iff`
    * `Event.StaysAnchored`
    * `RefreshRun.validate_of_run`
-/

namespace EventSeries

------------------------------------------------------------
-- Valid Events With Another Cache
------------------------------------------------------------

namespace Event

variable {e : Event}
variable {z : Zone}

theorem conflict?_eq_none_iff :
    e.conflict? = none ↔
      (e.hasManualOccurrences && e.isRecurring) = false ∧
        (e.isRecurring && e.referenceStart?.isNone) = false ∧
        (e.isOverride && e.isRecurring) = false ∧
        e.recurrence.conflict? = none := by
  unfold conflict?
  generalize (e.hasManualOccurrences && e.isRecurring) = manual
  generalize
    (e.isRecurring && e.referenceStart?.isNone) = unstarted
  generalize (e.isOverride && e.isRecurring) = repeats
  cases manual <;> cases unstarted <;> cases repeats <;> simp

theorem conflict?_of_unstarted
    (hManual :
      (e.hasManualOccurrences && e.isRecurring) = false)
    (hUnstarted :
      (e.isRecurring && e.referenceStart?.isNone) = true) :
    e.conflict? = some .startMissing := by
  rw [conflict?, hManual, hUnstarted]
  rfl

/- A valid event that recurs has a start and no other dates. -/
theorem starts_of_validate
    (hValid : e.validate z = .ok ())
    (hRecurring : e.isRecurring = true) :
    e.manualOccurrences = [] ∧
      e.referenceStart?.isSome = true := by
  rcases conflict?_eq_none_iff.mp
      (validate_eq_ok_iff.mp hValid).1 with
    ⟨hManual, hStart, _, _⟩
  rw [hRecurring, Bool.and_true] at hManual
  rw [hRecurring, Bool.true_and] at hStart
  refine ⟨?_, ?_⟩
  · simpa [hasManualOccurrences] using hManual
  · simpa using hStart

/- A cache can only break the rule that a start is needed. -/
theorem validate_withCache
    (hValid : e.validate z = .ok ())
    (cached : Option Instant) :
    (e.withCache cached).validate z =
      if e.isRecurring &&
          (e.withCache cached).referenceStart?.isNone then
        .error (.invalidRecurrence .startMissing)
      else
        .ok () := by
  rcases validate_eq_ok_iff.mp hValid with ⟨hConflict, hDates⟩
  rcases conflict?_eq_none_iff.mp hConflict with
    ⟨hManual, _, hOverride, hRule⟩
  cases hLost :
      e.isRecurring &&
        (e.withCache cached).referenceStart?.isNone with
  | true =>
      have hMissing :
          (e.withCache cached).conflict? = some .startMissing :=
        conflict?_of_unstarted hManual hLost
      rw [validate, hMissing]
      rfl
  | false =>
      have hNone : (e.withCache cached).conflict? = none :=
        conflict?_eq_none_iff.mpr
          ⟨hManual, hLost, hOverride, hRule⟩
      exact validate_eq_ok_iff.mpr ⟨hNone, hDates⟩

end Event

------------------------------------------------------------
-- Calls That Find Something
------------------------------------------------------------

/- A call has found an occurrence that is not past. -/
def RefreshCall.FoundUpcoming
    (call : RefreshCall) : Prop :=
  ∃ o ∈ call.outcome.occurrences, call.now ≤ o.start

instance
    (call : RefreshCall) :
    Decidable call.FoundUpcoming := by
  unfold RefreshCall.FoundUpcoming
  infer_instance

theorem isSome_earliestUpcoming?_iff
    {now : Instant}
    {os : List Occurrence} :
    (earliestUpcoming? now os).isSome = true ↔
      ∃ o ∈ os, now ≤ o.start := by
  cases hEarliest : earliestUpcoming? now os with
  | none =>
      rw [earliestUpcoming?_eq_none_iff] at hEarliest
      refine ⟨nofun, ?_⟩
      rintro ⟨o, hMember, hNow⟩
      exact absurd (Std.lt_of_lt_of_le (hEarliest o hMember) hNow)
        Std.lt_irrefl
  | some t =>
      rw [earliestUpcoming?_eq_some_iff] at hEarliest
      rcases hEarliest with ⟨⟨o, hMember, rfl⟩, hNow, _⟩
      exact ⟨fun _ => ⟨o, hMember, hNow⟩, fun _ => rfl⟩

/- Without any start and any dates there is no series. -/
theorem Scheduler.series_of_unstarted
    {s : Scheduler}
    {e : Event}
    {records : List ExceptionRecord}
    {windows : List HolidayWindow}
    {o : SeriesOptions}
    (hManual : e.manualOccurrences = [])
    (hStart : e.startsAt = none)
    (hUncached : e.nextStart = none) :
    s.series e records windows o = .ok [] :=
  Generator.series_of_no_anchor (g := s.generator)
    (Event.manualDates_of_nil hManual s.zone)
    (Generator.anchor?_of_unstarted hStart hUncached _) windows

/-
  A recurring event that has only a cached start keeps one as
  long as every call finds something.  Once the cache is
  cleared no call finds anything.
-/
theorem RefreshRun.isSome_nextStart_iff
    {e e' : Event}
    {calls : List RefreshCall}
    (hRun : RefreshRun e calls e')
    (hRecurring : e.isRecurring = true)
    (hManual : e.manualOccurrences = [])
    (hStart : e.startsAt = none)
    (hCached : e.nextStart.isSome = true) :
    e'.nextStart.isSome = true ↔
      ∀ call ∈ calls, call.FoundUpcoming := by
  induction hRun with
  | start => simp [hCached]
  | @refresh calls before s _ _ _ _ _ _ _ out hRun hDone ih =>
      have hBefore := hRun.eq_withCache
      rcases Scheduler.refresh_of_ok hDone with
        ⟨horizon, _, hSeries, hNext, hEvent⟩
      have hRecurs : before.isRecurring = true := by
        rw [hBefore]
        exact hRecurring
      rw [hEvent, Event.withCache_nextStart, hNext,
        Event.upcomingStart?, if_pos hRecurs,
        isSome_earliestUpcoming?_iff]
      simp only [List.forall_mem_append, List.forall_mem_singleton]
      constructor
      · intro hFound
        refine ⟨ih.mp ?_, hFound⟩
        -- The call found something, so the event had a start.
        cases hUncached : before.nextStart with
        | some cached => rfl
        | none =>
            rw [hBefore, hUncached,
              Scheduler.series_of_unstarted
                (e := e.withCache none) hManual hStart rfl,
              Except.ok.injEq] at hSeries
            rcases hFound with ⟨o, hMember, _⟩
            rw [← hSeries] at hMember
            cases hMember
      · exact And.right

------------------------------------------------------------
-- Valid Events Through Runs
------------------------------------------------------------

/-
  An event has a start of its own, or does not recur, or the
  calls have left it a cached start by finding something.
-/
def Event.StaysAnchored
    (e : Event)
    (calls : List RefreshCall) : Prop :=
  e.isRecurring = true → e.startsAt = none →
    ∀ call ∈ calls, call.FoundUpcoming

instance
    (e : Event)
    (calls : List RefreshCall) :
    Decidable (e.StaysAnchored calls) := by
  unfold Event.StaysAnchored
  infer_instance

theorem Event.isSome_anchorStart?_iff
    {e : Event}
    (hRecurring : e.isRecurring = true) :
    e.anchorStart?.isSome = true ↔
      e.referenceStart?.isSome = true := by
  rw [anchorStart?, if_pos hRecurring, referenceStart?]
  cases e.nextStart <;> cases e.startsAt <;> simp

/- A run leaves a start exactly if it keeps the event anchored. -/
theorem RefreshRun.isSome_referenceStart?_iff
    {e e' : Event}
    {calls : List RefreshCall}
    {z : Zone}
    (hRun : RefreshRun e calls e')
    (hValid : e.validate z = .ok ())
    (hRecurring : e.isRecurring = true) :
    e'.referenceStart?.isSome = true ↔
      e.StaysAnchored calls := by
  rcases Event.starts_of_validate hValid hRecurring with
    ⟨hManual, hReference⟩
  rw [hRun.eq_withCache]
  simp only [Event.referenceStart?, Event.withCache_startsAt,
    Event.withCache_nextStart] at hReference ⊢
  cases hStart : e.startsAt with
  | some start =>
      simp [Event.StaysAnchored, hStart]
  | none =>
      rw [hStart, Option.none_or] at hReference
      rw [Option.none_or,
        hRun.isSome_nextStart_iff hRecurring hManual hStart
          hReference]
      exact ⟨fun hFound _ _ => hFound,
        fun hStays => hStays hRecurring hStart⟩

/-
  Any run of refreshes leaves a valid event valid if it keeps
  the event anchored.  If not, the event is refused for want
  of a start, and a series of it has nothing to begin at.
-/
theorem RefreshRun.validate_of_run
    {e e' : Event}
    {calls : List RefreshCall}
    {z : Zone}
    (hRun : RefreshRun e calls e')
    (hValid : e.validate z = .ok ()) :
    (e.StaysAnchored calls → e'.validate z = .ok ()) ∧
    (¬ e.StaysAnchored calls →
      e'.validate z =
        .error (.invalidRecurrence .startMissing)) ∧
    (e.isRecurring = true →
      (e'.anchorStart?.isSome = true ↔
        e.StaysAnchored calls)) := by
  have hCached := hRun.eq_withCache
  have hRecurs : e'.isRecurring = e.isRecurring := by
    rw [hCached]
    rfl
  have hAnchored (hRecurring : e.isRecurring = true) :=
    hRun.isSome_referenceStart?_iff hValid hRecurring
  have hValidate :=
    Event.validate_withCache hValid e'.nextStart
  rw [← hCached] at hValidate
  refine ⟨?_, ?_, ?_⟩
  · intro hStays
    rw [hValidate, if_neg]
    rw [Bool.and_eq_true, Option.isNone_iff_eq_none]
    rintro ⟨hRecurring, hNone⟩
    have hSome := (hAnchored hRecurring).mpr hStays
    rw [hNone] at hSome
    cases hSome
  · intro hLost
    have hRecurring : e.isRecurring = true := by
      by_contra hSingle
      exact hLost fun hRecurring => absurd hRecurring hSingle
    rw [hValidate, if_pos]
    rw [Bool.and_eq_true, Option.isNone_iff_eq_none]
    refine ⟨hRecurring, ?_⟩
    by_contra hSome
    exact hLost ((hAnchored hRecurring).mp
      (Option.isSome_iff_ne_none.mpr hSome))
  · intro hRecurring
    rw [Event.isSome_anchorStart?_iff (hRecurs ▸ hRecurring)]
    exact hAnchored hRecurring

/-
  Jazz night without a start of its own is valid.  It stays so
  after a refresh that reaches the second night, and does not
  after one with a horizon before it.
-/
theorem RefreshRun.validate_of_jazzNight :
    let done (horizon : Instant) :=
      (Scheduler.inZone .utc (nightTime 0 52)).refresh
        unstartedNight [] [] 3 (some horizon)
        ({} : MemoryStore)
    unstartedNight.validate .utc = .ok () ∧
      (done (nightTime 2 0)).event.validate .utc = .ok () ∧
      (done (nightTime 1 (-4))).event.validate .utc =
        .error (.invalidRecurrence .startMissing) := by
  have hValid : unstartedNight.validate .utc = .ok () := by
    cbv
  have hRun
      (horizon : Instant)
      (found : Bool)
      (hFound :
        ((Scheduler.inZone .utc (nightTime 0 52)).refresh
          unstartedNight [] [] 3 (some horizon)
          ({} : MemoryStore)).outcome.map (fun out =>
            decide (RefreshCall.FoundUpcoming
              ⟨nightTime 0 52, out⟩)) = .ok found) :
      ∃ call : RefreshCall,
        (call.FoundUpcoming ↔ found = true) ∧
        RefreshRun unstartedNight [call]
          ((Scheduler.inZone .utc (nightTime 0 52)).refresh
            unstartedNight [] [] 3 (some horizon)
            ({} : MemoryStore)).event := by
    rcases exists_ok_of_map hFound with ⟨out, hDone, hOut⟩
    refine ⟨⟨nightTime 0 52, out⟩, ?_, .refresh .start hDone⟩
    rw [← hOut, decide_eq_true_eq]
  refine ⟨hValid, ?_, ?_⟩
  · rcases hRun (nightTime 2 0) true (by cbv) with
      ⟨call, hFound, hFinds⟩
    apply (hFinds.validate_of_run hValid).1
    intro _ _
    simpa using hFound
  · rcases hRun (nightTime 1 (-4)) false (by cbv) with
      ⟨call, hFound, hClears⟩
    apply (hClears.validate_of_run hValid).2.1
    intro hStays
    have hNone := hStays rfl rfl
    simp [hFound] at hNone

/-
  The refresh that finds nothing succeeds, and jazz night has
  no series any more, however far one looks.
-/
theorem unstartedNight_loses_start :
    let s := Scheduler.inZone .utc (nightTime 0 52)
    let done := s.refresh unstartedNight [] [] 3
      (some (nightTime 1 (-4))) ({} : MemoryStore)
    let o : SeriesOptions := ⟨3, true, some (nightTime 9 0)⟩
    unstartedNight.validate .utc = .ok () ∧
      done.outcome.map (·.nextStart) = .ok none ∧
      done.event.validate .utc =
        .error (.invalidRecurrence .startMissing) ∧
      done.event.anchorStart? = none ∧
      s.series done.event [] [] o = .ok [] := by
  refine ⟨?_, ?_, ?_, ?_, ?_⟩
  · cbv
  · cbv
  · cbv
  · cbv
  · cbv

end EventSeries
