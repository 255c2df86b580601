import EventSeries.Proofs.Refresh.Runs
import EventSeries.Proofs.Series.Resumed
import EventSeries.Proofs.Series.Sources
import EventSeries.Proofs.Time.Spans

/-
  What refreshes do to doors, end and curfew.  These times are
  relative to the start of the event.  An event that has only
  a cached start reads them off the cache, and a refresh that
  moves the cache moves them on every occurrence.  All other
  events keep them through any run of refreshes.

  Main declarations:
    * `Event.ShowsAlike`
    * `Event.ShowsApart`
    * `Event.KeepsTimes`
    * `RefreshRun.times_kept`
    * `Event.not_keepsTimes_of_past`
-/

namespace EventSeries

------------------------------------------------------------
-- Offsets
------------------------------------------------------------

/- A time seen at a start has one offset, out of leap seconds. -/
theorem Offsets.eq_of_timeAt
    {start : Instant}
    {s other : Option Span}
    {time : Option Instant}
    (hLeap : start.isLeap = false)
    (hTime : timeAt start s = .ok time)
    (hOther : timeAt start other = .ok time) :
    s = other := by
  cases s with
  | none =>
      cases hTime
      cases other with
      | none => rfl
      | some other =>
          rcases exists_ok_of_map hOther with ⟨_, _, hNone⟩
          cases hNone
  | some s =>
      rcases exists_ok_of_map hTime with ⟨sum, hSum, rfl⟩
      cases other with
      | none => cases hOther
      | some other =>
          rcases exists_ok_of_map hOther with
            ⟨sum', hSum', hSame⟩
          cases hSame
          rw [Instant.eq_of_plus hLeap hSum hSum']

/- A time that is set is as far from one reference only. -/
theorem Offsets.eq_of_spanFrom?
    {reference other : Option Instant}
    {time : Instant}
    (hTime : time.isLeap = false)
    (hReference : ∀ r ∈ reference, r.isLeap = false)
    (hOther : ∀ r ∈ other, r.isLeap = false)
    (hSame :
      spanFrom? reference (some time) =
        spanFrom? other (some time)) :
    reference = other := by
  cases reference with
  | none =>
      cases other with
      | none => rfl
      | some o => cases hSame
  | some r =>
      cases other with
      | none => cases hSame
      | some o =>
          rw [Instant.eq_of_since hTime (hReference r rfl)
            (hOther o rfl) (Option.some.inj hSame)]

------------------------------------------------------------
-- Events That Show The Same
------------------------------------------------------------

namespace Event

/-
  Whatever the scheduler, windows and options: of two series
  of the events with the same records, occurrences of one
  source that start together are the same.
-/
def ShowsAlike
    (e e' : Event) : Prop :=
  ∀ (s s' : Scheduler) records windows windows' o o' os os',
    s.series e records windows o = .ok os →
      s'.series e' records windows' o' = .ok os' →
        ∀ x ∈ os, ∀ y ∈ os',
          x.sourceException = y.sourceException →
            x.start = y.start → x = y

/-
  Plain occurrences that start together, in a series of one
  event and in a series of the other, never have the same
  times, unless they start in a leap second.
-/
def ShowsApart
    (e e' : Event) : Prop :=
  ∀ (s s' : Scheduler) records records' windows windows' o o'
      os os',
    s.series e records windows o = .ok os →
      s'.series e' records' windows' o' = .ok os' →
        ∀ x ∈ os, ∀ y ∈ os',
          x.isOverride = false → y.isOverride = false →
            x.start = y.start → x.start.isLeap = false →
              x.segment ≠ y.segment

variable {e e' : Event}

theorem showsAlike_of_offsets
    (hId : e'.id = e.id)
    (hOffsets : e'.offsets = e.offsets) :
    e.ShowsAlike e' := by
  intro s s' records windows windows' o o' os os' hOs hOs' x hX
    y hY hSource hStart
  have hAlike : e'.occurrenceAt = e.occurrenceAt := by
    funext date
    simp only [occurrenceAt, hId, hOffsets]
  have hYields' := Generator.yields_of_mem hOs' hY
  rw [hId] at hYields'
  exact (Generator.yields_of_mem hOs hX).eq_of_source hYields'
    hAlike hSource hStart

theorem showsApart_of_offsets
    (hOffsets : e'.offsets ≠ e.offsets) :
    e.ShowsApart e' := by
  intro s s' records records' windows windows' o o' os os' hOs
    hOs' x hX y hY hPlain hPlain' hStart hLeap hSegment
  rw [Occurrence.segment, Occurrence.segment, Segment.mk.injEq]
    at hSegment
  rcases hSegment with ⟨_, hDoors, hFinish, hCurfew⟩
  have hAt := (Generator.yields_of_mem hOs hX).occurrenceAt hPlain
  have hAt' :=
    (Generator.yields_of_mem hOs' hY).occurrenceAt hPlain'
  rcases times_of_occurrenceAt hAt with
    ⟨hDoorsAt, hEndAt, hCurfewAt, _⟩
  rcases times_of_occurrenceAt hAt' with
    ⟨hDoorsAt', hEndAt', hCurfewAt', _⟩
  rw [← hStart, ← hDoors] at hDoorsAt'
  rw [← hStart, ← hFinish] at hEndAt'
  rw [← hStart, ← hCurfew] at hCurfewAt'
  apply hOffsets
  rw [Event.offsets, Event.offsets, Offsets.between,
    Offsets.between, Offsets.mk.injEq]
  exact ⟨Offsets.eq_of_timeAt hLeap hDoorsAt' hDoorsAt,
    Offsets.eq_of_timeAt hLeap hEndAt' hEndAt,
    Offsets.eq_of_timeAt hLeap hCurfewAt' hCurfewAt⟩

------------------------------------------------------------
-- Events That Keep Their Times
------------------------------------------------------------

/- The times that are relative to the start. -/
def times
    (e : Event) : List (Option Instant) :=
  [e.doorsAt, e.endsAt, e.curfewAt]

/-
  Another cache leaves the meaning of the times alone: the
  event has a start of its own, or no time is set, or the
  cache is the same.
-/
def KeepsTimes
    (e : Event)
    (cached : Option Instant) : Prop :=
  e.startsAt.isSome = true ∨
    (∀ time ∈ e.times, time = none) ∨
    cached = e.nextStart

instance
    (e : Event)
    (cached : Option Instant) :
    Decidable (e.KeepsTimes cached) := by
  unfold KeepsTimes
  infer_instance

/- Neither the cache nor a time lies in a leap second. -/
def LeapFree
    (e : Event) : Prop :=
  ∀ time ∈ e.nextStart :: e.times,
    ∀ t ∈ time, t.isLeap = false

instance
    (e : Event) :
    Decidable e.LeapFree := by
  unfold LeapFree
  infer_instance

variable {cached : Option Instant}

theorem offsets_withCache_iff
    (hStart : e.startsAt = none) :
    (e.withCache cached).offsets = e.offsets ↔
      ∀ time ∈ e.times,
        Offsets.spanFrom? cached time =
          Offsets.spanFrom? e.nextStart time := by
  simp [offsets, Offsets.between, referenceStart?, withCache,
    hStart, times]

theorem offsets_of_keepsTimes
    (hKeeps : e.KeepsTimes cached) :
    (e.withCache cached).offsets = e.offsets := by
  cases hStart : e.startsAt with
  | some start =>
      simp [offsets, referenceStart?, withCache, hStart]
  | none =>
      rw [offsets_withCache_iff hStart]
      intro time hTime
      rcases hKeeps with hStarts | hUntimed | hSame
      · rw [hStart] at hStarts
        cases hStarts
      · rw [hUntimed time hTime]
        cases cached <;> cases e.nextStart <;> rfl
      · rw [hSame]

/- A cache that moves takes any time that is set with it. -/
theorem keepsTimes_of_offsets
    (hLeapFree : e.LeapFree)
    (hCached : ∀ t ∈ cached, t.isLeap = false)
    (hOffsets : (e.withCache cached).offsets = e.offsets) :
    e.KeepsTimes cached := by
  cases hStart : e.startsAt with
  | some start =>
      left
      rw [hStart]
      rfl
  | none =>
      right
      rw [offsets_withCache_iff hStart] at hOffsets
      by_cases hSame : cached = e.nextStart
      · exact Or.inr hSame
      · left
        intro time hTime
        cases time with
        | none => rfl
        | some t =>
            have hLeap : t.isLeap = false :=
              hLeapFree _ (List.mem_cons_of_mem _ hTime) t rfl
            have hFree : ∀ r ∈ e.nextStart, r.isLeap = false :=
              hLeapFree _ List.mem_cons_self
            exact absurd
              (Offsets.eq_of_spanFrom? hLeap hCached hFree
                (hOffsets _ hTime))
              hSame

end Event

------------------------------------------------------------
-- Runs
------------------------------------------------------------

/-
  A refresh after its cached start moves the times of an event
  that has some, and no start of its own.
-/
theorem Event.not_keepsTimes_of_past
    {σ : Type}
    [StartStore σ]
    {s : Scheduler}
    {e : Event}
    {records : List ExceptionRecord}
    {windows : List HolidayWindow}
    {maxOccurrences : Nat}
    {horizonEnd : Option Instant}
    {store : σ}
    {out : RefreshOutcome}
    {cached : Instant}
    (hStart : e.startsAt = none)
    (hTimed : ∃ time ∈ e.times, time ≠ none)
    (hCached : e.nextStart = some cached)
    (hPast : cached < s.now)
    (hDone :
      (s.refresh e records windows maxOccurrences horizonEnd
        store).outcome = .ok out) :
    ¬ e.KeepsTimes out.nextStart := by
  rcases Scheduler.refresh_of_ok hDone with
    ⟨_, _, _, hNext, _⟩
  rintro (hStarts | hUntimed | hSame)
  · rw [hStart] at hStarts
    cases hStarts
  · rcases hTimed with ⟨time, hTime, hSet⟩
    exact hSet (hUntimed time hTime)
  · rw [hNext, upcomingStart?, hCached] at hSame
    split at hSame
    · have hNow := (earliestUpcoming?_eq_some_iff.mp hSame).2.1
      exact Std.lt_irrefl (Std.lt_of_lt_of_le hPast hNow)
    · cases hSame

/-
  Through a run of refreshes an event whose times stay where
  they are keeps its offsets, and shows the same occurrences
  with the same times.  Any other event shows all of its own
  occurrences with other times than before.
-/
theorem RefreshRun.times_kept
    {e e' : Event}
    {calls : List RefreshCall}
    (hRun : RefreshRun e calls e') :
    (e.KeepsTimes e'.nextStart →
      e'.offsets = e.offsets ∧ e.ShowsAlike e') ∧
    (e.LeapFree → e'.LeapFree → ¬ e.KeepsTimes e'.nextStart →
      e'.offsets ≠ e.offsets ∧ e.ShowsApart e') := by
  have hCached := hRun.eq_withCache
  have hId : e'.id = e.id := by
    rw [hCached]
    rfl
  constructor
  · intro hKeeps
    have hOffsets := Event.offsets_of_keepsTimes hKeeps
    rw [← hCached] at hOffsets
    exact ⟨hOffsets, Event.showsAlike_of_offsets hId hOffsets⟩
  · intro hLeapFree hLeapFree' hMoved
    have hOffsets : e'.offsets ≠ e.offsets := by
      intro hSame
      rw [hCached] at hSame
      exact hMoved (Event.keepsTimes_of_offsets hLeapFree
        (hLeapFree' _ List.mem_cons_self) hSame)
    exact ⟨hOffsets, Event.showsApart_of_offsets hOffsets⟩

/-
  Refreshed in the week after the first night, jazz night
  keeps its end if it has a start, and moves it if not.
-/
theorem RefreshRun.times_kept_jazzNight :
    let e := { jazzNight with endsAt := some (nightTime 0 2) }
    let next := some (nightTime 1 0)
    (∃ calls, RefreshRun e calls (e.withCache next) ∧
      e.ShowsAlike (e.withCache next)) ∧
    (∃ calls, RefreshRun unstartedNight calls
        (unstartedNight.withCache next) ∧
      unstartedNight.ShowsApart
        (unstartedNight.withCache next)) := by
  intro e next
  let s := Scheduler.inZone .utc (nightTime 0 52)
  let horizon := some (nightTime 2 0)
  constructor
  · have hNext :
        (s.refresh e [] [] 3 horizon
          ({} : MemoryStore)).outcome.map (·.nextStart) =
            .ok next := by
      cbv
    rcases RefreshRun.of_nextStart hNext with ⟨_, _, _, hRun⟩
    exact ⟨_, hRun, (hRun.times_kept.1 (by decide)).2⟩
  · have hNext :
        (s.refresh unstartedNight [] [] 3 horizon
          ({} : MemoryStore)).outcome.map (·.nextStart) =
            .ok next := by
      cbv
    rcases RefreshRun.of_nextStart hNext with
      ⟨_, hDone, hOut, hRun⟩
    have hMoved :=
      Event.not_keepsTimes_of_past rfl (by decide) rfl
        (by decide) hDone
    rw [hOut] at hMoved
    exact ⟨_, hRun,
      (hRun.times_kept.2 (by decide) (by decide) hMoved).2⟩

/-
  Refreshed without a start of its own, the second jazz night
  ends before it starts.
-/
theorem unstartedNight_moves_end :
    let s := Scheduler.inZone .utc (nightTime 0 52)
    let o : SeriesOptions := ⟨3, true, some (nightTime 2 0)⟩
    let done := s.refresh unstartedNight [] [] 3
      (some (nightTime 2 0)) ({} : MemoryStore)
    let shown (e : Event) := (s.series e [] [] o).map
      (·.map fun x => (x.start, x.finish))
    done.outcome.map (·.nextStart) =
        .ok (some (nightTime 1 0)) ∧
      done.event.offsets ≠ unstartedNight.offsets ∧
      shown unstartedNight =
        .ok [(nightTime 0 0, some (nightTime 0 2)),
          (nightTime 1 0, some (nightTime 1 2)),
          (nightTime 2 0, some (nightTime 2 2))] ∧
      shown done.event =
        .ok [(nightTime 1 0, some (nightTime 0 2)),
          (nightTime 2 0, some (nightTime 1 2))] := by
  refine ⟨?_, ?_, ?_, ?_⟩
  · cbv
  · cbv
    intro hSame
    cases hSame
  · cbv
  · cbv

end EventSeries
