import EventSeries.Proofs.Series.Contract

/-
  Where the occurrences of a series come from, whichever way
  it came about: from the event itself, at its offsets, or
  from the override of a record.  The source and the start of
  an occurrence determine the rest.

  Main declarations:
    * `Event.Yields`
    * `Event.Yields.eq_of_source`
    * `Generator.yields_of_mem`
-/

namespace EventSeries

------------------------------------------------------------
-- Sources
------------------------------------------------------------

namespace Event

/-
  An occurrence comes from an event and the records of an
  index: it is the plain one at its start, or the override
  that the record of its key puts there.
-/
def Yields
    (e : Event)
    (index : ExceptionIndex)
    (x : Occurrence) : Prop :=
  e.occurrenceAt x.start = .ok x ∨
    ∃ r replacement,
      index.record? r.occurrenceStart = some r ∧
        r.activeOverride? = some replacement ∧
        x = replacement.overrideOccurrence r.key
          (replacement.startsAt.getD r.occurrenceStart)

variable {e e' : Event}

theorem yields_of_occurrenceAt
    {index : ExceptionIndex}
    {date : Instant}
    {x : Occurrence}
    (hAt : e.occurrenceAt date = .ok x) :
    e.Yields index x := by
  left
  rw [(occurrenceAt_start hAt).1]
  exact hAt

/- A plain occurrence is at the offsets of its event. -/
theorem Yields.occurrenceAt
    {index : ExceptionIndex}
    {x : Occurrence}
    (hYields : e.Yields index x)
    (hPlain : x.isOverride = false) :
    e.occurrenceAt x.start = .ok x := by
  rcases hYields with hAt | ⟨_, _, _, _, hOverride⟩
  · exact hAt
  · rw [hOverride] at hPlain
    cases hPlain

/- The override with a key is that of one record. -/
theorem Yields.eq_of_source
    {index : ExceptionIndex}
    {x y : Occurrence}
    (hX : e.Yields index x)
    (hY : e'.Yields index y)
    (hAlike : e'.occurrenceAt = e.occurrenceAt)
    (hSource : x.sourceException = y.sourceException)
    (hStart : x.start = y.start) :
    x = y := by
  rcases hX with hAt | ⟨r, replacement, hRecord, hActive, hX⟩
  · rcases hY with hAt' | ⟨r', replacement', _, _, hY⟩
    · rw [hAlike, ← hStart, hAt, Except.ok.injEq] at hAt'
      exact hAt'
    · have hNone := (shows_of_occurrenceAt hAt).1.source
      rw [hSource, hY] at hNone
      cases hNone
  · rcases hY with
      hAt' | ⟨r', replacement', hRecord', hActive', hY⟩
    · have hNone := (shows_of_occurrenceAt hAt').1.source
      rw [← hSource, hX] at hNone
      cases hNone
    · have hKey : r.key = r'.key := by
        rw [hX, hY] at hSource
        exact Option.some.inj hSource
      have hDate : r.occurrenceStart = r'.occurrenceStart :=
        congrArg OccurrenceKey.occurrenceStart hKey
      rw [← hDate, hRecord, Option.some.injEq] at hRecord'
      subst hRecord'
      rw [hActive, Option.some.injEq] at hActive'
      subst hActive'
      rw [hX, hY]

end Event

------------------------------------------------------------
-- Series
------------------------------------------------------------

/- What a walk keeps comes from its event and its index. -/
theorem WalkPlan.yields_of_occurrence?
    {p : WalkPlan}
    {date : Instant}
    {x : Occurrence}
    (hOn : p.occurrence? date = some x) :
    p.event.Yields p.index x := by
  rcases eq_of_occurrence? hOn with
    ⟨_, hAt⟩ | ⟨r, replacement, hRecord, hActive, hEq⟩
  · exact Event.yields_of_occurrenceAt hAt
  · have hDate : r.occurrenceStart = date := by
      simpa using List.find?_some hRecord
    subst hDate
    exact Or.inr ⟨r, replacement, hRecord, hActive, hEq⟩

theorem Generator.occurrenceAt_of_mem_single
    {g : Generator}
    {e : Event}
    {o : SeriesOptions}
    {start : Instant}
    {os : List Occurrence}
    {x : Occurrence}
    (hOs : g.singleSeries e o start = .ok os)
    (hMember : x ∈ os) :
    e.occurrenceAt start = .ok x := by
  unfold singleSeries at hOs
  cases hAt : e.occurrenceAt start with
  | error range =>
      rw [hAt] at hOs
      cases hOs
  | ok only =>
      rw [hAt] at hOs
      cases hOs
      split at hMember
      · rw [List.mem_singleton.mp hMember]
      · cases hMember

/- Every occurrence of a series has such a source. -/
theorem Generator.yields_of_mem
    {g : Generator}
    {e : Event}
    {records : List ExceptionRecord}
    {windows : List HolidayWindow}
    {o : SeriesOptions}
    {os : List Occurrence}
    {x : Occurrence}
    (hOs : g.series e records windows o = .ok os)
    (hMember : x ∈ os) :
    e.Yields (.ofList e.id records) x := by
  by_cases hNone : o.maxOccurrences = 0
  · rw [series_of_none_wanted hNone, Except.ok.injEq] at hOs
    subst hOs
    cases hMember
  · have hWanted : 0 < o.maxOccurrences := by omega
    rcases mode_cases hWanted hOs with
      ⟨first, rest, hManual⟩ | ⟨hManual, hRest⟩
    · rcases exists_keptDate_of_manual hManual hWanted hOs
          hMember with
        ⟨date, _, hAt⟩
      exact Event.yields_of_occurrenceAt hAt
    · rcases hRest with
        hAnchor | ⟨start, hSingle, hStart⟩ |
        ⟨anchor, hRecurring, hAnchor⟩
      · rw [series_of_no_anchor hManual hAnchor,
          Except.ok.injEq] at hOs
        subst hOs
        cases hMember
      · rw [series_of_single hSingle hManual hStart
          hWanted] at hOs
        exact Event.yields_of_occurrenceAt
          (occurrenceAt_of_mem_single hOs hMember)
      · rcases exists_walk_of_series hRecurring hManual hAnchor
            hWanted hOs with
          ⟨time, _, hWalk⟩
        rcases WalkPlan.exists_date_of_mem_walk hWalk hWanted
            hMember with
          ⟨date, _, hKept⟩
        exact WalkPlan.yields_of_occurrence?
          (WalkPlan.kept?_eq_some_iff.mp hKept).1

end EventSeries
