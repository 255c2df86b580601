import EventSeries.Proofs.Event.ManualDates
import EventSeries.Proofs.Override.Detached
import EventSeries.Scheduler

/-
  The series of an event whose dates are listed by hand.  Of a
  valid event every listed date counts: the series shows the
  first of them, in order of time, that pass its horizon and
  its present, whatever records and windows there are.

  Main declarations:
    * `Event.CarriesTimesTo`
    * `Event.exists_occurrenceAt_iff`
    * `Generator.series_of_dates`
    * `Scheduler.series_of_validate`
-/

namespace EventSeries

------------------------------------------------------------
-- Occurrences That The Calendar Holds
------------------------------------------------------------

namespace Event

/-
  The calendar holds doors, end and curfew when they are moved
  from the reference start of the event to another one.
-/
def CarriesTimesTo
    (e : Event)
    (start : Instant) : Prop :=
  ∀ reference, e.referenceStart? = some reference →
    ∀ t, some t ∈ [e.doorsAt, e.endsAt, e.curfewAt] →
      (start.plusUnchecked (t.since reference)).InCalendar

variable {e : Event}
variable {start : Instant}

/- An event has an occurrence wherever its times can be. -/
theorem exists_occurrenceAt_iff :
    (∃ x, e.occurrenceAt start = .ok x) ↔
      e.CarriesTimesTo start := by
  have hTimes :
      (∃ x, e.occurrenceAt start = .ok x) ↔
        ∃ doors finish curfew,
          e.offsets.doorsAt start = .ok doors ∧
            e.offsets.endAt start = .ok finish ∧
            e.offsets.curfewAt start = .ok curfew := by
    constructor
    · rintro ⟨x, hAt⟩
      rcases times_of_occurrenceAt hAt with
        ⟨hDoors, hEnd, hCurfew, _⟩
      exact ⟨_, _, _, hDoors, hEnd, hCurfew⟩
    · rintro ⟨doors, finish, curfew, hDoors, hEnd, hCurfew⟩
      rw [occurrenceAt, hDoors, hEnd, hCurfew]
      exact ⟨_, rfl⟩
  rw [hTimes, CarriesTimesTo, offsets]
  cases e.referenceStart? with
  | none =>
      -- Without a reference no time is carried over at all.
      refine iff_of_true ⟨none, none, none, rfl, rfl, rfl⟩ ?_
      intro reference hNone
      cases hNone
  | some reference =>
      simp only [Option.some.injEq, forall_eq']
      exact Offsets.exists_times_iff

/- Some dates have occurrences wherever the times can be. -/
theorem exists_occurrences_iff
    {dates : List Instant} :
    (∃ os, dates.mapM e.occurrenceAt = .ok os ∧
        os.map (·.start) = dates) ↔
      ∀ date ∈ dates, e.CarriesTimesTo date := by
  constructor
  · rintro ⟨os, hOs, _⟩ date hMember
    have hListed :
        e.occurrenceAt date ∈ os.map Except.ok := by
      rw [← mapM_eq_ok_iff.mp hOs]
      exact List.mem_map_of_mem hMember
    rcases List.mem_map.mp hListed with ⟨x, _, hAt⟩
    exact exists_occurrenceAt_iff.mp ⟨x, hAt.symm⟩
  · intro hTimes
    rcases exists_mapM_eq_ok fun date hMember =>
        exists_occurrenceAt_iff.mpr (hTimes date hMember) with
      ⟨os, hOs⟩
    exact ⟨os, hOs,
      starts_of_occurrences (mapM_eq_ok_iff.mp hOs)⟩

end Event

------------------------------------------------------------
-- Series Of Listed Dates
------------------------------------------------------------

/- Listed dates come before records, windows and the rule. -/
theorem Generator.series_of_dates
    {g : Generator}
    {e : Event}
    {dates : List Instant}
    (hManual : (e.manualDates g.zone).value = .ok dates)
    (hSome : dates ≠ [])
    (records : List ExceptionRecord)
    (windows : List HolidayWindow)
    (o : SeriesOptions) :
    g.series e records windows o =
      (g.keptDates o dates).mapM e.occurrenceAt := by
  cases dates with
  | nil => exact absurd rfl hSome
  | cons first rest =>
      by_cases hNone : o.maxOccurrences = 0
      · rw [series_of_none_wanted hNone, keptDates, hNone,
          List.take_zero]
        rfl
      · exact series_of_manual hManual (by omega)

/-
  A valid event shows the dates that it lists.  None of its
  entries is dropped, and its series is that of the first
  dates wanted that lie inside the horizon and are not past;
  it is there exactly if the calendar holds their times.
-/
theorem Scheduler.series_of_validate
    {e : Event}
    {z : Zone}
    (hListed : e.manualOccurrences ≠ [])
    (hValid : e.validate z = .ok ()) :
    ∃ dates : List Instant,
      e.manualDates z = ⟨.ok dates, []⟩ ∧
      dates.Pairwise (· ≤ ·) ∧
      (dates.map .ok).Perm
        (e.manualOccurrences.map (ManualDate.parse z)) ∧
      ∀ (s : Scheduler) (records : List ExceptionRecord)
        (windows : List HolidayWindow) (o : SeriesOptions),
        s.zone = z →
          let kept :=
            (dates.filter (o.keeps s.now)).take o.maxOccurrences
          s.series e records windows o =
              kept.mapM e.occurrenceAt ∧
            ((∃ os, s.series e records windows o = .ok os ∧
                os.map (·.start) = kept) ↔
              ∀ date ∈ kept, e.CarriesTimesTo date) := by
  rcases Event.manualDates_of_validate hValid with
    ⟨dates, hManual, hSorted, hPerm⟩
  have hSome : dates ≠ [] := by
    rintro rfl
    have hNone : e.manualOccurrences.map _ = [] :=
      hPerm.symm.eq_nil
    exact hListed (List.map_eq_nil_iff.mp hNone)
  refine ⟨dates, hManual, hSorted, hPerm, ?_⟩
  rintro s records windows o rfl kept
  have hSeries :
      s.series e records windows o =
        kept.mapM e.occurrenceAt :=
    Generator.series_of_dates (g := s.generator)
      (congrArg Traced.value hManual) hSome records windows o
  refine ⟨hSeries, ?_⟩
  rw [hSeries]
  exact Event.exists_occurrences_iff

/-
  Four dates of a jazz night in Berlin: one that clocks show
  twice, one that they skip, the first again with an offset,
  and one without anything between its date and its time.
-/
theorem Scheduler.series_of_validate_jazzNight :
    let z : Zone :=
      ⟨"Europe/Berlin", 3600,
        [⟨1774746000, 7200⟩, ⟨1792890000, 3600⟩]⟩
    let e :=
      { jazzNight with
        doorsAt := some (nightTime 0 (-1))
        recurrence := .none
        manualOccurrences :=
          [" 2026-10-25 02:30", "2026-03-29T02:30:00",
            "2026-10-25T00:30:00Z\u3000", "2026-07-0421:00"] }
    let dates : List Instant :=
      [⟨1774747800, 0⟩, ⟨1783191600, 0⟩, ⟨1792888200, 0⟩,
        ⟨1792888200, 0⟩]
    (e.manualOccurrences ≠ [] ∧ e.validate z = .ok ()) ∧
      ∀ (s : Scheduler) (records : List ExceptionRecord)
        (windows : List HolidayWindow) (o : SeriesOptions),
        s.zone = z →
          s.series e records windows o =
            ((dates.filter (o.keeps s.now)).take
              o.maxOccurrences).mapM e.occurrenceAt := by
  intro z e dates
  have hListed : e.manualOccurrences ≠ [] := nofun
  have hValid : e.validate z = .ok () := by decide
  have hDates : (e.manualDates z).value = .ok dates := by
    cbv
  rcases series_of_validate hListed hValid with
    ⟨read, hManual, _, _, hSeries⟩
  have hRead : read = dates := by
    rw [hManual] at hDates
    exact Except.ok.inj hDates
  subst hRead
  refine ⟨⟨hListed, hValid⟩, ?_⟩
  intro s records windows o hZone
  exact (hSeries s records windows o hZone).1

end EventSeries
