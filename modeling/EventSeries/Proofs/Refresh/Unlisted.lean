import EventSeries.Proofs.Exception.Append
import EventSeries.Proofs.Refresh.Basic
import EventSeries.Proofs.Series.Membership
import EventSeries.Proofs.Series.Reindexed

/-
  A record for a date that is not in the series.  A walk looks
  up the records of the dates that it visits, but where it
  begins depends on the overrides of all dates, and so such a
  record changes nothing exactly if the walk begins where it
  did before and does not come to the date of the record.

  Main declarations:
    * `Event.SameResults`
    * `Event.PassesBy`
    * `Event.sameResults_of_passesBy`
    * `Event.passesBy_of_inert`
    * `Event.sameResults_append_iff`
-/

namespace EventSeries

------------------------------------------------------------
-- Walks That Pass By A Record
------------------------------------------------------------

/-
  With either list of records, listings and refreshes of the
  event have the same results in a zone, whatever the present,
  the settings, the windows, the options and the store.
-/
structure Event.SameResults
    (e : Event)
    (z : Zone)
    (records others : List ExceptionRecord) : Prop where
  series :
    ∀ (s : Scheduler) (windows : List HolidayWindow)
      (o : SeriesOptions),
      s.zone = z →
        s.series e records windows o =
          s.series e others windows o
  refresh :
    ∀ (s : Scheduler) (windows : List HolidayWindow)
      (maxOccurrences : Nat) (horizonEnd : Option Instant)
      (σ : Type) [StartStore σ] (store : σ),
      s.zone = z →
        let done := s.refresh e records windows maxOccurrences
          horizonEnd store
        let other := s.refresh e others windows maxOccurrences
          horizonEnd store
        done.outcome = other.outcome ∧
          done.event = other.event ∧
          done.store = other.store

/-
  With one record more the walk of the event begins where it
  did, and it does not come to the date of the record, unless
  that date had a record before.
-/
def Event.PassesBy
    (e : Event)
    (z : Zone)
    (records : List ExceptionRecord)
    (r : ExceptionRecord) : Prop :=
  ∀ start here, e.startsAt = some start →
    z.toLocal start = .ok here →
      let index := ExceptionIndex.ofList e.id records
      let anchor := index.walkStart start e.nextStart
      (ExceptionIndex.ofList e.id (records ++ [r])).walkStart
          start e.nextStart = anchor ∧
        (index.record? r.occurrenceStart = none →
          r.occurrenceStart ∉
            datesFrom (e.dateAfter? z here.time) largestWord
              anchor)

namespace Event

variable {e : Event}
variable {z : Zone}
variable {records : List ExceptionRecord}
variable {r : ExceptionRecord}

------------------------------------------------------------
-- Nothing Changes
------------------------------------------------------------

/- On all dates of a walk that passes by, the record is as before. -/
theorem PassesBy.record?_eq
    {start date : Instant}
    {here : LocalTime}
    (hPasses : e.PassesBy z records r)
    (hSeries : r.series = e.id)
    (hStart : e.startsAt = some start)
    (hHere : z.toLocal start = .ok here)
    (hMember :
      date ∈ datesFrom (e.dateAfter? z here.time) largestWord
        ((ExceptionIndex.ofList e.id records).walkStart start
          e.nextStart)) :
    (ExceptionIndex.ofList e.id (records ++ [r])).record? date =
      (ExceptionIndex.ofList e.id records).record? date := by
  by_cases hDate : date = r.occurrenceStart
  · subst hDate
    cases hOld : (ExceptionIndex.ofList e.id records).record?
        r.occurrenceStart with
    | none =>
        exact absurd hMember
          ((hPasses start here hStart hHere).2 hOld)
    | some old =>
        rw [ExceptionIndex.record?,
          ExceptionIndex.records_ofList_append_of_recorded hSeries
            hOld]
        exact hOld
  · exact ExceptionIndex.record?_ofList_append_of_ne hDate

theorem PassesBy.series_eq
    {g : Generator}
    {windows : List HolidayWindow}
    {o : SeriesOptions}
    {start : Instant}
    (hPasses : e.PassesBy g.zone records r)
    (hRecurring : e.isRecurring = true)
    (hManual : (e.manualDates g.zone).value = .ok [])
    (hSeries : r.series = e.id)
    (hStart : e.startsAt = some start)
    (hWanted : 0 < o.maxOccurrences) :
    g.series e (records ++ [r]) windows o =
      g.series e records windows o := by
  cases hTime : g.timeOfDay e start with
  | error range =>
      have hError (rs : List ExceptionRecord) :
          g.series e rs windows o = .error range :=
        Generator.series_of_time_error
          (e := e.withCache e.nextStart) hRecurring hManual
          (Generator.anchor?_withCache hRecurring hStart _ _)
          hWanted
          ((Generator.timeOfDay_of_startsAt hStart _ _).trans
            hTime)
      rw [hError, hError]
  | ok time =>
      rcases (Generator.timeOfDay_eq_ok_iff hStart).mp hTime with
        ⟨here, hHere, rfl⟩
      rw [Generator.series_of_timeOfDay hRecurring hManual hStart
          hWanted hTime,
        Generator.series_of_timeOfDay hRecurring hManual hStart
          hWanted hTime,
        (hPasses start here hStart hHere).1]
      apply congrArg WalkEnd.occurrences
      apply WalkPlan.walk_withIndex
        (p := g.plan e (.ofList e.id records) windows o
          here.time)
      intro date hMember
      exact hPasses.record?_eq hSeries hStart hHere
        (mem_datesFrom_of_le hMember (Nat.min_le_right _ _))

/- A record that the walk passes by changes no result. -/
theorem sameResults_of_passesBy
    (hRecurring : e.isRecurring = true)
    (hManual : (e.manualDates z).value = .ok [])
    (hCached :
      ∀ cached, e.nextStart = some cached → e.HasDate z cached)
    (hSeries : r.series = e.id)
    (hPasses : e.PassesBy z records r) :
    e.SameResults z (records ++ [r]) records := by
  have hSame (s : Scheduler) (windows : List HolidayWindow)
      (o : SeriesOptions) (hZone : s.zone = z) :
      s.series e (records ++ [r]) windows o =
        s.series e records windows o := by
    subst hZone
    change s.generator.series e (records ++ [r]) windows o =
      s.generator.series e records windows o
    by_cases hNone : o.maxOccurrences = 0
    · rw [Generator.series_of_none_wanted hNone,
        Generator.series_of_none_wanted hNone]
    · cases hStart : e.startsAt with
      | some start =>
          exact hPasses.series_eq (g := s.generator) hRecurring
            hManual hSeries hStart (by omega)
      | none =>
          have hUncached : e.nextStart = none := by
            cases hNext : e.nextStart with
            | none => rfl
            | some cached =>
                rcases hCached cached hNext with
                  ⟨start, _, hSome, _⟩
                rw [hStart] at hSome
                cases hSome
          have hEmpty (rs : List ExceptionRecord) :
              s.generator.series e rs windows o = .ok [] :=
            Generator.series_of_no_anchor hManual
              (Generator.anchor?_of_unstarted hStart hUncached _)
              windows
          rw [hEmpty, hEmpty]
  refine ⟨hSame, ?_⟩
  intro s windows maxOccurrences horizonEnd σ _ store hZone
  exact Scheduler.refresh_congr
    (fun o => hSame s windows o hZone) store

/-
  With all overrides in force on the series, a record off it
  that puts no start in the place of its date is passed by.
-/
theorem passesBy_of_inert
    (hCached :
      ∀ cached, e.nextStart = some cached → e.HasDate z cached)
    (hListed :
      ∀ date t,
        (ExceptionIndex.ofList e.id records).overrideStartOn?
            date = some t →
          e.HasDate z date)
    (hSeries : r.series = e.id)
    (hNew :
      (ExceptionIndex.ofList e.id records).record?
        r.occurrenceStart = none)
    (hInert : ExceptionIndex.overrideStart? r = none)
    (hUnlisted : ¬ e.HasDate z r.occurrenceStart) :
    e.PassesBy z records r := by
  intro start here hStart hHere index anchor
  have hFirst := ExceptionIndex.isFirst_ofList e.id
  refine ⟨?_, ?_⟩
  · exact ExceptionIndex.walkStart_congr (hFirst records)
      (hFirst (records ++ [r]))
      (ExceptionIndex.overrideStartOn?_ofList_append_of_inert
        hSeries hNew hInert) start e.nextStart
  · intro _ hMember
    have hAnchor :=
      ExceptionIndex.hasDate_walkStart (hFirst records) hStart
        hHere hCached hListed
    exact hUnlisted
      (hAnchor.trans hStart hHere
        (dateFrom_of_mem_datesFrom hMember))

------------------------------------------------------------
-- Something Changes
------------------------------------------------------------

/-
  A walk that begins elsewhere does so on the date of an
  override, and with one attempt it shows that override only.
-/
theorem walkStart_eq_of_sameResults
    {start : Instant}
    {here : LocalTime}
    (hRecurring : e.isRecurring = true)
    (hManual : (e.manualDates z).value = .ok [])
    (hStart : e.startsAt = some start)
    (hHere : z.toLocal start = .ok here)
    (hSame : e.SameResults z (records ++ [r]) records) :
    (ExceptionIndex.ofList e.id (records ++ [r])).walkStart
        start e.nextStart =
      (ExceptionIndex.ofList e.id records).walkStart start
        e.nextStart := by
  by_contra hNe
  cases hNext : e.nextStart with
  | none =>
      rw [hNext] at hNe
      exact hNe rfl
  | some cached =>
      rw [hNext] at hNe
      rcases
          ExceptionIndex.exists_override_of_anchorFor_ne
            (ExceptionIndex.isFirst_ofList e.id records)
            (ExceptionIndex.isFirst_ofList e.id
              (records ++ [r]))
            (fun date t hOverride =>
              ExceptionIndex.overrideStartOn?_ofList_append
                hOverride [r]) hNe with
        ⟨t, hOverride⟩
      let s : Scheduler :=
        ⟨z, start,
          { timezone := z.name, attemptsPerOccurrence := 1 }⟩
      let o : SeriesOptions := ⟨1, true, none⟩
      have hTime : s.generator.timeOfDay e start = .ok here.time :=
        (Generator.timeOfDay_eq_ok_iff hStart).mpr
          ⟨here, hHere, rfl⟩
      have hSeries (rs : List ExceptionRecord) :
          s.series e rs [] o =
            ((s.generator.plan e (.ofList e.id rs) [] o
              here.time).walk
                ((ExceptionIndex.ofList e.id rs).walkStart start
                  e.nextStart)).occurrences :=
        Generator.series_of_timeOfDay (g := s.generator) (o := o)
          hRecurring hManual hStart Nat.one_pos hTime rs
      let q := s.generator.plan e
        (.ofList e.id (records ++ [r])) [] o here.time
      rcases
          WalkPlan.exists_occurrence?_of_override (p := q)
            hOverride with
        ⟨found, hFound⟩
      have hShown :=
        WalkPlan.walk_of_first_kept (p := q) rfl rfl
          (WalkPlan.reaches_of_no_horizon rfl _)
          (WalkPlan.kept?_eq_some_iff.mpr ⟨hFound, rfl⟩)
      have hBefore := hSame.series s [] o rfl
      rw [hSeries, hSeries, hNext] at hBefore
      have hSlot :=
        WalkPlan.slot_eq_of_mem_walk Nat.one_pos rfl
          (hBefore.symm.trans hShown)
          (List.mem_singleton_self found)
      rw [WalkPlan.slot_of_occurrence? hFound] at hSlot
      exact hNe hSlot

/-
  A walk that comes to the unrecorded date shows the plain
  occurrence there, which it cannot have with the record.
-/
theorem not_mem_datesFrom_of_sameResults
    {start : Instant}
    {here : LocalTime}
    (hRecurring : e.isRecurring = true)
    (hManual : (e.manualDates z).value = .ok [])
    (hSeries : r.series = e.id)
    (hTimes : ∃ o, e.occurrenceAt r.occurrenceStart = .ok o)
    (hStart : e.startsAt = some start)
    (hHere : z.toLocal start = .ok here)
    (hSame : e.SameResults z (records ++ [r]) records)
    (hNew :
      (ExceptionIndex.ofList e.id records).record?
        r.occurrenceStart = none) :
    r.occurrenceStart ∉
      datesFrom (e.dateAfter? z here.time) largestWord
        ((ExceptionIndex.ofList e.id records).walkStart start
          e.nextStart) := by
  intro hMember
  rcases hTimes with ⟨plain, hAt⟩
  let s : Scheduler :=
    ⟨z, r.occurrenceStart,
      { timezone := z.name,
        attemptsPerOccurrence := largestWord }⟩
  rcases
      Generator.exists_mem_series_of_present (g := s.generator)
        hRecurring hManual hStart hHere rfl rfl hMember hNew
        hAt with
    ⟨wanted, os, hBefore, hShown⟩
  let o : SeriesOptions := ⟨wanted, false, none⟩
  have hAfter :=
    (hSame.series s [] o rfl).trans hBefore
  rcases
      Generator.exists_date_of_mem_series (g := s.generator)
        (e := e) hRecurring hManual hStart hAfter hShown with
    ⟨_, date, _, _, hOn⟩
  rcases Event.eq_of_occurrenceAt hAt with
    ⟨doors, finish, curfew, hPlain⟩
  have hSlot := WalkPlan.slot_of_occurrence? hOn
  subst hPlain hSlot
  rcases WalkPlan.occurrence?_cases hOn with
    ⟨_, _, hUnrecorded⟩ | ⟨hOverride, _⟩
  · have hAdded :=
      ExceptionIndex.record?_ofList_append_self hSeries hNew
    change (ExceptionIndex.ofList e.id (records ++ [r])).record?
      r.occurrenceStart = none at hUnrecorded
    rw [hAdded] at hUnrecorded
    cases hUnrecorded
  · cases hOverride

/-
  A record for a date off the series changes no result of an
  event with no cached start, or one on the series, exactly if
  the walk of the event passes it by.
-/
theorem sameResults_append_iff
    (hRecurring : e.isRecurring = true)
    (hManual : (e.manualDates z).value = .ok [])
    (hCached :
      ∀ cached, e.nextStart = some cached → e.HasDate z cached)
    (hSeries : r.series = e.id)
    (hTimes : ∃ o, e.occurrenceAt r.occurrenceStart = .ok o) :
    e.SameResults z (records ++ [r]) records ↔
      e.PassesBy z records r := by
  constructor
  · intro hSame start here hStart hHere
    refine ⟨?_, ?_⟩
    · exact walkStart_eq_of_sameResults hRecurring hManual
        hStart hHere hSame
    · exact not_mem_datesFrom_of_sameResults hRecurring hManual
        hSeries hTimes hStart hHere hSame
  · exact sameResults_of_passesBy hRecurring hManual hCached
      hSeries

/-
  While the third jazz night is cached and the second put off,
  a Friday is skipped on which there is no jazz night.
-/
theorem sameResults_append_jazzNight :
    let e := jazzNight.withCache (some (nightTime 2 0))
    let records := [movedNight 1 (nightTime 1 24)]
    let r : ExceptionRecord :=
      .skip jazzNight.id (nightTime 1 22)
    ¬ e.HasDate .utc r.occurrenceStart ∧
      e.SameResults .utc (records ++ [r]) records := by
  intro e records r
  have hSecond : e.HasDate .utc (nightTime 1 0) :=
    jazzNight_hasDate_iff.mpr
      (.next .first jazzNight_dateAfter?_zero)
  have hCached :
      ∀ cached, e.nextStart = some cached →
        e.HasDate .utc cached := by
    rintro _ ⟨⟩
    exact jazzNight_hasDate_iff.mpr
      (.next (.next .first jazzNight_dateAfter?_zero)
        jazzNight_dateAfter?_one)
  have hListed :
      ∀ date t,
        (ExceptionIndex.ofList e.id records).overrideStartOn?
            date = some t →
          e.HasDate .utc date := by
    intro date t hOverride
    rw [(eq_of_movedNight hOverride).1]
    exact hSecond
  have hTimes :
      ∃ o, e.occurrenceAt r.occurrenceStart = .ok o :=
    ⟨_, rfl⟩
  have hPasses : e.PassesBy .utc records r :=
    passesBy_of_inert hCached hListed rfl (by decide) rfl
      jazzNight_not_hasDate
  refine ⟨jazzNight_not_hasDate, ?_⟩
  exact (sameResults_append_iff rfl
    (Event.manualDates_of_nil rfl .utc) hCached rfl hTimes).mpr
      hPasses

/-
  The same Friday is moved behind the cached third night.  The
  walk then begins on that Friday, and the third night is lost.
-/
theorem unlisted_hides_jazzNight :
    let s := Scheduler.inZone .utc (nightTime 1 4)
    let e := jazzNight.withCache (some (nightTime 2 0))
    let r : ExceptionRecord :=
      .replacing jazzNight.id (nightTime 1 22)
        { id := ⟨2⟩
          title := "Jazz night"
          startsAt := some (nightTime 2 24) }
    let o : SeriesOptions := ⟨10, false, some (nightTime 4 4)⟩
    e.HasDate .utc (nightTime 2 0) ∧
    ¬ e.HasDate .utc r.occurrenceStart ∧
    (s.series e [] [] o).map (·.map (·.start)) =
      .ok [nightTime 2 0, nightTime 3 0, nightTime 4 0] ∧
    (s.series e ([] ++ [r]) [] o).map (·.map (·.start)) =
      .ok [nightTime 2 24, nightTime 3 0, nightTime 4 0] := by
  intro s e r o
  refine ⟨?_, jazzNight_not_hasDate, ?_, ?_⟩
  · exact jazzNight_hasDate_iff.mpr
      (.next (.next .first jazzNight_dateAfter?_zero)
        jazzNight_dateAfter?_one)
  · cbv
  · cbv

end Event

end EventSeries
