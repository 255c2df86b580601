import EventSeries.Proofs.Refresh.Resumed
import EventSeries.Proofs.Series.Suppressed

/-
  Skips and windows that change between two refreshes.  They
  move no date, and so the dates of the series stay the same
  while others of them are suppressed.  The second refresh
  walks from the start that the first one cached, and agrees
  with a refresh of the untouched event exactly if nothing
  upcoming lies before that start, as may be the case when a
  suppressed date is restored.

  Main declarations:
    * `Scheduler.dates_eq_of_suppressed`
    * `Scheduler.SettlesOn.resumes_of_suppressed`
    * `Scheduler.cached_le_of_none_restored`
    * `Scheduler.restored_agrees_iff`
-/

namespace EventSeries

namespace Scheduler

variable {s : Scheduler}
variable {e : Event}
variable {records others : List ExceptionRecord}
variable {windows otherWindows : List HolidayWindow}
variable {maxOccurrences : Nat}
variable {horizon start : Instant}
variable {time : ClockTime}
variable {dates : List Instant}

------------------------------------------------------------
-- The Same Dates
------------------------------------------------------------

/- Whatever is suppressed, a series settles on the same dates. -/
theorem dates_eq_of_suppressed
    {otherTime : ClockTime}
    {otherDates : List Instant}
    (hSuppressed : e.OnlySuppressed records)
    (hOthers : e.OnlySuppressed others)
    (hSettles :
      s.SettlesOn e records windows maxOccurrences horizon start
        time dates)
    (hOther :
      s.SettlesOn e others otherWindows maxOccurrences horizon
        start otherTime otherDates) :
    otherTime = time ∧ otherDates = dates := by
  have hTime : otherTime = time := by
    have hSame := hSettles.timeOfDay
    rw [hOther.timeOfDay, Except.ok.injEq] at hSame
    exact hSame
  subst hTime
  refine ⟨rfl, ?_⟩
  let p := s.refreshPlan e records windows maxOccurrences
    horizon otherTime
  let q := s.refreshPlan e others otherWindows maxOccurrences
    horizon otherTime
  have hReaches : q.reaches = p.reaches := by
    rw [hOthers.reaches_eq (p := q) rfl,
      hSuppressed.reaches_eq (p := p) rfl]
    rfl
  calc otherDates
      = q.reached q.maxAttempts start :=
        (WalkPlan.reached_of_settlesWithin
          hOther.settled.settles).symm
    _ = p.reached p.maxAttempts start := by
        rw [WalkPlan.reached, hReaches]
        rfl
    _ = dates :=
        WalkPlan.reached_of_settlesWithin
          hSettles.settled.settles

/-
  A cached start on a settled date resumes the walk if nothing
  upcoming lies before it.
-/
theorem SettlesOn.resumes_of_suppressed
    {now cached : Instant}
    (hSuppressed : e.OnlySuppressed records)
    (hSettles :
      s.SettlesOn e records windows maxOccurrences horizon start
        time dates)
    (hMember : cached ∈ dates) :
    let p := s.refreshPlan e records windows maxOccurrences
      horizon time
    (∀ o ∈ p.occurrencesOn dates, now ≤ o.start →
      cached ≤ o.start) →
      p.Resumes dates now
        ((ExceptionIndex.ofList e.id records).walkStart start
          (some cached)) := by
  intro p hNotBefore
  rw [ExceptionIndex.walkStart, hSuppressed.anchorFor]
  apply WalkPlan.resumes_of_mem hSettles.settled hMember
  intro early hEarly hBefore o hOn
  have hStart := hSuppressed.start_eq (p := p) rfl hOn
  have hLater :=
    hNotBefore o (List.mem_filterMap.mpr ⟨early, hEarly, hOn⟩)
  grind

------------------------------------------------------------
-- The Second Refresh
------------------------------------------------------------

/- A walk from a cached start has nothing before that start. -/
theorem le_start_of_suppressed
    {present cached : Instant}
    {o : SeriesOptions}
    {os : List Occurrence}
    {occurrence : Occurrence}
    (hRecurring : e.isRecurring = true)
    (hManual : (e.manualDates s.zone).value = .ok [])
    (hStart : e.startsAt = some start)
    (hSuppressed : e.OnlySuppressed records)
    (hSeries :
      (s.movedTo present).series (e.withCache (some cached))
        records windows o = .ok os)
    (hMember : occurrence ∈ os) :
    cached ≤ occurrence.start := by
  rcases
      Generator.exists_date_of_mem_series
        (g := (s.movedTo present).generator) hRecurring hManual
        hStart hSeries hMember with
    ⟨_, date, _, hDate, hOn⟩
  rw [ExceptionIndex.walkStart, hSuppressed.anchorFor] at hDate
  rw [hSuppressed.start_eq rfl hOn]
  exact (dateFrom_of_mem_datesFrom hDate).first_le
    fun _ _ hStep => Event.lt_of_dateAfter? hStep

section

variable {σ : Type}
variable [StartStore σ]
variable {store : σ}
variable {now present : Instant}
variable {out : RefreshOutcome}
variable {os : List Occurrence}

variable (hRecurring : e.isRecurring = true)
variable (hManual : (e.manualDates s.zone).value = .ok [])
variable (hStart : e.startsAt = some start)
variable (hUncached : e.nextStart = none)
variable (hSuppressed : e.OnlySuppressed records)
variable (hOthers : e.OnlySuppressed others)
variable (hRoom :
  s.HasRoom e records windows maxOccurrences horizon)
variable (hOtherRoom :
  s.HasRoom e others otherWindows maxOccurrences horizon)
variable (hDone :
  ((s.movedTo now).refresh e records windows maxOccurrences
    (some horizon) store).outcome = .ok out)
variable (hOs :
  (s.movedTo present).series e others otherWindows
    (refreshOptions maxOccurrences horizon) = .ok os)

include hRecurring hManual hStart hUncached hSuppressed hOthers
include hRoom hOtherRoom hDone hOs

/-
  With nothing upcoming before the cached start the second
  refresh cannot tell the event from the untouched one.
-/
theorem refreshesTo_of_restored
    (hNotBefore :
      ∀ cached, out.nextStart = some cached →
        ∀ o ∈ os, present ≤ o.start → cached ≤ o.start) :
    ∃ next,
      (s.movedTo present).RefreshesTo
        (e.withCache out.nextStart) others otherWindows
        maxOccurrences (some horizon) next ∧
      (s.movedTo present).RefreshesTo e others otherWindows
        maxOccurrences (some horizon) next := by
  rcases
      first_refresh hRecurring hManual hStart hUncached hRoom
        hDone with
    ⟨time, dates, hSettles, ⟨_, hNext⟩, _⟩
  rcases
      exists_settlesOn hRecurring hManual hStart hUncached
        hOtherRoom hOs with
    ⟨otherTime, otherDates, hOther⟩
  rcases
      dates_eq_of_suppressed hSuppressed hOthers hSettles
        hOther with
    ⟨rfl, rfl⟩
  refine ⟨_, ?_, hOther.refreshesTo_uncached hUncached present⟩
  apply hOther.refreshesTo_of_resumes _ (Std.le_refl present)
  cases hCached : out.nextStart with
  | none => exact hOther.resumes_uncached present
  | some cached =>
      rw [hCached] at hNext
      rcases earliestUpcoming?_eq_some_iff.mp hNext.symm with
        ⟨⟨o, hOn, hStarts⟩, _⟩
      rcases List.mem_filterMap.mp hOn with
        ⟨date, hDate, hFound⟩
      have hSame : cached = date :=
        hStarts.symm.trans (hSuppressed.start_eq rfl hFound)
      rw [← hSame] at hDate
      apply hOther.resumes_of_suppressed hOthers hDate
      intro later hLater
      apply hNotBefore cached hCached later
      have hAll :=
        hOther.series_withPast hOther.settled_uncached present
      rw [Event.withCache_self hUncached, hOs,
        Except.ok.injEq] at hAll
      rw [hAll, mem_sortOccurrences]
      exact hLater

end

/-
  If every upcoming occurrence was there for the first refresh,
  none of them lies before the start that it cached.
-/
theorem cached_le_of_none_restored
    {σ : Type}
    [StartStore σ]
    {store : σ}
    {now present : Instant}
    {out : RefreshOutcome}
    {os : List Occurrence}
    (hRecurring : e.isRecurring = true)
    (hDone :
      ((s.movedTo now).refresh e records windows maxOccurrences
        (some horizon) store).outcome = .ok out)
    (hLe : now ≤ present)
    (hShown :
      ∀ o ∈ os, present ≤ o.start →
        ∃ x ∈ out.occurrences, x.start = o.start) :
    ∀ cached, out.nextStart = some cached →
      ∀ o ∈ os, present ≤ o.start → cached ≤ o.start := by
  intro cached hCached o hMember hUpcoming
  rcases refresh_of_ok hDone with ⟨_, _, _, hNext, _⟩
  rw [hCached, Event.upcomingStart?, if_pos hRecurring] at hNext
  rcases hShown o hMember hUpcoming with ⟨x, hBefore, hSame⟩
  rw [← hSame] at hUpcoming ⊢
  exact (earliestUpcoming?_eq_some_iff.mp hNext.symm).2.2 x
    hBefore (Std.le_trans hLe hUpcoming)

/-
  After the suppressions have changed, a refresh gives the
  refreshed event and the untouched one the same start exactly
  if nothing upcoming in the untouched series lies before the
  start that was cached.
-/
theorem restored_agrees_iff
    {σ : Type}
    [StartStore σ]
    {store : σ}
    {now present : Instant}
    {out : RefreshOutcome}
    {os : List Occurrence}
    (hRecurring : e.isRecurring = true)
    (hManual : (e.manualDates s.zone).value = .ok [])
    (hStart : e.startsAt = some start)
    (hUncached : e.nextStart = none)
    (hSuppressed : e.OnlySuppressed records)
    (hOthers : e.OnlySuppressed others)
    (hRoom :
      s.HasRoom e records windows maxOccurrences horizon)
    (hOtherRoom :
      s.HasRoom e others otherWindows maxOccurrences horizon)
    (hDone :
      ((s.movedTo now).refresh e records windows maxOccurrences
        (some horizon) store).outcome = .ok out)
    (hOs :
      (s.movedTo present).series e others otherWindows
        (refreshOptions maxOccurrences horizon) = .ok os) :
    let e' := ((s.movedTo now).refresh e records windows
      maxOccurrences (some horizon) store).event
    (∃ next,
      (s.movedTo present).RefreshesTo e' others otherWindows
        maxOccurrences (some horizon) next ∧
      (s.movedTo present).RefreshesTo e others otherWindows
        maxOccurrences (some horizon) next) ↔
    ∀ cached, out.nextStart = some cached →
      ∀ o ∈ os, present ≤ o.start → cached ≤ o.start := by
  intro e'
  rcases refresh_of_ok hDone with ⟨_, _, _, _, hEvent⟩
  change e' = _ at hEvent
  rw [hEvent]
  constructor
  · rintro ⟨next, hRefreshed, hUntouched⟩ cached hCached o
      hMember hUpcoming
    rw [hCached] at hRefreshed
    have hSeries :
        (s.movedTo present).RefreshesTo e others otherWindows
          maxOccurrences (some horizon)
          (e.upcomingStart? present os) :=
      refreshesTo_of_series rfl hOs
    rw [Event.upcomingStart?, if_pos hRecurring] at hSeries
    have hNext := hUntouched.unique hSeries
    rcases hRefreshed.empty_store with ⟨again, hAgain, hSame⟩
    rcases refresh_of_ok hAgain with
      ⟨_, _, hResumed, hFound, _⟩
    rw [hSame, hNext, Event.upcomingStart?,
      Event.withCache_isRecurring, if_pos hRecurring] at hFound
    cases hEarliest : earliestUpcoming? present os with
    | none =>
        have hPast :=
          earliestUpcoming?_eq_none_iff.mp hEarliest o hMember
        grind
    | some t =>
        rw [hEarliest] at hFound
        rcases earliestUpcoming?_eq_some_iff.mp hFound.symm with
          ⟨⟨x, hShown, rfl⟩, _⟩
        calc cached
            ≤ x.start :=
              le_start_of_suppressed hRecurring hManual hStart
                hOthers hResumed hShown
          _ ≤ o.start :=
              (earliestUpcoming?_eq_some_iff.mp
                hEarliest).2.2 o hMember hUpcoming
  · exact refreshesTo_of_restored hRecurring hManual hStart
      hUncached hSuppressed hOthers hRoom hOtherRoom hDone hOs

/-
  The second jazz night is skipped when the event is refreshed
  first, and the third too when it is refreshed again.
-/
theorem restored_agrees_of_jazzNight :
    let s := Scheduler.inZone .utc (nightTime 0 52)
    let records := [.skip jazzNight.id (nightTime 1 0)]
    let others :=
      [.skip jazzNight.id (nightTime 1 0),
        .skip jazzNight.id (nightTime 2 0)]
    let horizon := nightTime 4 4
    let e' := ((s.movedTo (nightTime 0 52)).refresh jazzNight
      records [] 10 (some horizon) ({} : MemoryStore)).event
    ((s.movedTo (nightTime 0 52)).refresh jazzNight records []
      10 (some horizon) ({} : MemoryStore)).outcome.map
        (·.nextStart) = .ok (some (nightTime 2 0)) ∧
    ∃ next,
      (s.movedTo (nightTime 1 4)).RefreshesTo e' others [] 10
        (some horizon) next ∧
      (s.movedTo (nightTime 1 4)).RefreshesTo jazzNight others
        [] 10 (some horizon) next := by
  intro s records others horizon e'
  have hRoom : s.HasRoom jazzNight records [] 10 horizon :=
    .of_horizon (by decide) rfl (jazzNight_timeOfDay s.now 6)
      (by cbv)
  have hOtherRoom : s.HasRoom jazzNight others [] 10 horizon :=
    .of_horizon (by decide) rfl (jazzNight_timeOfDay s.now 6)
      (by cbv)
  have hFirst :
      ((s.movedTo (nightTime 0 52)).refresh jazzNight records []
        10 (some horizon) ({} : MemoryStore)).outcome.map
          (fun out => (out.nextStart,
            out.occurrences.map (·.start))) =
        .ok (some (nightTime 2 0),
          [nightTime 0 0, nightTime 2 0, nightTime 3 0,
            nightTime 4 0]) := by
    cbv
  have hSeries :
      ((s.movedTo (nightTime 1 4)).series jazzNight others []
          (refreshOptions 10 horizon)).map
            (·.map (·.start)) =
        .ok [nightTime 0 0, nightTime 3 0, nightTime 4 0] := by
    cbv
  rcases exists_ok_of_map hFirst with ⟨out, hDone, hOut⟩
  rcases exists_ok_of_map hSeries with ⟨os, hOs, hStarts⟩
  rw [Prod.mk.injEq] at hOut
  rcases hOut with ⟨hNext, hFound⟩
  have hShown :
      ∀ o ∈ os, nightTime 1 4 ≤ o.start →
        ∃ x ∈ out.occurrences, x.start = o.start := by
    have hKept :
        os.map (·.start) ⊆ out.occurrences.map (·.start) := by
      rw [hStarts, hFound]
      decide
    intro o hMember _
    exact List.mem_map.mp (hKept (List.mem_map_of_mem hMember))
  have hNotBefore :=
    cached_le_of_none_restored rfl hDone (by decide) hShown
  have hAgree :=
    (restored_agrees_iff rfl (Event.manualDates_of_nil rfl .utc)
      rfl rfl (by decide) (by decide) hRoom hOtherRoom hDone
      hOs).mpr hNotBefore
  refine ⟨?_, hAgree⟩
  rw [hDone]
  exact congrArg Except.ok hNext

/-
  The second jazz night is skipped when the event is refreshed
  first, and no longer when it is refreshed again.  It is not
  found any more.
-/
theorem restored_jazzNight_stays_hidden :
    let s := Scheduler.inZone .utc (nightTime 0 124)
    let records := [.skip jazzNight.id (nightTime 1 0)]
    let horizon := nightTime 4 4
    let done := s.refresh jazzNight records [] 10 (some horizon)
      ({} : MemoryStore)
    jazzNight.OnlySuppressed records ∧
    s.HasRoom jazzNight records [] 10 horizon ∧
    s.HasRoom jazzNight [] [] 10 horizon ∧
    (s.refresh done.event [] [] 10 (some horizon)
        done.store).outcome.map (·.nextStart) =
      .ok (some (nightTime 2 0)) ∧
    (s.refresh jazzNight [] [] 10 (some horizon)
        ({} : MemoryStore)).outcome.map (·.nextStart) =
      .ok (some (nightTime 1 0)) := by
  refine ⟨?_, ?_, ?_, ?_, ?_⟩
  · decide
  · exact .of_horizon (by decide) rfl
      (jazzNight_timeOfDay _ 6) (by cbv)
  · exact .of_horizon (by decide) rfl
      (jazzNight_timeOfDay _ 6) (by cbv)
  · cbv
  · cbv

end Scheduler

end EventSeries
