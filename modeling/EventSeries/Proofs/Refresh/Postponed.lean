import EventSeries.Proofs.Refresh.Resumed

/-
  Overrides that only postpone dates never make the cached
  start lose a date.  A walk from the cached start goes back
  to the date that an override starting then replaced, and
  further to the first date that was moved past that one, so
  that everything on the dates before has already started.

  Main declarations:
    * `Event.OnlyPostponed`
    * `Scheduler.SettlesOn.resumes_of_postponed`
    * `Scheduler.refreshes_of_postponed`
-/

namespace EventSeries

/-
  Every override of the series is recorded for a date of the
  series and starts no earlier than that date.
-/
def Event.OnlyPostponed
    (e : Event)
    (z : Zone)
    (records : List ExceptionRecord) : Prop :=
  ∀ r ∈ records, r.series = e.id →
    ∀ replacement, r.activeOverride? = some replacement →
      e.HasDate z r.occurrenceStart ∧
        ∀ moved, replacement.startsAt = some moved →
          r.occurrenceStart ≤ moved

theorem Event.OnlyPostponed.overrideStartOn?
    {e : Event}
    {z : Zone}
    {records : List ExceptionRecord}
    (hPostponed : e.OnlyPostponed z records)
    {date moved : Instant}
    (hMoved :
      (ExceptionIndex.ofList e.id records).overrideStartOn?
        date = some moved) :
    e.HasDate z date ∧ date ≤ moved := by
  rcases
      ExceptionIndex.overrideStartOn?_eq_some_iff.mp hMoved with
    ⟨r, replacement, hRecord, hActive, hStart⟩
  rcases ExceptionIndex.mem_of_record?_ofList hRecord with
    ⟨hMember, hSeries, rfl⟩
  rcases hPostponed r hMember hSeries replacement hActive with
    ⟨hDate, hLater⟩
  exact ⟨hDate, hLater moved hStart⟩

namespace Scheduler

variable {s : Scheduler}
variable {e : Event}
variable {records : List ExceptionRecord}
variable {windows : List HolidayWindow}
variable {maxOccurrences : Nat}
variable {horizon start : Instant}
variable {time : ClockTime}
variable {dates : List Instant}

------------------------------------------------------------
-- From The Cached Start Back To A Date
------------------------------------------------------------

namespace SettlesOn

variable (hSettles :
  s.SettlesOn e records windows maxOccurrences horizon start
    time dates)
variable (hPostponed : e.OnlyPostponed s.zone records)
include hSettles hPostponed

/-
  The start of an occurrence is mapped back to a settled date
  that is no later.
-/
theorem mem_replacedStart?_of_postponed
    {o : Occurrence}
    (hOn :
      o ∈ (s.refreshPlan e records windows maxOccurrences
        horizon time).occurrencesOn dates) :
    let index := ExceptionIndex.ofList e.id records
    let date := (index.replacedStart? o.start).getD o.start
    date ∈ dates ∧ date ≤ o.start := by
  intro index date
  rcases List.mem_filterMap.mp hOn with ⟨source, hSource, hFound⟩
  have hFirst := ExceptionIndex.isFirst_ofList e.id records
  rcases ExceptionIndex.replacedStart?_getD_cases hFirst o.start
    with ⟨hReplaced, hLeast⟩ | ⟨hSelf, hNone⟩
  · rcases hPostponed.overrideStartOn? hReplaced with
      ⟨hDate, hBack⟩
    refine ⟨?_, hBack⟩
    apply hSettles.mem_of_hasDate hDate hSource
    rcases WalkPlan.start_of_occurrence? hFound with
      hPlain | hOverride
    · rw [← hPlain]
      exact hBack
    · exact hLeast source hOverride
  · have hPlain : o.start = source := by
      rcases WalkPlan.start_of_occurrence? hFound with
        hPlain | hOverride
      · exact hPlain
      · exact absurd hOverride (hNone source)
    refine ⟨?_, Std.le_of_eq hSelf⟩
    change (index.replacedStart? o.start).getD o.start ∈ dates
    rw [hSelf, hPlain]
    exact hSource

/-
  A walk from the cached start loses nothing.  A date that it
  leaves out and that has something upcoming would be moved
  past the date it begins with, and so not be left out.
-/
theorem resumes_of_postponed
    (now : Instant) :
    let p := s.refreshPlan e records windows maxOccurrences
      horizon time
    p.Resumes dates now
      ((ExceptionIndex.ofList e.id records).walkStart start
        (earliestUpcoming? now (p.occurrencesOn dates))) := by
  intro p
  cases hCached :
      earliestUpcoming? now (p.occurrencesOn dates) with
  | none => exact hSettles.settled.resumes now
  | some cached =>
      rw [earliestUpcoming?_eq_some_iff] at hCached
      rcases hCached with ⟨⟨o, hOn, rfl⟩, _, hLeast⟩
      rcases
          hSettles.mem_replacedStart?_of_postponed hPostponed hOn with
        ⟨hMember, hBack⟩
      have hFirst := ExceptionIndex.isFirst_ofList e.id records
      rw [ExceptionIndex.walkStart, ExceptionIndex.anchorFor]
      generalize
        ((ExceptionIndex.ofList e.id records).replacedStart?
          o.start).getD o.start = date at hMember hBack ⊢
      rcases ExceptionIndex.movedPast?_getD_cases hFirst date with
        ⟨hAnchor, hPulled⟩
      change p.Resumes dates now
        (((ExceptionIndex.ofList e.id records).movedPast?
          date).getD date)
      generalize
        ((ExceptionIndex.ofList e.id records).movedPast?
          date).getD date = anchor at hAnchor hPulled ⊢
      have hLe : anchor ≤ date := by
        rcases hAnchor with ⟨hBefore, _⟩ | rfl
        · exact Std.le_of_lt hBefore
        · exact Std.le_refl anchor
      have hAnchorMember : anchor ∈ dates := by
        rcases hAnchor with ⟨_, moved, hMoved, _⟩ | rfl
        · exact hSettles.mem_of_hasDate
            (hPostponed.overrideStartOn? hMoved).1 hMember hLe
        · exact hMember
      apply WalkPlan.resumes_of_mem hSettles.settled
        hAnchorMember
      intro early hEarly hBefore other hFound
      by_cases hUpcoming : now ≤ other.start
      · exfalso
        have hLater := hLeast other
          (List.mem_filterMap.mpr ⟨early, hEarly, hFound⟩)
          hUpcoming
        have hMovedPast :
            (ExceptionIndex.ofList e.id records).MovedPast date
              early := by
          refine ⟨by grind, other.start, ?_, by grind⟩
          rcases WalkPlan.start_of_occurrence? hFound with
            hPlain | hOverride
          · grind
          · exact hOverride
        have hNotBefore := hPulled early hMovedPast
        grind
      · grind

end SettlesOn

------------------------------------------------------------
-- Refreshes In A Row
------------------------------------------------------------

section

variable {σ : Type}
variable [StartStore σ]
variable {store store' : σ}
variable {e' : Event}

variable (hRecurring : e.isRecurring = true)
variable (hManual : (e.manualDates s.zone).value = .ok [])
variable (hStart : e.startsAt = some start)
variable (hUncached : e.nextStart = none)
variable (hPostponed : e.OnlyPostponed s.zone records)
variable (hRoom :
  s.HasRoom e records windows maxOccurrences horizon)

include hRecurring hManual hStart hUncached hPostponed hRoom

/-
  After refreshes at some times the event caches the earliest
  start from the last of these times on, among all dates.
-/
theorem cached_of_refreshes
    {times : List Instant}
    (hRun :
      s.Refreshes records windows maxOccurrences (some horizon)
        e store times e' store')
    (hOrdered : times.Pairwise (· ≤ ·)) :
    (times = [] ∧ e' = e) ∨
    ∃ time dates now,
      s.SettlesOn e records windows maxOccurrences horizon
        start time dates ∧
      times.getLast? = some now ∧
      e' = e.withCache (earliestUpcoming? now
        ((s.refreshPlan e records windows maxOccurrences
          horizon time).occurrencesOn dates)) := by
  induction hRun with
  | start => exact Or.inl ⟨rfl, rfl⟩
  | @refresh times now e' store' out hRun hDone ih =>
      right
      rcases List.pairwise_append.mp hOrdered with
        ⟨hEarlier, _, hLast⟩
      rcases ih hEarlier with
        ⟨rfl, rfl⟩ |
        ⟨time, dates, before, hSettles, hBefore, rfl⟩
      · rcases
            first_refresh hRecurring hManual hStart hUncached
              hRoom hDone with
          ⟨time, dates, hSettles, ⟨_, hNext⟩, hEvent⟩
        refine ⟨time, dates, now, hSettles, rfl, ?_⟩
        rw [hEvent, hNext]
      · have hLe : before ≤ now :=
          hLast before (List.mem_of_getLast? hBefore) now
            (List.mem_singleton_self now)
        have hResumes :=
          hSettles.resumes_of_postponed hPostponed before
        refine ⟨time, dates, now, hSettles, by simp, ?_⟩
        exact hSettles.refresh_event_of_resumes hResumes hLe
          hDone

/-
  After any refreshes at times in order, the event has the
  cached start that a single refresh of the untouched event
  gives at the last of these times, and from that time on it
  has the same series as the untouched event.
-/
theorem refreshes_of_postponed
    {times : List Instant}
    {now : Instant}
    (hRun :
      s.Refreshes records windows maxOccurrences (some horizon)
        e store (times ++ [now]) e' store')
    (hOrdered : (times ++ [now]).Pairwise (· ≤ ·)) :
    (s.movedTo now).RefreshesTo e records windows
      maxOccurrences (some horizon) e'.nextStart ∧
    ∀ present, now ≤ present →
      ∃ os,
        (s.movedTo present).series e' records windows
          (upcomingOptions maxOccurrences horizon) = .ok os ∧
        (s.movedTo present).series e records windows
          (upcomingOptions maxOccurrences horizon) = .ok os := by
  rcases
      cached_of_refreshes hRecurring hManual hStart hUncached
        hPostponed hRoom hRun hOrdered with
    ⟨hNone, _⟩ | ⟨time, dates, last, hSettles, hLast, hCached⟩
  · simp at hNone
  · have hSame : last = now := by simpa using hLast.symm
    subst hSame
    refine ⟨?_, ?_⟩
    · rw [hCached]
      exact hSettles.refreshesTo_uncached hUncached last
    · intro present hLe
      have hResumes :=
        hSettles.resumes_of_postponed hPostponed last
      rw [hCached]
      exact (hSettles.sameSchedule_of_resumes hUncached hResumes
        hLe).series

end

/-
  The second jazz night is put off a day, and the event is
  refreshed in the first week and between the two starts.
-/
theorem refreshes_of_postponed_jazzNight :
    let s := Scheduler.inZone .utc (nightTime 0 0)
    let records := [movedNight 1 (nightTime 1 24)]
    let horizon := nightTime 4 4
    ∃ e' store',
      s.Refreshes records [] 10 (some horizon) jazzNight
        ({} : MemoryStore) [nightTime 0 1, nightTime 1 1] e'
        store' ∧
      e'.nextStart = some (nightTime 1 24) ∧
      (s.movedTo (nightTime 1 1)).RefreshesTo jazzNight records
        [] 10 (some horizon) e'.nextStart ∧
      ∀ present, nightTime 1 1 ≤ present →
        ∃ os,
          (s.movedTo present).series e' records []
            (upcomingOptions 10 horizon) = .ok os ∧
          (s.movedTo present).series jazzNight records []
            (upcomingOptions 10 horizon) = .ok os := by
  intro s records horizon
  have hPostponed : jazzNight.OnlyPostponed s.zone records := by
    intro r hMember _ replacement hActive
    rw [List.mem_singleton] at hMember
    subst hMember
    refine ⟨?_, ?_⟩
    · exact jazzNight_hasDate_iff.mpr
        (.next .first jazzNight_dateAfter?_zero)
    · intro moved hMoved
      cases hActive
      cases hMoved
      decide
  have hRoom : s.HasRoom jazzNight records [] 10 horizon :=
    .of_horizon (by decide) rfl (jazzNight_timeOfDay s.now 6)
      (by cbv)
  have hFirst :
      ((s.movedTo (nightTime 0 1)).refresh jazzNight records []
        10 (some horizon) ({} : MemoryStore)).outcome.map
          (·.nextStart) = .ok (some (nightTime 1 24)) := by
    cbv
  rcases exists_ok_of_map hFirst with ⟨_, hFirst, _⟩
  generalize hOnce :
    (s.movedTo (nightTime 0 1)).refresh jazzNight records [] 10
      (some horizon) ({} : MemoryStore) = once at hFirst
  have hSecond :
      ((s.movedTo (nightTime 1 1)).refresh once.event records []
        10 (some horizon) once.store).outcome.map
          (·.nextStart) = .ok (some (nightTime 1 24)) := by
    rw [← hOnce]
    cbv
  rcases exists_ok_of_map hSecond with ⟨_, hSecond, _⟩
  subst hOnce
  have hRun := (Refreshes.start.refresh hFirst).refresh hSecond
  have hOrdered : nightTime 0 1 ≤ nightTime 1 1 := by decide
  rcases
      refreshes_of_postponed rfl (Event.manualDates_of_nil rfl .utc)
        rfl rfl hPostponed hRoom hRun
        (List.pairwise_pair.mpr hOrdered) with
    ⟨hNext, hSeries⟩
  exact ⟨_, _, hRun, by cbv, hNext, hSeries⟩

end Scheduler

end EventSeries
