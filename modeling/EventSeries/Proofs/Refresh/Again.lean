import EventSeries.Proofs.Refresh.Basic
import EventSeries.Proofs.Series.Continued
import EventSeries.Proofs.Series.Modes
import EventSeries.Proofs.Series.Resumed

/-
  A refresh of an event that has just been refreshed.  The
  second one walks from the start that the first one cached.
  If the first walk came to the date where this one begins,
  the cached start is found again, and the second refresh is
  quiet unless it finds something upcoming before that.  It
  may do so where the first walk was cut short, and where the
  first refresh, which walked from an old cached start, has
  found nothing and cleared the cache.

  Main declarations:
    * `Refreshed.Quiet`
    * `Scheduler.refresh_quiet_iff`
    * `Generator.Revisits`
    * `Generator.Revisits.of_startsAt`
    * `Generator.exists_start_again`
    * `Generator.series_again_of_uncut`
    * `Scheduler.nothing_before_of_uncut`
    * `Scheduler.quiet_again_iff`
-/

namespace EventSeries

------------------------------------------------------------
-- Quiet Refreshes
------------------------------------------------------------

/-
  A refresh of an event that returns its cached start, reports
  no change, and leaves the event and the store as they were.
-/
def Refreshed.Quiet
    {σ : Type}
    (done : Refreshed σ)
    (e : Event)
    (store : σ) : Prop :=
  (∃ os, done.outcome = .ok ⟨e.nextStart, false, os⟩) ∧
    done.event = e ∧ done.store = store

/- A refresh is quiet if its series gives the cached start. -/
theorem Scheduler.refresh_quiet_iff
    {σ : Type}
    [StartStore σ]
    {s : Scheduler}
    {e : Event}
    {records : List ExceptionRecord}
    {windows : List HolidayWindow}
    {maxOccurrences : Nat}
    {horizonEnd : Option Instant}
    {store : σ} :
    (s.refresh e records windows maxOccurrences horizonEnd
        store).Quiet e store ↔
      ∃ horizon os,
        s.horizonOr horizonEnd = .ok horizon ∧
        s.series e records windows
          (refreshOptions maxOccurrences horizon) = .ok os ∧
        e.upcomingStart? s.now os = e.nextStart := by
  constructor
  · rintro ⟨⟨os, hDone⟩, _⟩
    rcases refresh_of_ok hDone with
      ⟨horizon, hHorizon, hSeries, hNext, _⟩
    exact ⟨horizon, os, hHorizon, hSeries, hNext.symm⟩
  · rintro ⟨horizon, os, hHorizon, hSeries, hNext⟩
    unfold series at hSeries
    simp [Refreshed.Quiet, refresh, hHorizon, hSeries,
      applyRefresh, hNext]

------------------------------------------------------------
-- Series From The Start That Was Found
------------------------------------------------------------

/- Another cache changes no start of an occurrence. -/
theorem Event.start_of_occurrenceOn_withCache
    {e : Event}
    {cached : Option Instant}
    {record : Option ExceptionRecord}
    {windows : List HolidayWindow}
    {date : Instant}
    {found other : Option Occurrence}
    (hFound : e.occurrenceOn record windows date = .ok found)
    (hOther :
      (e.withCache cached).occurrenceOn record windows date =
        .ok other) :
    found.map (·.start) = other.map (·.start) := by
  cases record with
  | some r =>
      cases hFound
      cases hOther
      rfl
  | none =>
      rw [occurrenceOn, withCache_audience] at hOther
      rw [occurrenceOn] at hFound
      split at hFound
      · rename_i hHidden
        rw [if_pos hHidden] at hOther
        cases hFound
        cases hOther
        rfl
      · rename_i hShown
        rw [if_neg hShown] at hOther
        cases hAt : e.occurrenceAt date with
        | error range =>
            rw [hAt] at hFound
            cases hFound
        | ok o =>
            cases hOtherAt :
                (e.withCache cached).occurrenceAt date with
            | error range =>
                rw [hOtherAt] at hOther
                cases hOther
            | ok x =>
                rw [hAt] at hFound
                rw [hOtherAt] at hOther
                cases hFound
                cases hOther
                rw [Option.map_some, Option.map_some,
                  (occurrenceAt_start hAt).1,
                  (occurrenceAt_start hOtherAt).1]

/-
  The walk of a series that has shown a start came to the date
  at which a walk from this start begins, with the time of day
  of that date, and has shown the start there or later.
-/
structure Generator.Revisits
    (g : Generator)
    (e : Event)
    (records : List ExceptionRecord)
    (windows : List HolidayWindow)
    (o : SeriesOptions)
    (os : List Occurrence)
    (cached : Instant) : Prop where
  shown :
    ∃ x ∈ os, x.start = cached ∧
      (ExceptionIndex.ofList e.id records).anchorFor cached ≤
        x.slot
  reached :
    ∀ anchor time,
      anchor? e (.ofList e.id records) = some anchor →
      g.timeOfDay e anchor = .ok time →
        let again :=
          (ExceptionIndex.ofList e.id records).anchorFor cached
        again ∈
          (g.plan e (.ofList e.id records) windows o
            time).reached (g.maxAttempts o) anchor ∧
        g.timeOfDay e again = .ok time

namespace Generator

variable {g : Generator}
variable {e : Event}
variable {records : List ExceptionRecord}
variable {windows : List HolidayWindow}
variable {o : SeriesOptions}

/- An event with a start of its own has one time of day. -/
theorem Revisits.of_startsAt
    {os : List Occurrence}
    {start cached : Instant}
    {time : ClockTime}
    (hRecurring : e.isRecurring = true)
    (hStart : e.startsAt = some start)
    (hTime : g.timeOfDay e start = .ok time) :
    let index := ExceptionIndex.ofList e.id records
    let first := index.walkStart start e.nextStart
    let again := index.anchorFor cached
    (∃ x ∈ os, x.start = cached ∧ again ≤ x.slot) →
    again ∈
      (g.plan e index windows o time).reached (g.maxAttempts o)
        first →
      g.Revisits e records windows o os cached := by
  intro index first again hShown hReached
  have hAnchor : anchor? e index = some first :=
    anchor?_withCache hRecurring hStart index e.nextStart
  have hSame (date : Instant) : g.timeOfDay e date = .ok time :=
    (timeOfDay_of_startsAt hStart e.nextStart date).trans hTime
  refine ⟨hShown, ?_⟩
  intro other otherTime hOther hOtherTime
  rw [hAnchor, Option.some.injEq] at hOther
  subst hOther
  rw [hSame first, Except.ok.injEq] at hOtherTime
  subst hOtherTime
  exact ⟨hReached, hSame again⟩

/- With another cache the dates have the same starts. -/
theorem sameStarts_withCache
    (hPast : o.includePast = true)
    (index : ExceptionIndex)
    (time : ClockTime)
    (cached : Option Instant) :
    (g.plan e index windows o time).SameStarts
      (g.plan (e.withCache cached) index windows o time) where
  reached := rfl
  wanted := rfl
  attempts := rfl
  past := hPast
  otherPast := hPast
  start := by
    rintro date ⟨found, hEntry⟩ ⟨other, hOther⟩
    rw [WalkPlan.kept?_of_includePast hPast,
      WalkPlan.kept?_of_includePast hPast,
      WalkPlan.occurrence?_of_entry hEntry,
      WalkPlan.occurrence?_of_entry hOther]
    exact Event.start_of_occurrenceOn_withCache hEntry hOther

section

variable {cached : Instant}
variable {os again : List Occurrence}

variable (hRecurring : e.isRecurring = true)
variable (hOs : g.series e records windows o = .ok os)

include hRecurring hOs

/-
  The walk of the second series goes over the rest of the
  dates of the first one, and so it shows the cached start.
-/
theorem exists_start_of_revisits
    (hPast : o.includePast = true)
    (hManual : (e.manualDates g.zone).value = .ok [])
    (hWanted : 0 < o.maxOccurrences)
    (hAgain :
      g.series (e.withCache (some cached)) records windows o =
        .ok again)
    (hRevisits : g.Revisits e records windows o os cached) :
    ∃ y ∈ again, y.start = cached := by
  rcases hRevisits.shown with ⟨x, hMember, hStart, hLe⟩
  cases hAnchor : anchor? e (.ofList e.id records) with
  | none =>
      rw [series_of_no_anchor hManual hAnchor,
        Except.ok.injEq] at hOs
      subst hOs
      cases hMember
  | some anchor =>
      rcases
          exists_walk_of_series hRecurring hManual hAnchor
            hWanted hOs with
        ⟨time, hTime, hWalk⟩
      rcases hRevisits.reached anchor time hAnchor hTime with
        ⟨hReached, hSameTime⟩
      rw [series_eq_walk (e := e.withCache (some cached))
        hRecurring hManual (anchor?_of_cached hRecurring _)
        hWanted hSameTime] at hAgain
      rcases
          WalkPlan.exists_mem_walk_of_reached
            (sameStarts_withCache hPast _ time (some cached))
            hWanted hWalk hAgain hReached hMember hLe with
        ⟨y, hShown, hSame⟩
      exact ⟨y, hShown, hSame.trans hStart⟩

/- Any series from the cached start shows that start again. -/
theorem exists_start_again
    (hPast : o.includePast = true)
    (hAgain :
      g.series (e.withCache (some cached)) records windows o =
        .ok again)
    (hShown : ∃ x ∈ os, x.start = cached)
    (hRevisits :
      (e.manualDates g.zone).value = .ok [] →
        g.Revisits e records windows o os cached) :
    ∃ y ∈ again, y.start = cached := by
  by_cases hNone : o.maxOccurrences = 0
  · rw [series_of_none_wanted hNone, Except.ok.injEq] at hOs
    subst hOs
    simp at hShown
  · have hWanted : 0 < o.maxOccurrences := by omega
    cases hManual : (e.manualDates g.zone).value with
    | error range =>
        simp [series, tracedSeries, hNone, hManual] at hOs
    | ok dates =>
        cases dates with
        | nil =>
            exact exists_start_of_revisits hRecurring hOs hPast
              hManual hWanted hAgain (hRevisits hManual)
        | cons first rest =>
            have hStarts := starts_of_manual hManual hWanted hOs
            have hStartsAgain :=
              starts_of_manual (e := e.withCache (some cached))
                hManual hWanted hAgain
            apply List.mem_map.mp
            rw [hStartsAgain, ← hStarts]
            exact List.mem_map.mpr hShown

/-
  If the first walk is not cut short, the series from the
  cached start has nothing that was not there before.
-/
theorem series_again_of_uncut
    {start : Instant}
    {time : ClockTime}
    (hManual : (e.manualDates g.zone).value = .ok [])
    (hStart : e.startsAt = some start)
    (hTime : g.timeOfDay e start = .ok time)
    (hWanted : 0 < o.maxOccurrences) :
    let index := ExceptionIndex.ofList e.id records
    let p := g.plan e index windows o time
    let first := index.walkStart start e.nextStart
    (p.walk first).stop ≠ .filled →
    (p.walk first).stop ≠ .attemptsExhausted →
    index.anchorFor cached ∈ p.reached p.maxAttempts first →
      ∃ again,
        g.series (e.withCache (some cached)) records windows
          o = .ok again ∧
        ∀ x ∈ again, x ∈ os := by
  intro index p first hFilled hAttempts hReached
  rw [series_of_timeOfDay hRecurring hManual hStart hWanted
    hTime] at hOs
  rw [series_withCache hRecurring hManual hStart hWanted hTime]
  exact WalkPlan.exists_walk_of_uncut (p := p) hWanted hOs
    hFilled hAttempts hReached

end

end Generator

------------------------------------------------------------
-- The Second Refresh
------------------------------------------------------------

/- No start comes before the earliest upcoming one. -/
theorem exists_le_of_earliestUpcoming?
    {now : Instant}
    {next : Option Instant}
    {os : List Occurrence}
    {o : Occurrence}
    (hNext : earliestUpcoming? now os = next)
    (hMember : o ∈ os)
    (hUpcoming : now ≤ o.start) :
    ∃ t, next = some t ∧ t ≤ o.start := by
  cases next with
  | none =>
      have hPast :=
        earliestUpcoming?_eq_none_iff.mp hNext o hMember
      grind
  | some t =>
      exact ⟨t, rfl,
        (earliestUpcoming?_eq_some_iff.mp hNext).2.2 o hMember
          hUpcoming⟩

namespace Scheduler

section

variable {σ : Type}
variable [StartStore σ]
variable {s : Scheduler}
variable {e : Event}
variable {records : List ExceptionRecord}
variable {windows : List HolidayWindow}
variable {maxOccurrences : Nat}
variable {horizonEnd : Option Instant}
variable {horizon : Instant}
variable {store : σ}
variable {out : RefreshOutcome}
variable {os : List Occurrence}

variable (hDone :
  (s.refresh e records windows maxOccurrences horizonEnd
    store).outcome = .ok out)
variable (hHorizon : s.horizonOr horizonEnd = .ok horizon)
variable (hSeries :
  s.series (e.withCache out.nextStart) records windows
    (refreshOptions maxOccurrences horizon) = .ok os)

include hDone hHorizon hSeries

/-
  With nothing upcoming before it the cached start is the one
  that the second series gives.
-/
theorem upcomingStart?_again
    (hRevisits :
      ∀ cached, out.nextStart = some cached →
        e.isRecurring = true →
        (e.manualDates s.zone).value = .ok [] →
          s.generator.Revisits e records windows
            (refreshOptions maxOccurrences horizon)
            out.occurrences cached)
    (hNotBefore :
      e.isRecurring = true →
        ∀ o ∈ os, s.now ≤ o.start →
          ∃ cached, out.nextStart = some cached ∧
            cached ≤ o.start) :
    (e.withCache out.nextStart).upcomingStart? s.now os =
      out.nextStart := by
  rcases refresh_of_ok hDone with
    ⟨other, hOther, hFirst, hNext, _⟩
  rw [hHorizon, Except.ok.injEq] at hOther
  subst hOther
  rw [Event.upcomingStart?] at hNext ⊢
  rw [Event.withCache_isRecurring]
  by_cases hRecurring : e.isRecurring = true
  · rw [if_pos hRecurring] at hNext ⊢
    cases hCached : out.nextStart with
    | none =>
        apply earliestUpcoming?_eq_none_iff.mpr
        intro o hMember
        have hBefore := hNotBefore hRecurring o hMember
        rw [hCached] at hBefore
        grind
    | some cached =>
        rw [hCached] at hNext hSeries
        rcases earliestUpcoming?_eq_some_iff.mp hNext.symm with
          ⟨hShown, hNow, _⟩
        apply earliestUpcoming?_eq_some_iff.mpr
        refine ⟨?_, hNow, ?_⟩
        · exact Generator.exists_start_again
            (g := s.generator) hRecurring hFirst rfl hSeries
            hShown (hRevisits cached hCached hRecurring)
        · intro o hMember hUpcoming
          rcases hNotBefore hRecurring o hMember hUpcoming with
            ⟨t, hSame, hLe⟩
          rw [hCached, Option.some.injEq] at hSame
          subst hSame
          exact hLe
  · rw [if_neg hRecurring] at hNext ⊢
    exact hNext.symm

omit hSeries in
/-
  Where the first walk is not cut short, and comes to the date
  at which the second begins, nothing upcoming is found before
  the cached start.
-/
theorem nothing_before_of_uncut
    {start cached : Instant}
    {time : ClockTime}
    (hRecurring : e.isRecurring = true)
    (hManual : (e.manualDates s.zone).value = .ok [])
    (hStart : e.startsAt = some start)
    (hTime : s.generator.timeOfDay e start = .ok time)
    (hWanted : 0 < maxOccurrences)
    (hCached : out.nextStart = some cached) :
    let index := ExceptionIndex.ofList e.id records
    let p := s.generator.plan e index windows
      (refreshOptions maxOccurrences horizon) time
    let first := index.walkStart start e.nextStart
    let done := s.refresh e records windows maxOccurrences
      horizonEnd store
    (p.walk first).stop ≠ .filled →
    (p.walk first).stop ≠ .attemptsExhausted →
    index.anchorFor cached ∈ p.reached p.maxAttempts first →
      ∃ horizon os,
        s.horizonOr horizonEnd = .ok horizon ∧
        s.series done.event records windows
          (refreshOptions maxOccurrences horizon) = .ok os ∧
        (e.isRecurring = true →
          ∀ o ∈ os, s.now ≤ o.start →
            ∃ cached, out.nextStart = some cached ∧
              cached ≤ o.start) := by
  intro index p first done hFilled hAttempts hReached
  rcases refresh_of_ok hDone with
    ⟨other, hOther, hFirst, hNext, hEvent⟩
  change done.event = _ at hEvent
  rw [hHorizon, Except.ok.injEq] at hOther
  subst hOther
  rw [Event.upcomingStart?, if_pos hRecurring] at hNext
  rcases
      Generator.series_again_of_uncut (g := s.generator)
        hRecurring hFirst hManual hStart hTime hWanted hFilled
        hAttempts hReached with
    ⟨os, hSeries, hOld⟩
  rw [← hCached, ← hEvent] at hSeries
  refine ⟨horizon, os, hHorizon, hSeries, ?_⟩
  intro _ o hMember hUpcoming
  exact exists_le_of_earliestUpcoming? hNext.symm
    (hOld o hMember) hUpcoming

end

/-
  After a refresh a second one at the same moment is quiet
  exactly if the refreshed event has a series in the calendar
  with nothing upcoming in it before the start that the first
  one cached, or nothing at all where it cached none.  For
  events that are walked the first walk must have come to the
  date at which the second begins.
-/
theorem quiet_again_iff
    {σ : Type}
    [StartStore σ]
    {s : Scheduler}
    {e : Event}
    {records : List ExceptionRecord}
    {windows : List HolidayWindow}
    {maxOccurrences : Nat}
    {horizonEnd : Option Instant}
    {store : σ}
    {out : RefreshOutcome}
    (hDone :
      (s.refresh e records windows maxOccurrences horizonEnd
        store).outcome = .ok out)
    (hRevisits :
      ∀ horizon cached, s.horizonOr horizonEnd = .ok horizon →
        out.nextStart = some cached →
        e.isRecurring = true →
        (e.manualDates s.zone).value = .ok [] →
          s.generator.Revisits e records windows
            (refreshOptions maxOccurrences horizon)
            out.occurrences cached) :
    let done := s.refresh e records windows maxOccurrences
      horizonEnd store
    (s.refresh done.event records windows maxOccurrences
        horizonEnd done.store).Quiet done.event done.store ↔
      ∃ horizon os,
        s.horizonOr horizonEnd = .ok horizon ∧
        s.series done.event records windows
          (refreshOptions maxOccurrences horizon) = .ok os ∧
        (e.isRecurring = true →
          ∀ o ∈ os, s.now ≤ o.start →
            ∃ cached, out.nextStart = some cached ∧
              cached ≤ o.start) := by
  intro done
  rcases refresh_of_ok hDone with
    ⟨_, _, _, _, hEvent⟩
  change done.event = _ at hEvent
  rw [refresh_quiet_iff, hEvent]
  constructor
  · rintro ⟨horizon, os, hHorizon, hOs, hAgain⟩
    refine ⟨horizon, os, hHorizon, hOs, ?_⟩
    intro hRecurring o hMember hUpcoming
    rw [Event.upcomingStart?, Event.withCache_isRecurring,
      if_pos hRecurring, Event.withCache_nextStart] at hAgain
    exact exists_le_of_earliestUpcoming? hAgain hMember
      hUpcoming
  · rintro ⟨horizon, os, hHorizon, hOs, hNotBefore⟩
    refine ⟨horizon, os, hHorizon, hOs, ?_⟩
    exact upcomingStart?_again hDone hHorizon hOs
      (fun cached => hRevisits horizon cached hHorizon)
      hNotBefore

/- The second jazz night is put off by a day. -/
def putOffNight : List ExceptionRecord :=
  [movedNight 1 (nightTime 1 24)]

/- The walk of a refresh two days after the first night. -/
def putOffPlan : WalkPlan :=
  (Scheduler.inZone .utc (nightTime 0 52)).generator.plan
    jazzNight (.ofList jazzNight.id putOffNight) []
    (refreshOptions 10 (nightTime 4 4)) nightClock

/- It ends at the horizon, and is not cut short. -/
theorem putOffPlan_uncut :
    let stop := (putOffPlan.walk (nightTime 0 0)).stop
    stop ≠ .filled ∧ stop ≠ .attemptsExhausted := by
  have hStop :
      (putOffPlan.walk (nightTime 0 0)).stop = .horizon := by
    cbv
  simp [hStop]

/- It comes to the date of the second night. -/
theorem putOffPlan_reached :
    nightTime 1 0 ∈
      putOffPlan.reached putOffPlan.maxAttempts
        (nightTime 0 0) := by
  have hDates :
      putOffPlan.reached 60 (nightTime 0 0) =
        nightTime 0 0 ::
          putOffPlan.reached 59 (nightTime 1 0) :=
    WalkPlan.reached_of_next (by cbv) jazzNight_dateAfter?_zero
  have hHere : putOffPlan.reaches (nightTime 1 0) = true := by
    cbv
  rcases WalkPlan.exists_reached_eq_cons 58 hHere with
    ⟨rest, hRest⟩
  change nightTime 1 0 ∈ putOffPlan.reached 60 (nightTime 0 0)
  rw [hDates, hRest]
  exact List.mem_cons_of_mem _ List.mem_cons_self

/- A walk from the start that is cached begins on that date. -/
theorem anchorFor_putOffNight :
    (ExceptionIndex.ofList jazzNight.id putOffNight).anchorFor
      (nightTime 1 24) = nightTime 1 0 := by
  cbv

/- The refresh finds the second night on the day after it. -/
theorem refresh_putOffNight :
    ∃ out,
      ((Scheduler.inZone .utc (nightTime 0 52)).refresh jazzNight
        putOffNight [] 10 (some (nightTime 4 4))
        ({} : MemoryStore)).outcome = .ok out ∧
      out.nextStart = some (nightTime 1 24) ∧
      ∃ x ∈ out.occurrences,
        x.start = nightTime 1 24 ∧ nightTime 1 0 ≤ x.slot := by
  have hFound :
      ((Scheduler.inZone .utc (nightTime 0 52)).refresh jazzNight
        putOffNight [] 10 (some (nightTime 4 4))
        ({} : MemoryStore)).outcome.map
          (fun out => (out.nextStart,
            decide (∃ x ∈ out.occurrences,
              x.start = nightTime 1 24 ∧
                nightTime 1 0 ≤ x.slot))) =
        .ok (some (nightTime 1 24), true) := by
    cbv
  rcases exists_ok_of_map hFound with ⟨out, hDone, hOut⟩
  rw [Prod.mk.injEq, decide_eq_true_eq] at hOut
  exact ⟨out, hDone, hOut⟩

/-
  The second jazz night is put off by a day, and the second
  refresh, which walks from the night itself, changes nothing.
-/
theorem quiet_again_jazzNight :
    let s := Scheduler.inZone .utc (nightTime 0 52)
    let records := [movedNight 1 (nightTime 1 24)]
    let horizon := nightTime 4 4
    ∃ done,
      s.refresh jazzNight records [] 10 (some horizon)
        ({} : MemoryStore) = done ∧
      done.outcome.map (·.nextStart) =
        .ok (some (nightTime 1 24)) ∧
      (s.refresh done.event records [] 10 (some horizon)
        done.store).Quiet done.event done.store := by
  intro s records horizon
  rcases refresh_putOffNight with ⟨out, hDone, hNext, hShown⟩
  have hReached := putOffPlan_reached
  rw [← anchorFor_putOffNight] at hShown hReached
  have hHorizon : s.horizonOr (some horizon) = .ok horizon := rfl
  have hTime := jazzNight_timeOfDay s.now 6
  have hRevisits :
      ∀ other cached, s.horizonOr (some horizon) = .ok other →
        out.nextStart = some cached →
        jazzNight.isRecurring = true →
        (jazzNight.manualDates s.zone).value = .ok [] →
          s.generator.Revisits jazzNight records []
            (refreshOptions 10 other) out.occurrences cached := by
    intro other cached hOther hCached _ _
    cases hOther
    rw [hNext, Option.some.injEq] at hCached
    subst hCached
    exact .of_startsAt rfl rfl hTime hShown hReached
  have hNotBefore :=
    nothing_before_of_uncut hDone hHorizon rfl
      (Event.manualDates_of_nil rfl .utc) rfl hTime (by decide)
      hNext putOffPlan_uncut.1 putOffPlan_uncut.2 hReached
  refine ⟨_, rfl, ?_,
    (quiet_again_iff hDone hRevisits).mpr hNotBefore⟩
  exact (congrArg _ hDone).trans (congrArg Except.ok hNext)

/-
  The cached start lies behind the horizon.  The first refresh
  finds nothing from there and clears it, and the second finds
  the second jazz night from the start of the event.
-/
theorem cleared_jazzNight_again :
    let s := Scheduler.inZone .utc (nightTime 0 52)
    let e := jazzNight.withCache (some (nightTime 9 0))
    let horizon := nightTime 4 4
    let done := s.refresh e [] [] 10 (some horizon)
      ({} : MemoryStore)
    let again := s.refresh done.event [] [] 10 (some horizon)
      done.store
    done.outcome = .ok ⟨none, true, []⟩ ∧
    done.store.writes = 1 ∧
    again.outcome.map (fun out => (out.nextStart, out.changed)) =
      .ok (some (nightTime 1 0), true) ∧
    again.store.writes = 2 := by
  refine ⟨?_, ?_, ?_, ?_⟩
  · cbv
  · cbv
  · cbv
  · cbv

end Scheduler

end EventSeries
