import EventSeries.Proofs.Session.Grounded

/-
  Which occurrences by the rule a session returns at any point
  of a run.  They never start on a recorded date, and they
  start on dates of the series as long as the cached start is
  grounded.  Otherwise they may also start on the dates that
  stray from the series.

  Main declarations:
    * `Session.Returns`
    * `Session.Strays`
    * `Session.Follows.strays_of_returns`
    * `Session.Follows.returns_of_strays`
    * `Session.open_dates_of_run`
-/

namespace EventSeries

namespace Session

------------------------------------------------------------
-- Returned Lists
------------------------------------------------------------

/-
  The lists that listings and refreshes of a session return at
  a present, with any windows and any options.
-/
inductive Returns
    (s : Session)
    (now : Instant) : List Occurrence → Prop where
  | series
      {windows : List HolidayWindow}
      {o : SeriesOptions}
      {os : List Occurrence} :
      ({ s.movedTo now with windows := windows }).series o =
        .ok os →
      Returns s now os
  | refresh
      {windows : List HolidayWindow}
      {maxOccurrences : Option Nat}
      {horizonEnd : Option Instant}
      {out : RefreshOutcome} :
      (({ s.movedTo now with windows := windows }).refresh
        maxOccurrences horizonEnd).1 = .ok out →
      Returns s now out.occurrences

variable {s₀ s : Session}
variable {now : Instant}

/- Either way it is a series of the event that is returned. -/
theorem Returns.exists_series
    {os : List Occurrence}
    (hReturns : s.Returns now os) :
    ∃ windows o,
      (s.scheduler.movedTo now).series s.event s.records windows
        o = .ok os := by
  cases hReturns with
  | series hOs => exact ⟨_, _, hOs⟩
  | refresh hDone =>
      rcases Scheduler.refresh_of_ok hDone with ⟨_, _, hSeries, _⟩
      exact ⟨_, _, hSeries⟩

/- Occurrences by the rule start on dates without a record. -/
theorem IsSeries.open_of_returns
    (hSeries : s.IsSeries)
    {os : List Occurrence}
    {o : Occurrence}
    (hReturns : s.Returns now os)
    (hMember : o ∈ os)
    (hPlain : o.isOverride = false) :
    ¬ s.HasRecord o.start ∧
    ∃ first, s.LeadsTo first o.start ∧
      (s.event.HasDate s.scheduler.zone first ∨
        ∃ cached, s.event.nextStart = some cached ∧
          first = (ExceptionIndex.ofList s.event.id
            s.records).anchorFor cached) := by
  rcases hReturns.exists_series with ⟨windows, options, hOs⟩
  rcases hSeries.exists_source hOs hMember with
    ⟨p, first, date, hIndex, hFound, hLeads, hFirst⟩
  rcases WalkPlan.occurrence?_cases hFound with
    ⟨_, rfl, hRecord⟩ | ⟨hOverride, _⟩
  · rw [hIndex] at hRecord
    exact ⟨record?_eq_none_iff.mp hRecord, first, hLeads, hFirst⟩
  · rw [hPlain] at hOverride
    cases hOverride

------------------------------------------------------------
-- Stray Dates
------------------------------------------------------------

/-
  A date off the series and without a record, to which a
  cached start leads that is not grounded.
-/
structure Strays
    (s : Session)
    (date : Instant) : Prop where
  ungrounded : ¬ s.Grounded
  cached :
    ∃ cached, s.event.nextStart = some cached ∧
      s.LeadsTo cached date
  off : ¬ s.event.HasDate s.scheduler.zone date
  unrecorded : ¬ s.HasRecord date

/-
  From the cached start up to a date, neither the times of the
  event nor the steps of its rule leave the calendar.
-/
def InCalendar
    (s : Session)
    (date : Instant) : Prop :=
  ∀ cached start here, s.event.nextStart = some cached →
    s.event.startsAt = some start →
      s.scheduler.zone.toLocal start = .ok here →
        ∀ d, DateFrom
            (s.event.dateAfter? s.scheduler.zone here.time)
            cached d →
          d ≤ date →
            (∃ o, s.event.occurrenceAt d = .ok o) ∧
            ∃ next, s.event.recurrence.nextAfter
              s.scheduler.zone here.time d = .ok next

/- Whatever is returned off the series is a stray date. -/
theorem Follows.strays_of_returns
    (hFollows : Follows s₀ s)
    (hSeries : s.IsSeries)
    {os : List Occurrence}
    {o : Occurrence}
    (hReturns : s.Returns now os)
    (hMember : o ∈ os)
    (hPlain : o.isOverride = false)
    (hOff : ¬ s.event.HasDate s.scheduler.zone o.start) :
    s.Strays o.start := by
  rcases hSeries.open_of_returns hReturns hMember hPlain with
    ⟨hRecord, first, hLeads, hFirst⟩
  rcases hFirst with hDate | ⟨cached, hCached, rfl⟩
  · exact absurd (hLeads.hasDate hDate) hOff
  · have hLost :
        ¬ s.event.HasDate s.scheduler.zone
          ((ExceptionIndex.ofList s.event.id
            s.records).anchorFor cached) := by
      intro hDate
      exact hOff (hLeads.hasDate hDate)
    rw [hFollows.anchorFor_of_not_hasDate hLost] at hLeads
    refine ⟨?_, ⟨cached, hCached, hLeads⟩, hOff, hRecord⟩
    intro hGrounded
    exact hLost (hFollows.hasDate_anchorFor_iff.mpr
      (hGrounded cached hCached))

/- A walk begins with a cached start that is not grounded. -/
theorem Follows.anchorFor_of_not_grounded
    (hFollows : Follows s₀ s)
    {cached : Instant}
    (hCached : s.event.nextStart = some cached)
    (hUngrounded : ¬ s.Grounded) :
    (ExceptionIndex.ofList s.event.id s.records).anchorFor
      cached = cached := by
  apply hFollows.anchorFor_of_not_hasDate
  intro hDate
  apply hUngrounded
  intro other hOther
  rw [hCached, Option.some.injEq] at hOther
  subst hOther
  exact hFollows.hasDate_anchorFor_iff.mp hDate

/- No override is in force on the way to a date off the series. -/
theorem Follows.unreplaced_of_not_hasDate
    (hFollows : Follows s₀ s)
    {start date d : Instant}
    {here : LocalTime}
    {r : ExceptionRecord}
    (hStart : s.event.startsAt = some start)
    (hHere : s.scheduler.zone.toLocal start = .ok here)
    (hOff : ¬ s.event.HasDate s.scheduler.zone date)
    (hTo :
      DateFrom (s.event.dateAfter? s.scheduler.zone here.time) d
        date)
    (hRecord :
      (ExceptionIndex.ofList s.event.id s.records).record? d =
        some r) :
    r.activeOverride? = none := by
  cases hActive : r.activeOverride? with
  | none => rfl
  | some replacement =>
      exfalso
      rcases ExceptionIndex.mem_of_record?_ofList hRecord with
        ⟨hMember, _, rfl⟩
      have hDate :
          s.event.HasDate s.scheduler.zone r.occurrenceStart :=
        hFollows.hasDate_iff.mpr
          (hFollows.replaced r hMember
            (ExceptionRecord.kind_of_activeOverride? hActive))
      exact hOff (hDate.trans hStart hHere hTo)

/- A stray date is returned, if the calendar goes so far. -/
theorem Follows.returns_of_strays
    (hFollows : Follows s₀ s)
    (hSeries : s.IsSeries)
    {date : Instant}
    (hStrays : s.Strays date)
    (hCalendar : s.InCalendar date) :
    ∃ os, s.Returns s.scheduler.now os ∧
      ∃ o ∈ os, o.isOverride = false ∧ o.start = date := by
  rcases hStrays.cached with
    ⟨cached, hCached, start, here, hStart, hHere, hMember⟩
  let g := s.scheduler.generator
  let options : SeriesOptions := ⟨largestWord, true, some date⟩
  let p := g.plan s.event (.ofList s.event.id s.records) []
    options here.time
  have hTime : g.timeOfDay s.event start = .ok here.time :=
    (Generator.timeOfDay_eq_ok_iff hStart).mpr ⟨here, hHere, rfl⟩
  have hAttempts : p.maxAttempts = largestWord := by
    have hPositive :
        0 < max s.scheduler.settings.attemptsPerOccurrence 1 := by
      omega
    exact Nat.min_eq_right (Nat.le_mul_of_pos_right _ hPositive)
  have hBegins :
      (ExceptionIndex.ofList s.event.id s.records).walkStart
        start s.event.nextStart = cached := by
    rw [hCached]
    exact hFollows.anchorFor_of_not_grounded hCached
      hStrays.ungrounded
  have hUnreplaced :
      ∀ d r, DateFrom p.later? d date →
        p.index.record? d = some r →
          r.activeOverride? = none := by
    intro d r hTo hRecord
    exact hFollows.unreplaced_of_not_hasDate hStart hHere
      hStrays.off hTo hRecord
  have hReached :
      date ∈ datesFrom p.later? p.maxAttempts cached := by
    rw [hAttempts]
    exact hMember
  have hRecord : p.index.record? date = none :=
    record?_eq_none_iff.mpr hStrays.unrecorded
  have hPath := hCalendar cached start here hCached hStart hHere
  rcases
      WalkPlan.exists_mem_walk_of_horizon
        (Nat.le_of_eq hAttempts) rfl rfl rfl hUnreplaced hReached
        hRecord (fun d hFrom hLe => (hPath d hFrom hLe).1)
        (fun d hFrom hLe => (hPath d hFrom hLe).2) with
    ⟨os, hWalk, hShown⟩
  have hWanted : 0 < options.maxOccurrences := by
    change 0 < largestWord
    decide
  have hOs :
      g.series (s.event.withCache s.event.nextStart) s.records []
        options = .ok os := by
    rw [Generator.series_withCache hSeries.recurring
      hSeries.manual hStart hWanted hTime, hBegins]
    exact hWalk
  have hReturns :
      ({ s.movedTo s.scheduler.now with windows := [] }).series
        options = .ok os :=
    hOs
  exact ⟨os, .series hReturns, hShown⟩

/-
  At every point of a run, no occurrence by the rule that the
  session returns starts on a recorded date, and all of them
  start on dates of the series if the cached start is
  grounded.  The dates off the series that it returns are
  exactly the stray ones, as far as the calendar goes.
-/
theorem open_dates_of_run
    (hFresh : s₀.Fresh)
    (hRun : Relation.ReflTransGen Step s₀ s) :
    (∀ now os, s.Returns now os →
      ∀ o ∈ os, o.isOverride = false →
        ¬ s.HasRecord o.start ∧
        (s.Grounded →
          s.event.HasDate s.scheduler.zone o.start)) ∧
    ∀ date, s.InCalendar date →
      ((¬ s.event.HasDate s.scheduler.zone date ∧
        ∃ os, s.Returns s.scheduler.now os ∧
          ∃ o ∈ os, o.isOverride = false ∧ o.start = date) ↔
      s.Strays date) := by
  have hFollows := follows_of_run hFresh hRun
  have hSeries := hFollows.isSeries hFresh.toIsSeries
  refine ⟨?_, ?_⟩
  · intro now os hReturns o hMember hPlain
    refine ⟨?_, ?_⟩
    · exact (hSeries.open_of_returns hReturns hMember hPlain).1
    · intro hGrounded
      by_contra hOff
      have hStrays :=
        hFollows.strays_of_returns hSeries hReturns hMember
          hPlain hOff
      exact hStrays.ungrounded hGrounded
  · intro date hCalendar
    constructor
    · rintro ⟨hOff, os, hReturns, o, hMember, hPlain, rfl⟩
      exact hFollows.strays_of_returns hSeries hReturns hMember
        hPlain hOff
    · intro hStrays
      exact ⟨hStrays.off,
        hFollows.returns_of_strays hSeries hStrays hCalendar⟩

------------------------------------------------------------
-- A Moved Night
------------------------------------------------------------

/- A session on the jazz nights, before the first of them. -/
def jazzSession : Session where
  scheduler := .inZone .utc (nightTime 0 0)
  event := jazzNight
  ids := ⟨fun _ => ⟨3⟩, 0⟩

theorem fresh_of_jazzSession : jazzSession.Fresh where
  recurring := rfl
  manual := Event.manualDates_of_nil rfl .utc
  starts := ⟨_, rfl⟩
  uncached := rfl
  unrecorded := rfl

/- The session with the second night moved by an override. -/
def jazzSessionMoved
    (clone : Event)
    (slugs : SlugSet) : Session :=
  { jazzSession with
    slugs := slugs
    records :=
      [.replacing jazzNight.id (nightTime 1 0)
        { clone with startsAt := some (nightTime 1 22) }] }

/-
  The second night is moved to the next day, and the event is
  refreshed between the two starts.
-/
theorem growth_of_jazzSession :
    ∃ (s : Session) (clone : Event),
      Relation.ReflTransGen Grows jazzSession s ∧
      s.scheduler = .inZone .utc (nightTime 1 1) ∧
      s.event = jazzNight.withCache (some (nightTime 1 22)) ∧
      s.records =
        [.replacing jazzNight.id (nightTime 1 0)
          { clone with startsAt := some (nightTime 1 22) }] := by
  have hClone :
      (jazzSession.clone ⟨2⟩ (nightTime 1 0)).map (fun _ => ()) =
        .ok () := by
    cbv
  rcases exists_ok_of_map hClone with ⟨⟨clone, s⟩, hClone, _⟩
  have hDate : jazzNight.HasDate .utc (nightTime 1 0) :=
    jazzNight_hasDate_iff.mpr
      (.next .first jazzNight_dateAfter?_zero)
  have hAttach :
      Grows jazzSession (jazzSessionMoved clone s.slugs) := by
    have hAttached :
        s.attach (nightTime 1 0)
            { clone with startsAt := some (nightTime 1 22) } =
          jazzSessionMoved clone s.slugs := by
      rw [slugs_of_clone hClone]
      rfl
    rw [← hAttached]
    exact .attach hDate hClone
  generalize s.slugs = slugs at hAttach
  have hNow : nightTime 0 0 ≤ nightTime 1 1 := by decide
  have hRefresh :
      Grows (jazzSessionMoved clone slugs)
        (({ (jazzSessionMoved clone slugs).movedTo
            (nightTime 1 1) with windows := [] }).refresh
              (some 10) (some (nightTime 4 4))).2 :=
    .refresh hNow
  refine ⟨_, clone, .tail (.single hAttach) hRefresh, rfl, ?_,
    rfl⟩
  cbv

theorem inCalendar_of_jazzSession
    {s : Session}
    (hScheduler : s.scheduler = .inZone .utc (nightTime 1 1))
    (hEvent :
      s.event = jazzNight.withCache (some (nightTime 1 22))) :
    s.InCalendar (nightTime 1 22) := by
  intro cached start here hCached hStart hHere d hFrom hLe
  rw [hEvent] at hCached hStart hFrom
  rw [hScheduler] at hHere hFrom
  rw [hEvent, hScheduler]
  have hStarts : nightTime 0 0 = start := Option.some.inj hStart
  subst hStarts
  have hBegins : nightTime 1 22 = cached :=
    Option.some.inj hCached
  subst hBegins
  have hTime :
      Generator.timeOfDay ⟨.utc, nightTime 0 0, 6⟩ jazzNight
        (nightTime 0 0) = .ok here.time :=
    (Generator.timeOfDay_eq_ok_iff rfl).mpr ⟨here, hHere, rfl⟩
  rw [jazzNight_timeOfDay, Except.ok.injEq] at hTime
  have hFirst :=
    hFrom.first_le fun _ _ hStep => Event.lt_of_dateAfter? hStep
  have hSame : nightTime 1 22 = d := Std.le_antisymm hFirst hLe
  subst hSame
  rw [← hTime]
  have hTimes :
      ((jazzNight.withCache (some (nightTime 1 22))).occurrenceAt
        (nightTime 1 22)).map (fun _ => ()) = .ok () := by
    cbv
  have hStep :
      (jazzNight.recurrence.nextAfter .utc nightClock
        (nightTime 1 22)).map (fun _ => ()) = .ok () := by
    cbv
  rcases exists_ok_of_map hTimes with ⟨o, hAt, _⟩
  rcases exists_ok_of_map hStep with ⟨next, hNext, _⟩
  exact ⟨⟨o, hAt⟩, next, hNext⟩

/-
  While the override is in force, its start may be cached and
  still every occurrence by the rule starts on a night, and
  that start is no stray date.
-/
theorem open_dates_of_jazzSession :
    ∃ s, Relation.ReflTransGen Step jazzSession s ∧
      s.event.nextStart = some (nightTime 1 22) ∧
      (∀ now os, s.Returns now os →
        ∀ o ∈ os, o.isOverride = false →
          ¬ s.HasRecord o.start ∧
            s.event.HasDate s.scheduler.zone o.start) ∧
      s.InCalendar (nightTime 1 22) ∧
      ¬ s.Strays (nightTime 1 22) := by
  rcases growth_of_jazzSession with
    ⟨s, _, hRun, hScheduler, hEvent, _⟩
  have hSteps := steps_of_growth hRun
  have hGrounded := grounded_of_growth fresh_of_jazzSession hRun
  rcases open_dates_of_run fresh_of_jazzSession hSteps with
    ⟨hOpen, hStrays⟩
  have hCalendar := inCalendar_of_jazzSession hScheduler hEvent
  refine ⟨s, hSteps, by rw [hEvent]; rfl, ?_, hCalendar, ?_⟩
  · intro now os hReturns o hMember hPlain
    rcases hOpen now os hReturns o hMember hPlain with
      ⟨hUnrecorded, hDate⟩
    exact ⟨hUnrecorded, hDate hGrounded⟩
  · intro hStray
    rcases (hStrays _ hCalendar).mpr hStray with
      ⟨hOff, os, hReturns, o, hMember, hPlain, hStart⟩
    rw [← hStart] at hOff
    exact hOff ((hOpen _ os hReturns o hMember hPlain).2
      hGrounded)

/-
  Once the override that is cached has been turned into a
  skip, its start is returned as if it were a night.
-/
theorem phantom_of_jazzSession :
    jazzSession.Fresh ∧
    ∃ s, Relation.ReflTransGen Step jazzSession s ∧
      ∃ os, s.Returns s.scheduler.now os ∧
        ∃ o ∈ os, o.isOverride = false ∧
          o.start = nightTime 1 22 ∧
            ¬ s.event.HasDate s.scheduler.zone o.start := by
  refine ⟨fresh_of_jazzSession, ?_⟩
  rcases growth_of_jazzSession with
    ⟨s, clone, hRun, hScheduler, hEvent, hRecords⟩
  let skipped : ExceptionRecord :=
    .skip jazzNight.id (nightTime 1 0)
  have hSkip :
      s.markSkipped? 0 =
        some (some { clone with startsAt := some (nightTime 1 22) },
          { s with records := [skipped] }) := by
    rw [markSkipped?, hRecords]
    rfl
  have hOs :
      ((Scheduler.inZone .utc (nightTime 1 1)).series
          (jazzNight.withCache (some (nightTime 1 22)))
            [.skip jazzNight.id (nightTime 1 0)] []
              ⟨10, false, some (nightTime 4 4)⟩).map
          (·.any fun o => !o.isOverride &&
            o.start == nightTime 1 22) = .ok true := by
    cbv
  rcases exists_ok_of_map hOs with ⟨os, hOs, hAny⟩
  rcases List.any_eq_true.mp hAny with ⟨o, hMember, hPhantom⟩
  simp only [Bool.and_eq_true, Bool.not_eq_true', beq_iff_eq]
    at hPhantom
  rcases hPhantom with ⟨hPlain, hStart⟩
  rw [← hScheduler, ← hEvent] at hOs
  have hSteps :=
    (steps_of_growth hRun).tail (.markSkipped hSkip)
  have hReturns :
      Returns { s with records := [skipped] } s.scheduler.now
        os := by
    have hSeries :
        ({ ({ s with records := [skipped] } : Session).movedTo
            s.scheduler.now with windows := [] }).series
          ⟨10, false, some (nightTime 4 4)⟩ = .ok os :=
      hOs
    exact .series hSeries
  refine ⟨_, hSteps, os, hReturns, o, hMember, hPlain, hStart,
    ?_⟩
  rw [hStart]
  change ¬ s.event.HasDate s.scheduler.zone (nightTime 1 22)
  rw [hEvent, hScheduler]
  exact jazzNight_not_hasDate

end Session

end EventSeries
