import EventSeries.Proofs.Refresh.Basic
import EventSeries.Proofs.Series.Membership
import EventSeries.Session
import Mathlib.Logic.Relation

/-
  Runs of a session: dates are skipped, overrides recorded,
  edited, turned into skips and removed, and the cached start
  is refreshed as time goes on.  On a whole run the event
  changes only in its cached start, and every record that
  replaces a date of the series is for one of its dates.

  Main declarations:
    * `Session.Grows`
    * `Session.Step`
    * `Session.Fresh`
    * `Session.Follows`
    * `Session.follows_of_run`
-/

namespace EventSeries

namespace Session

------------------------------------------------------------
-- Steps And Runs
------------------------------------------------------------

/-
  The operations that add to a session or bring its cached
  start up to date.  An override starts as a clone of the
  event for its date and may be edited in any way before it is
  attached; a refresh may use any windows.
-/
inductive Grows : Session → Session → Prop where
  | skip
      {s : Session}
      {date : Instant} :
      s.event.HasDate s.scheduler.zone date →
      Grows s (s.skip date)
  | attach
      {s s' : Session}
      {id : Id}
      {date : Instant}
      {clone replacement : Event} :
      s.event.HasDate s.scheduler.zone date →
      s.clone id date = .ok (clone, s') →
      Grows s (s'.attach date replacement)
  | refresh
      {s : Session}
      {now : Instant}
      {windows : List HolidayWindow}
      {maxOccurrences : Option Nat}
      {horizonEnd : Option Instant} :
      s.scheduler.now ≤ now →
      Grows s
        (({ s.movedTo now with windows := windows }).refresh
          maxOccurrences horizonEnd).2

/-
  All operations on a session.  A recorded override may also
  be edited in any way, turned into a skip, or removed.
-/
inductive Step : Session → Session → Prop where
  | grow
      {s s' : Session} :
      Grows s s' →
      Step s s'
  | editOverride
      {s : Session}
      {index : Nat}
      {r : ExceptionRecord}
      {old replacement : Event} :
      s.records[index]? = some r →
      r.activeOverride? = some old →
      Step s
        { s with
          records := s.records.set index
            { r with overrideEvent := some replacement } }
  | markSkipped
      {s s' : Session}
      {index : Nat}
      {event : Option Event} :
      s.markSkipped? index = some (event, s') →
      Step s s'
  | deleteOverride
      {s s' : Session}
      {index : Nat}
      {left : Option ExceptionRecord} :
      s.deleteOverride? index = some (left, s') →
      Step s s'
  | remove
      {s : Session}
      {index : Nat} :
      Step s { s with records := s.records.eraseIdx index }

/-
  A session on a recurring event with a start and without
  manual dates.
-/
structure IsSeries
    (s : Session) : Prop where
  recurring : s.event.isRecurring = true
  manual : (s.event.manualDates s.scheduler.zone).value = .ok []
  starts : ∃ start, s.event.startsAt = some start

/- Such a session without a cached start and any records. -/
structure Fresh
    (s : Session) : Prop extends IsSeries s where
  uncached : s.event.nextStart = none
  unrecorded : s.records = []

------------------------------------------------------------
-- What A Run Keeps
------------------------------------------------------------

/-
  A session that has the event of another, up to the cached
  start, and whose records replace only dates of the series.
  Only an event that has dates has a cached start.
-/
structure Follows
    (s₀ s : Session) : Prop where
  event : s.event = s₀.event.withCache s.event.nextStart
  zone : s.scheduler.zone = s₀.scheduler.zone
  replaced :
    ∀ r ∈ s.records, r.kind = .replace →
      s₀.event.HasDate s₀.scheduler.zone r.occurrenceStart
  cached :
    s.event.nextStart ≠ none →
      ∃ date, s₀.event.HasDate s₀.scheduler.zone date

variable {s₀ s s' : Session}

theorem Follows.hasDate_iff
    (hFollows : Follows s₀ s)
    {date : Instant} :
    s.event.HasDate s.scheduler.zone date ↔
      s₀.event.HasDate s₀.scheduler.zone date := by
  rw [hFollows.event, hFollows.zone]
  exact Iff.rfl

theorem Follows.isSeries
    (hFollows : Follows s₀ s)
    (hSeries : s₀.IsSeries) :
    s.IsSeries := by
  constructor
  · rw [hFollows.event]
    exact hSeries.recurring
  · rw [hFollows.event, hFollows.zone]
    exact hSeries.manual
  · rw [hFollows.event]
    exact hSeries.starts

/- Records may be changed as long as they replace dates. -/
theorem Follows.of_records
    (hFollows : Follows s₀ s)
    (hEvent : s'.event = s.event)
    (hScheduler : s'.scheduler = s.scheduler)
    (hRecords :
      ∀ r ∈ s'.records, r.kind = .replace →
        r ∈ s.records ∨
          s₀.event.HasDate s₀.scheduler.zone
            r.occurrenceStart) :
    Follows s₀ s' := by
  refine ⟨?_, ?_, ?_, ?_⟩
  · rw [hEvent]
    exact hFollows.event
  · rw [hScheduler]
    exact hFollows.zone
  · intro r hMember hKind
    rcases hRecords r hMember hKind with hOld | hDate
    · exact hFollows.replaced r hOld hKind
    · exact hDate
  · rw [hEvent]
    exact hFollows.cached

/- A skip in the place of a record replaces no date. -/
theorem Follows.setSkip
    (hFollows : Follows s₀ s)
    {index : Nat}
    {left : ExceptionRecord}
    (hKind : left.kind = .skip) :
    Follows s₀
      { s with records := s.records.set index left } := by
  refine hFollows.of_records rfl rfl ?_
  intro r hMember hReplaces
  rcases List.mem_or_eq_of_mem_set hMember with hOld | rfl
  · exact Or.inl hOld
  · rw [hKind] at hReplaces
    cases hReplaces

------------------------------------------------------------
-- Series Of A Session
------------------------------------------------------------

/-
  Stepping from a date comes to another one, in as many steps
  as a walk makes at most.
-/
def LeadsTo
    (s : Session)
    (first date : Instant) : Prop :=
  ∃ start here, s.event.startsAt = some start ∧
    s.scheduler.zone.toLocal start = .ok here ∧
      date ∈ datesFrom
        (s.event.dateAfter? s.scheduler.zone here.time)
        largestWord first

theorem LeadsTo.hasDate
    {first date : Instant}
    (hLeads : s.LeadsTo first date)
    (hFirst : s.event.HasDate s.scheduler.zone first) :
    s.event.HasDate s.scheduler.zone date := by
  rcases hLeads with ⟨start, here, hStart, hHere, hMember⟩
  exact hFirst.trans hStart hHere
    (dateFrom_of_mem_datesFrom hMember)

theorem LeadsTo.exists_hasDate
    {first date : Instant}
    (hLeads : s.LeadsTo first date) :
    ∃ d, s.event.HasDate s.scheduler.zone d := by
  rcases hLeads with ⟨start, here, hStart, hHere, _⟩
  exact ⟨start, start, here, hStart, hHere, .first⟩

/-
  An occurrence in a series of the session, at any present and
  with any windows, is what a walk over its records finds on
  some date.  The walk begins on a date of the series or where
  the cached start leads it.
-/
theorem IsSeries.exists_source
    (hSeries : s.IsSeries)
    {now : Instant}
    {windows : List HolidayWindow}
    {o : SeriesOptions}
    {os : List Occurrence}
    {occurrence : Occurrence}
    (hOs :
      (s.scheduler.movedTo now).series s.event s.records windows
        o = .ok os)
    (hMember : occurrence ∈ os) :
    let index := ExceptionIndex.ofList s.event.id s.records
    ∃ (p : WalkPlan) (first date : Instant),
      p.index = index ∧
      p.occurrence? date = some occurrence ∧
      s.LeadsTo first date ∧
      (s.event.HasDate s.scheduler.zone first ∨
        ∃ cached, s.event.nextStart = some cached ∧
          first = index.anchorFor cached) := by
  intro index
  rcases hSeries.starts with ⟨start, hStart⟩
  rcases
      Generator.exists_date_of_mem_series
        (g := (s.scheduler.movedTo now).generator)
        hSeries.recurring hSeries.manual hStart hOs hMember with
    ⟨time, date, hTime, hFrom, hFound⟩
  rcases (Generator.timeOfDay_eq_ok_iff hStart).mp hTime with
    ⟨here, hHere, rfl⟩
  refine ⟨_, _, date, rfl, hFound,
    ⟨start, here, hStart, hHere, hFrom⟩, ?_⟩
  cases hCached : s.event.nextStart with
  | none => exact Or.inl ⟨start, here, hStart, hHere, .first⟩
  | some cached => exact Or.inr ⟨cached, rfl, rfl⟩

/-
  A refresh leaves everything but the event and the store,
  and of the event everything but a cached start, which is
  that of an occurrence in its series.
-/
theorem refresh_cases
    (s : Session)
    (now : Instant)
    (windows : List HolidayWindow)
    (maxOccurrences : Option Nat)
    (horizonEnd : Option Instant) :
    let asked := { s.movedTo now with windows := windows }
    let done := asked.refresh maxOccurrences horizonEnd
    done.2 = { asked with
      event := done.2.event
      store := done.2.store } ∧
    (done.2.event = s.event ∨
      ∃ out o,
        done.1 = .ok out ∧
        (s.scheduler.movedTo now).series s.event s.records
          windows o = .ok out.occurrences ∧
        out.nextStart =
          s.event.upcomingStart? now out.occurrences ∧
        done.2.event = s.event.withCache out.nextStart) := by
  intro asked done
  refine ⟨rfl, ?_⟩
  cases hDone : done.1 with
  | error error =>
      left
      exact Scheduler.refresh_of_error hDone
  | ok out =>
      right
      rcases Scheduler.refresh_of_ok hDone with
        ⟨horizon, _, hSeries, hNext, hEvent⟩
      exact ⟨out, _, rfl, hSeries, hNext, hEvent⟩

theorem Follows.refresh
    (hFollows : Follows s₀ s)
    (hSeries : s₀.IsSeries)
    (now : Instant)
    (windows : List HolidayWindow)
    (maxOccurrences : Option Nat)
    (horizonEnd : Option Instant) :
    Follows s₀
      (({ s.movedTo now with windows := windows }).refresh
        maxOccurrences horizonEnd).2 := by
  rcases
      s.refresh_cases now windows maxOccurrences horizonEnd with
    ⟨hSame, hEvent⟩
  rw [hSame]
  rcases hEvent with
    hUnchanged | ⟨out, o, _, hOs, hNext, hCached⟩
  · rw [hUnchanged]
    exact ⟨hFollows.event, hFollows.zone, hFollows.replaced,
      hFollows.cached⟩
  · rw [hCached]
    refine ⟨?_, hFollows.zone, hFollows.replaced, ?_⟩
    · change s.event.withCache out.nextStart = _
      rw [hFollows.event]
      rfl
    · intro hSome
      have hStarts : out.occurrences ≠ [] := by
        intro hNone
        rw [hNone] at hNext
        apply hSome
        change out.nextStart = none
        rw [hNext, Event.upcomingStart?]
        split
        · rfl
        · rfl
      rcases List.exists_mem_of_ne_nil _ hStarts with
        ⟨occurrence, hMember⟩
      rcases
          (hFollows.isSeries hSeries).exists_source hOs hMember with
        ⟨_, _, _, _, _, hLeads, _⟩
      rcases hLeads.exists_hasDate with ⟨date, hDate⟩
      exact ⟨date, hFollows.hasDate_iff.mp hDate⟩

------------------------------------------------------------
-- Whole Runs
------------------------------------------------------------

theorem Fresh.follows
    (hFresh : s.Fresh) :
    Follows s s := by
  refine ⟨(Event.withCache_self rfl).symm, rfl, ?_, ?_⟩
  · intro r hMember
    rw [hFresh.unrecorded] at hMember
    cases hMember
  · intro hCached
    exact absurd hFresh.uncached hCached

/- A clone takes a slug and changes nothing else. -/
theorem slugs_of_clone
    {id : Id}
    {date : Instant}
    {clone : Event}
    (hClone : s.clone id date = .ok (clone, s')) :
    s' = { s with slugs := s'.slugs } := by
  unfold Session.clone at hClone
  cases hEvent : s.event.cloneFor id date s.scheduler.zone
      s.slugs with
  | error range => simp [hEvent, bind, Except.bind] at hClone
  | ok event =>
      simp only [hEvent, bind, Except.bind, pure, Except.pure,
        Except.ok.injEq, Prod.mk.injEq] at hClone
      rw [← hClone.2]

theorem records_of_markSkipped?
    {index : Nat}
    {event : Option Event}
    (hDone : s.markSkipped? index = some (event, s')) :
    ∃ left : ExceptionRecord, left.kind = .skip ∧
      s' = { s with records := s.records.set index left } := by
  simp only [markSkipped?, bind, Option.bind_eq_some_iff, pure,
    Option.some.injEq, Prod.mk.injEq] at hDone
  rcases hDone with ⟨r, _, _, hSession⟩
  exact ⟨r.skipped, rfl, hSession.symm⟩

theorem records_of_deleteOverride?
    {index : Nat}
    {left : Option ExceptionRecord}
    (hDone : s.deleteOverride? index = some (left, s')) :
    s' = s ∨
    ∃ left : ExceptionRecord, left.kind = .skip ∧
      s' = { s with records := s.records.set index left } := by
  simp only [deleteOverride?, bind, Option.bind_eq_some_iff]
    at hDone
  rcases hDone with ⟨r, _, hDone⟩
  split at hDone
  · rename_i record hLeft
    simp only [pure, Option.some.injEq, Prod.mk.injEq] at hDone
    right
    refine ⟨record, ?_, hDone.2.symm⟩
    simp only [Option.bind_eq_some_iff,
      ExceptionRecord.afterDeletionOf?, bind, pure,
      Option.some.injEq] at hLeft
    rcases hLeft with ⟨_, _, _, _, _, _, hRecord⟩
    rw [← hRecord]
    rfl
  · simp only [pure, Option.some.injEq, Prod.mk.injEq] at hDone
    exact Or.inl hDone.2.symm

/- Growth keeps the event and what its records replace. -/
theorem Follows.grows
    (hFollows : Follows s₀ s)
    (hSeries : s₀.IsSeries)
    (hGrows : Grows s s') :
    Follows s₀ s' := by
  cases hGrows with
  | skip _ =>
      refine hFollows.of_records rfl rfl ?_
      intro r hMember hKind
      rcases List.mem_append.mp hMember with hOld | hNew
      · exact Or.inl hOld
      · rw [List.mem_singleton] at hNew
        subst hNew
        cases hKind
  | @attach between id date clone replacement hDate hClone =>
      rw [slugs_of_clone hClone]
      refine hFollows.of_records rfl rfl ?_
      intro r hMember _
      rcases List.mem_append.mp hMember with hOld | hNew
      · exact Or.inl hOld
      · right
        rw [List.mem_singleton] at hNew
        subst hNew
        exact hFollows.hasDate_iff.mp hDate
  | refresh _ =>
      exact hFollows.refresh hSeries _ _ _ _

/- And so does every other step. -/
theorem Follows.step
    (hFollows : Follows s₀ s)
    (hSeries : s₀.IsSeries)
    (hStep : Step s s') :
    Follows s₀ s' := by
  cases hStep with
  | grow hGrows => exact hFollows.grows hSeries hGrows
  | @editOverride index r old replacement hIndex hActive =>
      refine hFollows.of_records rfl rfl ?_
      intro other hMember hKind
      rcases List.mem_or_eq_of_mem_set hMember with hOld | rfl
      · exact Or.inl hOld
      · right
        exact hFollows.replaced r (List.mem_of_getElem? hIndex)
          hKind
  | markSkipped hDone =>
      rcases records_of_markSkipped? hDone with ⟨left, hKind, rfl⟩
      exact hFollows.setSkip hKind
  | deleteOverride hDone =>
      rcases records_of_deleteOverride? hDone with
        rfl | ⟨left, hKind, rfl⟩
      · exact hFollows
      · exact hFollows.setSkip hKind
  | remove =>
      refine hFollows.of_records rfl rfl ?_
      intro r hMember _
      exact Or.inl (List.mem_of_mem_eraseIdx hMember)

theorem steps_of_growth
    (hRun : Relation.ReflTransGen Grows s₀ s) :
    Relation.ReflTransGen Step s₀ s := by
  induction hRun with
  | refl => exact .refl
  | tail _ hGrows ih => exact ih.tail (.grow hGrows)

theorem follows_of_run
    (hFresh : s₀.Fresh)
    (hRun : Relation.ReflTransGen Step s₀ s) :
    Follows s₀ s := by
  induction hRun with
  | refl => exact hFresh.follows
  | tail _ hStep ih => exact ih.step hFresh.toIsSeries hStep

end Session

end EventSeries
