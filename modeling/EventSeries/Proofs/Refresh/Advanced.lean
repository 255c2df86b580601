import EventSeries.Proofs.Refresh.Resumed

/-
  One override that moves a date of the series to an earlier
  start.  While that start is cached, the walk begins at the
  date itself, and so the cached start hides the dates between
  the two.  A refresh keeps what the untouched event shows
  exactly if no upcoming occurrence lies between them.

  Main declarations:
    * `Event.OneAdvanced`
    * `Event.OneAdvanced.anchorFor`
    * `Scheduler.advanced_agrees_iff`
-/

namespace EventSeries

------------------------------------------------------------
-- One Advanced Date
------------------------------------------------------------

/-
  The record `r` moves a date of the series to the earlier
  start `moved`, and the other records of the series are for
  other dates and replace nothing.
-/
structure Event.OneAdvanced
    (e : Event)
    (z : Zone)
    (records : List ExceptionRecord)
    (r : ExceptionRecord)
    (moved : Instant) : Prop where
  member : r ∈ records
  series : r.series = e.id
  hasDate : e.HasDate z r.occurrenceStart
  override :
    ∃ replacement, r.activeOverride? = some replacement ∧
      replacement.startsAt = some moved
  advanced : moved < r.occurrenceStart
  others :
    ∀ other ∈ records, other.series = e.id → other ≠ r →
      other.occurrenceStart ≠ r.occurrenceStart ∧
        other.kind ≠ .replace

namespace Event.OneAdvanced

variable {e : Event}
variable {z : Zone}
variable {records : List ExceptionRecord}
variable {r : ExceptionRecord}
variable {moved : Instant}
variable (hAdvanced : e.OneAdvanced z records r moved)
include hAdvanced

/- Any record that puts an override on its date is `r`. -/
theorem eq_of_record?
    {date : Instant}
    {other : ExceptionRecord}
    {replacement : Event}
    (hRecord :
      (ExceptionIndex.ofList e.id records).record? date =
        some other)
    (hActive : other.activeOverride? = some replacement) :
    other = r ∧ date = r.occurrenceStart := by
  rcases ExceptionIndex.mem_of_record?_ofList hRecord with
    ⟨hMember, hSeries, hDate⟩
  by_cases hSame : other = r
  · subst hSame
    exact ⟨rfl, hDate.symm⟩
  · have hKind := (hAdvanced.others other hMember hSeries hSame).2
    exact absurd
      (ExceptionRecord.kind_of_activeOverride? hActive) hKind

/- The record of its date is `r` itself. -/
theorem record?_date :
    (ExceptionIndex.ofList e.id records).record?
      r.occurrenceStart = some r := by
  cases hRecord :
      (ExceptionIndex.ofList e.id records).record?
        r.occurrenceStart with
  | none =>
      exfalso
      exact ExceptionIndex.record?_ofList_eq_none_iff.mp hRecord
        r hAdvanced.member hAdvanced.series rfl
  | some other =>
      rcases ExceptionIndex.mem_of_record?_ofList hRecord with
        ⟨hMember, hSeries, hDate⟩
      by_cases hSame : other = r
      · rw [hSame]
      · exact absurd hDate
          (hAdvanced.others other hMember hSeries hSame).1

theorem overrideStartOn?_eq_some_iff
    {date start : Instant} :
    (ExceptionIndex.ofList e.id records).overrideStartOn?
        date = some start ↔
      date = r.occurrenceStart ∧ start = moved := by
  rcases hAdvanced.override with ⟨replacement, hActive, hStarts⟩
  rw [ExceptionIndex.overrideStartOn?_eq_some_iff]
  constructor
  · rintro ⟨other, event, hRecord, hOther, hStart⟩
    rcases hAdvanced.eq_of_record? hRecord hOther with
      ⟨rfl, hDate⟩
    rw [hActive, Option.some.injEq] at hOther
    subst hOther
    rw [hStarts, Option.some.injEq] at hStart
    exact ⟨hDate, hStart.symm⟩
  · rintro ⟨rfl, rfl⟩
    exact ⟨r, replacement, hAdvanced.record?_date, hActive,
      hStarts⟩

/-
  The start of the override is mapped back to its date, any
  other start to itself, and no date is moved past either.
-/
theorem anchorFor
    (cached : Instant) :
    (ExceptionIndex.ofList e.id records).anchorFor cached =
      if cached = moved then r.occurrenceStart else cached := by
  have hFirst := ExceptionIndex.isFirst_ofList e.id records
  have hEarlier := hAdvanced.advanced
  have hReplaced :
      ((ExceptionIndex.ofList e.id records).replacedStart?
        cached).getD cached =
          if cached = moved then r.occurrenceStart
          else cached := by
    rcases ExceptionIndex.replacedStart?_getD_cases hFirst cached
      with ⟨hStart, _⟩ | ⟨hSelf, hNone⟩
    · rcases hAdvanced.overrideStartOn?_eq_some_iff.mp hStart with
        ⟨hDate, hCached⟩
      rw [if_pos hCached]
      exact hDate
    · by_cases hCached : cached = moved
      · exact absurd
          (hAdvanced.overrideStartOn?_eq_some_iff.mpr
            ⟨rfl, hCached⟩)
          (hNone r.occurrenceStart)
      · rw [if_neg hCached]
        exact hSelf
  rw [ExceptionIndex.anchorFor, hReplaced]
  generalize hTarget :
    (if cached = moved then r.occurrenceStart else cached) =
      date
  rcases (ExceptionIndex.movedPast?_getD_cases hFirst date).1
    with ⟨hBefore, start, hStart, hLe⟩ | hSelf
  · rcases hAdvanced.overrideStartOn?_eq_some_iff.mp hStart with
      ⟨hDate, rfl⟩
    grind
  · exact hSelf

end Event.OneAdvanced

------------------------------------------------------------
-- Refreshes With An Advanced Date
------------------------------------------------------------

namespace Scheduler

variable {s : Scheduler}
variable {e : Event}
variable {records : List ExceptionRecord}
variable {windows : List HolidayWindow}
variable {maxOccurrences : Nat}
variable {horizon start : Instant}
variable {time : ClockTime}
variable {dates : List Instant}
variable {r : ExceptionRecord}
variable {moved : Instant}

/- No occurrence by the rule lies between the two starts. -/
def NoneBetween
    (os : List Occurrence)
    (moved date : Instant) : Prop :=
  ∀ o ∈ os, o.isOverride = false → moved ≤ o.start →
    ¬ o.start < date

instance
    (os : List Occurrence)
    (moved date : Instant) :
    Decidable (NoneBetween os moved date) :=
  inferInstanceAs (Decidable (∀ o ∈ os, _ → _ → ¬ _))

namespace SettlesOn

variable (hSettles :
  s.SettlesOn e records windows maxOccurrences horizon start
    time dates)
variable (hAdvanced : e.OneAdvanced s.zone records r moved)
include hSettles hAdvanced

/-
  A walk from a cached start that is not the advanced one
  begins at a settled date and loses nothing.
-/
theorem resumes_of_ne_advanced
    {now next : Instant}
    (hNext : next ≠ moved) :
    let p := s.refreshPlan e records windows maxOccurrences
      horizon time
    earliestUpcoming? now (p.occurrencesOn dates) = some next →
      p.Resumes dates now next := by
  intro p hCached
  rw [earliestUpcoming?_eq_some_iff] at hCached
  rcases hCached with ⟨⟨o, hOn, rfl⟩, _, hLeast⟩
  rcases List.mem_filterMap.mp hOn with ⟨source, hSource, hFound⟩
  have hEarlier := hAdvanced.advanced
  have hStart : o.start = source := by
    rcases WalkPlan.start_of_occurrence? hFound with
      hPlain | hOverride
    · exact hPlain
    · exact absurd
        (hAdvanced.overrideStartOn?_eq_some_iff.mp hOverride).2
        hNext
  rw [← hStart] at hSource
  apply WalkPlan.resumes_of_mem hSettles.settled hSource
  intro early hEarly hBefore other hOther
  by_cases hUpcoming : now ≤ other.start
  · exfalso
    have hLater := hLeast other
      (List.mem_filterMap.mpr ⟨early, hEarly, hOther⟩) hUpcoming
    rcases WalkPlan.start_of_occurrence? hOther with
      hPlain | hOverride
    · grind
    · rcases
          hAdvanced.overrideStartOn?_eq_some_iff.mp hOverride with
        ⟨hDate, hMoved⟩
      grind
  · grind

/-
  A walk from the date of the override loses nothing upcoming
  if nothing lies between its two starts.
-/
theorem resumes_of_advanced
    {now : Instant} :
    let p := s.refreshPlan e records windows maxOccurrences
      horizon time
    earliestUpcoming? now (p.occurrencesOn dates) = some moved →
      NoneBetween (p.occurrencesOn dates) moved
        r.occurrenceStart →
      p.Resumes dates now r.occurrenceStart := by
  intro p hCached hBetween
  rw [earliestUpcoming?_eq_some_iff] at hCached
  rcases hCached with ⟨⟨o, hOn, rfl⟩, _, hLeast⟩
  rcases List.mem_filterMap.mp hOn with ⟨source, hSource, hFound⟩
  have hEarlier := hAdvanced.advanced
  have hDate : source = r.occurrenceStart := by
    rcases WalkPlan.occurrence?_cases hFound with
      ⟨hPlain, _, _⟩ | ⟨_, other, _, hRecord, hActive, _⟩
    · exact absurd hEarlier
        (hBetween o hOn hPlain (Std.le_refl o.start))
    · exact (hAdvanced.eq_of_record? hRecord hActive).2
  rw [hDate] at hSource
  apply WalkPlan.resumes_of_mem hSettles.settled hSource
  intro early hEarly hBefore other hOther
  by_cases hUpcoming : now ≤ other.start
  · exfalso
    have hOtherOn : other ∈ p.occurrencesOn dates :=
      List.mem_filterMap.mpr ⟨early, hEarly, hOther⟩
    have hLater := hLeast other hOtherOn hUpcoming
    rcases WalkPlan.occurrence?_cases hOther with
      ⟨hPlain, hStart, _⟩ | ⟨_, record, _, hRecord, hActive, _⟩
    · have hNotBefore := hBetween other hOtherOn hPlain hLater
      grind
    · have hSame :=
        (hAdvanced.eq_of_record? hRecord hActive).2
      grind
  · grind

/-
  The cached start resumes the walk, whichever it is, if
  nothing lies between the two starts while it is the advanced
  one.
-/
theorem resumes_of_noneBetween
    {now : Instant}
    {cached : Option Instant} :
    let p := s.refreshPlan e records windows maxOccurrences
      horizon time
    cached = earliestUpcoming? now (p.occurrencesOn dates) →
      (cached = some moved →
        NoneBetween (p.occurrencesOn dates) moved
          r.occurrenceStart) →
      p.Resumes dates now
        ((ExceptionIndex.ofList e.id records).walkStart start
          cached) := by
  intro p hCached hBetween
  cases cached with
  | none => exact hSettles.resumes_uncached now
  | some next =>
      rw [ExceptionIndex.walkStart, hAdvanced.anchorFor]
      by_cases hMoved : next = moved
      · subst hMoved
        rw [if_pos rfl]
        exact hSettles.resumes_of_advanced hAdvanced
          hCached.symm (hBetween rfl)
      · rw [if_neg hMoved]
        exact hSettles.resumes_of_ne_advanced hAdvanced hMoved
          hCached.symm

end SettlesOn

/-
  While the advanced start is cached, no occurrence by the rule
  before the date of the override is returned.
-/
theorem le_start_of_advanced
    {present : Instant}
    {o : SeriesOptions}
    {os : List Occurrence}
    {occurrence : Occurrence}
    (hRecurring : e.isRecurring = true)
    (hManual : (e.manualDates s.zone).value = .ok [])
    (hStart : e.startsAt = some start)
    (hAdvanced : e.OneAdvanced s.zone records r moved)
    (hSeries :
      (s.movedTo present).series (e.withCache (some moved))
        records windows o = .ok os)
    (hMember : occurrence ∈ os)
    (hPlain : occurrence.isOverride = false) :
    r.occurrenceStart ≤ occurrence.start := by
  rcases
      Generator.exists_date_of_mem_series
        (g := (s.movedTo present).generator) hRecurring hManual
        hStart hSeries hMember with
    ⟨_, date, _, hDate, hOn⟩
  rw [ExceptionIndex.walkStart, hAdvanced.anchorFor,
    if_pos rfl] at hDate
  have hFirst :=
    (dateFrom_of_mem_datesFrom hDate).first_le
      fun _ _ hStep => Event.lt_of_dateAfter? hStep
  rcases WalkPlan.occurrence?_cases hOn with
    ⟨_, hPlainStart, _⟩ | ⟨hOverride, _⟩
  · rw [hPlainStart]
    exact hFirst
  · rw [hPlain] at hOverride
    cases hOverride

/-
  The refreshed event and the untouched one have the same
  series and the same cached start from the refresh on exactly
  if the refresh did not cache the advanced start, or no
  occurrence by the rule lies between that start and its date.
-/
theorem advanced_agrees_iff
    {σ : Type}
    [StartStore σ]
    {store : σ}
    {now : Instant}
    {out : RefreshOutcome}
    (hRecurring : e.isRecurring = true)
    (hManual : (e.manualDates s.zone).value = .ok [])
    (hStart : e.startsAt = some start)
    (hUncached : e.nextStart = none)
    (hAdvanced : e.OneAdvanced s.zone records r moved)
    (hRoom :
      s.HasRoom e records windows maxOccurrences horizon)
    (hDone :
      ((s.movedTo now).refresh e records windows maxOccurrences
        (some horizon) store).outcome = .ok out) :
    let e' := ((s.movedTo now).refresh e records windows
      maxOccurrences (some horizon) store).event
    (∀ present, now ≤ present →
      (s.movedTo present).SameSchedule e' e records windows
        maxOccurrences horizon) ↔
    (out.nextStart = some moved →
      NoneBetween out.occurrences moved r.occurrenceStart) := by
  intro e'
  rcases
      first_refresh hRecurring hManual hStart hUncached hRoom
        hDone with
    ⟨time, dates, hSettles, ⟨hSame, hNext⟩, hEvent⟩
  change e' = _ at hEvent
  rw [hEvent]
  constructor
  · intro hAgree hCached o hMember hPlain hAfter hBefore
    rcases (hAgree now (Std.le_refl now)).series with
      ⟨os, hRefreshed, hOs⟩
    rw [hSettles.series_uncached hUncached, Except.ok.injEq]
      at hOs
    rw [hCached] at hNext hRefreshed
    have hNow :=
      (earliestUpcoming?_eq_some_iff.mp hNext.symm).2.1
    have hShown : o ∈ os := by
      rw [← hOs, mem_sortOccurrences, mem_upcoming]
      exact ⟨(hSame o).mp hMember, Std.le_trans hNow hAfter⟩
    have hNotBefore :=
      le_start_of_advanced hRecurring hManual hStart hAdvanced
        hRefreshed hShown hPlain
    grind
  · intro hBetween present hLe
    have hResumes :=
      hSettles.resumes_of_noneBetween hAdvanced hNext
        fun hCached o hOn =>
          hBetween hCached o ((hSame o).mpr hOn)
    exact hSettles.sameSchedule_of_resumes hUncached hResumes
      hLe

theorem oneAdvanced_of_jazzNight
    {week : Nat}
    {moved : Instant}
    (hDate : jazzNight.HasDate .utc (nightTime week 0))
    (hMoved : moved < nightTime week 0) :
    jazzNight.OneAdvanced .utc [movedNight week moved]
      (movedNight week moved) moved where
  member := List.mem_singleton_self _
  series := rfl
  hasDate := hDate
  override := ⟨_, rfl, rfl⟩
  advanced := hMoved
  others := by
    intro other hMember _ hOther
    exact absurd (List.mem_singleton.mp hMember) hOther

/-
  The second jazz night is moved a day ahead, with no other
  night in between, and the refreshed event loses nothing.
-/
theorem advanced_agrees_of_jazzNight :
    let s := Scheduler.inZone .utc (nightTime 0 0)
    let moved := nightTime 1 (-24)
    let records := [movedNight 1 moved]
    let horizon := nightTime 4 4
    let e' := ((s.movedTo (nightTime 0 52)).refresh jazzNight
      records [] 10 (some horizon) ({} : MemoryStore)).event
    ((s.movedTo (nightTime 0 52)).refresh jazzNight records []
      10 (some horizon) ({} : MemoryStore)).outcome.map
        (·.nextStart) = .ok (some moved) ∧
    ∀ present, nightTime 0 52 ≤ present →
      (s.movedTo present).SameSchedule e' jazzNight records []
        10 horizon := by
  intro s moved records horizon e'
  have hAdvanced :
      jazzNight.OneAdvanced .utc records (movedNight 1 moved)
        moved :=
    oneAdvanced_of_jazzNight
      (jazzNight_hasDate_iff.mpr
        (.next .first jazzNight_dateAfter?_zero)) (by decide)
  have hRoom : s.HasRoom jazzNight records [] 10 horizon :=
    .of_horizon (by decide) rfl (jazzNight_timeOfDay s.now 6)
      (by cbv)
  have hDone :
      ((s.movedTo (nightTime 0 52)).refresh jazzNight records []
        10 (some horizon) ({} : MemoryStore)).outcome.map
          (fun out => decide (NoneBetween out.occurrences moved
            (nightTime 1 0))) = .ok true := by
    cbv
  rcases exists_ok_of_map hDone with ⟨out, hDone, hBetween⟩
  have hCached :
      ((s.movedTo (nightTime 0 52)).refresh jazzNight records []
        10 (some horizon) ({} : MemoryStore)).outcome.map
          (·.nextStart) = .ok (some moved) := by
    cbv
  have hNone :
      NoneBetween out.occurrences moved (nightTime 1 0) :=
    of_decide_eq_true hBetween
  have hAgree :=
    (advanced_agrees_iff rfl (Event.manualDates_of_nil rfl .utc)
      rfl rfl hAdvanced hRoom hDone).mpr fun _ => hNone
  exact ⟨hCached, hAgree⟩

/-
  The third jazz night is moved to the day before the second.
  After a refresh the second is missing.
-/
theorem advanced_hides_jazzNight :
    let s := Scheduler.inZone .utc (nightTime 0 52)
    let moved := nightTime 1 (-24)
    let records := [movedNight 2 moved]
    let horizon := nightTime 4 4
    let done := s.refresh jazzNight records [] 10 (some horizon)
      ({} : MemoryStore)
    jazzNight.OneAdvanced .utc records (movedNight 2 moved)
      moved ∧
    s.HasRoom jazzNight records [] 10 horizon ∧
    done.outcome.map (·.nextStart) = .ok (some moved) ∧
    (s.series done.event records []
        (upcomingOptions 10 horizon)).map (·.map (·.start)) =
      .ok [moved, nightTime 3 0, nightTime 4 0] ∧
    (s.series jazzNight records []
        (upcomingOptions 10 horizon)).map (·.map (·.start)) =
      .ok [moved, nightTime 1 0, nightTime 3 0,
        nightTime 4 0] := by
  refine ⟨?_, ?_, ?_, ?_, ?_⟩
  · exact oneAdvanced_of_jazzNight
      (jazzNight_hasDate_iff.mpr
        (.next (.next .first jazzNight_dateAfter?_zero)
          jazzNight_dateAfter?_one)) (by decide)
  · exact .of_horizon (by decide) rfl
      (jazzNight_timeOfDay _ 6) (by cbv)
  · cbv
  · cbv
  · cbv

end Scheduler

end EventSeries
