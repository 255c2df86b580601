import EventSeries.Proofs.Exception.Append
import EventSeries.Proofs.Series.Reindexed
import EventSeries.Proofs.Series.Settled
import EventSeries.Proofs.Series.Sorting

/-
  One record more, for a date that has none yet.  A walk that
  nothing cuts short goes over the same dates as before: it
  loses what it had on that one date, gains the override of
  the record, if there is one, and keeps everything else.

  Main declarations:
    * `Generator.RunsUncut`
    * `Generator.GoesOver`
    * `withoutDate`
    * `ExtendedBy`
    * `WalkPlan.extendedBy_of_recorded`
    * `Generator.series_append_record`
-/

namespace EventSeries

------------------------------------------------------------
-- Changing One Date
------------------------------------------------------------

/- The occurrence that a record puts in the place of its date. -/
def ExceptionRecord.replacement?
    (r : ExceptionRecord) : Option Occurrence :=
  r.activeOverride?.map fun event =>
    event.overrideOccurrence r.key
      (event.startsAt.getD r.occurrenceStart)

/- Occurrences without the one that the rule has on a date. -/
def withoutDate
    (date : Instant)
    (os : List Occurrence) : List Occurrence :=
  os.filter fun o => o.isOverride || decide (o.start ≠ date)

/- The same list, or one with an occurrence more, by start. -/
def ExtendedBy
    (extra : Option Occurrence)
    (os more : List Occurrence) : Prop :=
  match extra with
  | none => more = os
  | some o => InsertedByStart o os more

namespace WalkPlan

variable {p : WalkPlan}
variable {index : ExceptionIndex}
variable {r : ExceptionRecord}

theorem not_mem_filterMap_kept?
    {o : Occurrence}
    {dates : List Instant}
    (hElsewhere : o.slot ∉ dates) :
    o ∉ dates.filterMap p.kept? := by
  intro hMember
  rcases List.mem_filterMap.mp hMember with ⟨date, hDate, hKept⟩
  have hSlot :=
    slot_of_occurrence? (kept?_eq_some_iff.mp hKept).1
  rw [hSlot] at hElsewhere
  exact hElsewhere hDate

/- What is kept on other dates is not of this one. -/
theorem withoutDate_filterMap_kept?
    {date : Instant}
    {dates : List Instant}
    (hElsewhere : date ∉ dates) :
    withoutDate date (dates.filterMap p.kept?) =
      dates.filterMap p.kept? := by
  apply List.filter_eq_self.mpr
  intro o hMember
  rcases List.mem_filterMap.mp hMember with ⟨other, hOther, hKept⟩
  rcases occurrence?_cases (kept?_eq_some_iff.mp hKept).1 with
    ⟨_, hStart, _⟩ | ⟨hOverride, _⟩
  · have hNe : o.start ≠ date := by
      rintro rfl
      exact hElsewhere (hStart ▸ hOther)
    simp [hNe]
  · simp [hOverride]

/- Without a record a date has only what the rule has on it. -/
theorem withoutDate_kept?_of_unrecorded
    {date : Instant}
    (hNew : p.index.record? date = none) :
    withoutDate date (p.kept? date).toList = [] := by
  apply List.filter_eq_nil_iff.mpr
  intro o hMember
  rw [Option.mem_toList] at hMember
  rcases occurrence?_cases (kept?_eq_some_iff.mp hMember).1 with
    ⟨hPlain, hStart, _⟩ | ⟨_, old, _, hOld, _⟩
  · simp [hPlain, hStart]
  · rw [hNew] at hOld
    cases hOld

theorem filterMap_kept?_middle
    (earlier later : List Instant)
    (date : Instant) :
    (earlier ++ date :: later).filterMap p.kept? =
      earlier.filterMap p.kept? ++
        ((p.kept? date).toList ++
          later.filterMap p.kept?) := by
  rw [List.filterMap_append, List.filterMap_cons]
  cases p.kept? date with
  | none => rfl
  | some o => rfl

/- What is left without a date that has no record. -/
theorem withoutDate_sortOccurrences
    {date : Instant}
    {earlier later : List Instant}
    (hNew : p.index.record? date = none)
    (hEarlier : date ∉ earlier)
    (hLater : date ∉ later) :
    withoutDate date
        (sortOccurrences
          ((earlier ++ date :: later).filterMap p.kept?)) =
      sortOccurrences
        (earlier.filterMap p.kept? ++
          later.filterMap p.kept?) := by
  have hHere := withoutDate_kept?_of_unrecorded hNew
  have hEarlierKept :=
    withoutDate_filterMap_kept? (p := p) hEarlier
  have hLaterKept :=
    withoutDate_filterMap_kept? (p := p) hLater
  unfold withoutDate at hHere hEarlierKept hLaterKept ⊢
  rw [filter_sortOccurrences, filterMap_kept?_middle,
    List.filter_append, List.filter_append, hHere,
    hEarlierKept, hLaterKept, List.nil_append]

/- A recorded date has what its record puts there. -/
theorem kept?_of_recorded
    {date : Instant}
    (hRecord : p.index.record? date = some r) :
    p.kept? date = r.replacement?.filter p.admits := by
  have hDate : r.occurrenceStart = date := by
    simpa using List.find?_some hRecord
  subst hDate
  simp only [kept?, occurrence?, entry, Event.occurrenceOn,
    hRecord, ExceptionRecord.replacement?, Except.toOption,
    Option.join_some]

------------------------------------------------------------
-- Walks With One Record More
------------------------------------------------------------

section

variable (hNew : p.index.record? r.occurrenceStart = none)
variable (hAdded : index.record? r.occurrenceStart = some r)
variable (hOthers :
  ∀ date, date ≠ r.occurrenceStart →
    index.record? date = p.index.record? date)
include hNew hAdded hOthers

/- A record whose override the horizon reaches cuts no walk. -/
theorem reaches_withIndex_of_within
    (hWithin :
      ∀ start, ExceptionIndex.overrideStart? r = some start →
        p.options.withinHorizon start = true) :
    (p.withIndex index).reaches = p.reaches := by
  funext date
  by_cases hDate : date = r.occurrenceStart
  · subst hDate
    have hAll :
        (ExceptionIndex.overrideStart? r).all
          p.options.withinHorizon = true := by
      rw [Option.all_eq_true]
      exact hWithin
    simp [reaches, SeriesOptions.reaches, withIndex, hNew, hAdded,
      hAll]
  · exact reaches_withIndex (hOthers date hDate)

/-
  On dates among which the recorded one is, the kept
  occurrences change by it and no further.
-/
theorem extendedBy_of_recorded
    {dates : List Instant}
    (hOnce : dates.Nodup)
    (hMember : r.occurrenceStart ∈ dates) :
    ExtendedBy (r.replacement?.filter p.admits)
      (withoutDate r.occurrenceStart
        (sortOccurrences (dates.filterMap p.kept?)))
      (sortOccurrences
        (dates.filterMap (p.withIndex index).kept?)) := by
  rcases List.append_of_mem hMember with
    ⟨earlier, later, rfl⟩
  rw [List.nodup_middle, List.nodup_cons, List.mem_append,
    not_or] at hOnce
  rcases hOnce.1 with ⟨hEarlier, hLater⟩
  have hKeep (dates : List Instant)
      (hElsewhere : r.occurrenceStart ∉ dates) :
      dates.filterMap (p.withIndex index).kept? =
        dates.filterMap p.kept? :=
    filterMap_kept?_withIndex fun date hDate =>
      hOthers date fun hSame => hElsewhere (hSame ▸ hDate)
  rw [withoutDate_sortOccurrences hNew hEarlier hLater,
    filterMap_kept?_middle, hKeep earlier hEarlier,
    hKeep later hLater]
  have hHere :=
    kept?_of_recorded (p := p.withIndex index) hAdded
  change (p.withIndex index).kept? r.occurrenceStart =
    r.replacement?.filter p.admits at hHere
  rw [← hHere]
  cases hKept :
      (p.withIndex index).kept? r.occurrenceStart with
  | none => rfl
  | some o =>
      have hSlot :=
        slot_of_occurrence? (kept?_eq_some_iff.mp hKept).1
      apply insertedByStart_sortOccurrences
      · apply not_mem_filterMap_kept?
        rw [hSlot]
        exact hEarlier
      · apply not_mem_filterMap_kept?
        rw [hSlot]
        exact hLater

section

variable {first : Instant}
variable {os : List Occurrence}

variable (hWithin :
  ∀ start, ExceptionIndex.overrideStart? r = some start →
    p.options.withinHorizon start = true)
variable (hWanted : 0 < p.options.maxOccurrences)
variable (hOs : (p.walk first).occurrences = .ok os)
variable (hBefore :
  (p.walk first).stop ≠ .filled ∧
    (p.walk first).stop ≠ .attemptsExhausted)
variable (hAfter :
  ((p.withIndex index).walk first).stop ≠ .filled ∧
    ((p.withIndex index).walk first).stop ≠
      .attemptsExhausted)

include hWithin hWanted hOs hBefore hAfter

/-
  A walk that is not cut short goes over the same dates with
  the record as without it, and has a result again.
-/
theorem exists_dates_of_added :
    ∃ dates more,
      SettlesWithin p.next? p.reaches p.maxAttempts first dates ∧
      ((p.withIndex index).walk first).occurrences = .ok more ∧
      os = sortOccurrences (dates.filterMap p.kept?) ∧
      more =
        sortOccurrences
          (dates.filterMap (p.withIndex index).kept?) := by
  have hReaches :=
    reaches_withIndex_of_within hNew hAdded hOthers hWithin
  rcases
      exists_dates_of_uncut hWanted hOs hBefore.1 hBefore.2 with
    ⟨dates, hSettles, hEntries, hList⟩
  have hSettlesAfter :
      SettlesWithin (p.withIndex index).next?
        (p.withIndex index).reaches
        (p.withIndex index).maxAttempts first dates := by
    rw [hReaches]
    exact hSettles
  have hEntriesAfter :
      ∀ date ∈ dates,
        p.options.admits p.now date = true →
          ∃ found, (p.withIndex index).entry date =
            .ok found := by
    intro date hMember hAdmits
    by_cases hDate : date = r.occurrenceStart
    · subst hDate
      exact ⟨_, by simp only [entry, withIndex, hAdded]; rfl⟩
    · rw [entry_withIndex (hOthers date hDate)]
      exact hEntries date hMember hAdmits
  rcases
      exists_occurrences_of_settlesWithin
        (p := p.withIndex index) hWanted hSettlesAfter
        hEntriesAfter with
    ⟨more, hMore⟩
  rcases
      exists_dates_of_uncut (p := p.withIndex index) hWanted
        hMore hAfter.1 hAfter.2 with
    ⟨others, hOther, _, hMoreList⟩
  have hSame : others = dates := by
    rw [← reached_of_settlesWithin hOther,
      ← reached_of_settlesWithin hSettlesAfter]
  subst hSame
  exact ⟨others, more, hSettles, hMore, hList, hMoreList⟩

/-
  The walk changes by the record if it goes over its date, and
  not at all otherwise.
-/
theorem exists_extended_of_added :
    ∃ dates more,
      SettlesWithin p.next? p.reaches p.maxAttempts first dates ∧
      ((p.withIndex index).walk first).occurrences = .ok more ∧
      (r.occurrenceStart ∈ dates →
        ExtendedBy (r.replacement?.filter p.admits)
          (withoutDate r.occurrenceStart os) more) ∧
      (r.occurrenceStart ∉ dates → more = os) := by
  rcases
      exists_dates_of_added hNew hAdded hOthers hWithin hWanted
        hOs hBefore hAfter with
    ⟨dates, more, hSettles, hMore, rfl, rfl⟩
  refine ⟨dates, _, hSettles, hMore, ?_, ?_⟩
  · exact extendedBy_of_recorded hNew hAdded hOthers
      (nodup_of_settlesWithin hSettles)
  · intro hElsewhere
    apply congrArg sortOccurrences
    apply filterMap_kept?_withIndex
    intro date hMember
    apply hOthers date
    rintro rfl
    exact hElsewhere hMember

end

end

end WalkPlan

------------------------------------------------------------
-- Series With One Record More
------------------------------------------------------------

namespace Generator

/-
  Some occurrences are wanted, and the walk from the start of
  the event is stopped neither by their count nor by the
  number of attempts.
-/
structure RunsUncut
    (g : Generator)
    (e : Event)
    (records : List ExceptionRecord)
    (windows : List HolidayWindow)
    (o : SeriesOptions) : Prop where
  wanted : 0 < o.maxOccurrences
  uncut :
    ∀ start time, e.startsAt = some start →
      g.timeOfDay e start = .ok time →
        let finish :=
          (g.plan e (.ofList e.id records) windows o time).walk
            start
        finish.stop ≠ .filled ∧
          finish.stop ≠ .attemptsExhausted

/-
  A date of the series that a walk from its start comes to
  before the horizon ends it: the horizon reaches this date
  and all earlier ones, with the overrides put there.
-/
def GoesOver
    (g : Generator)
    (e : Event)
    (records : List ExceptionRecord)
    (o : SeriesOptions)
    (date : Instant) : Prop :=
  e.HasDate g.zone date ∧
    ∀ d, e.HasDate g.zone d → d ≤ date →
      o.reaches (ExceptionRecord.first? records e.id d) d = true

variable {g : Generator}
variable {e : Event}
variable {records : List ExceptionRecord}
variable {windows : List HolidayWindow}
variable {o : SeriesOptions}
variable {start : Instant}

/- A walk that the horizon stops is not cut short. -/
theorem RunsUncut.of_horizon
    {time : ClockTime}
    (hWanted : 0 < o.maxOccurrences)
    (hStart : e.startsAt = some start)
    (hTime : g.timeOfDay e start = .ok time)
    (hStop :
      ((g.plan e (.ofList e.id records) windows o time).walk
        start).stop = .horizon) :
    g.RunsUncut e records windows o := by
  refine ⟨hWanted, ?_⟩
  intro other otherTime hOther hOtherTime
  rw [hStart, Option.some.injEq] at hOther
  subst hOther
  rw [hTime, Except.ok.injEq] at hOtherTime
  subst hOtherTime
  simp [hStop]

/-
  If the horizon reaches all overrides, the walk goes over the
  dates up to the horizon.
-/
theorem goesOver_iff_of_within
    {date : Instant}
    (hOverrides :
      ∀ r ∈ records, ∀ t,
        ExceptionIndex.overrideStart? r = some t →
          o.withinHorizon t = true) :
    g.GoesOver e records o date ↔
      e.HasDate g.zone date ∧ o.withinHorizon date = true := by
  constructor
  · rintro ⟨hDate, hReaches⟩
    have hHere := hReaches date hDate (Std.le_refl date)
    rw [SeriesOptions.reaches, Bool.and_eq_true] at hHere
    exact ⟨hDate, hHere.1⟩
  · rintro ⟨hDate, hWithin⟩
    refine ⟨hDate, ?_⟩
    intro d _ hLe
    rw [SeriesOptions.reaches, Bool.and_eq_true,
      Option.all_eq_true]
    refine ⟨SeriesOptions.withinHorizon_of_le hLe hWithin, ?_⟩
    intro t hOverride
    rcases Option.bind_eq_some_iff.mp hOverride with
      ⟨r, hRecord, hStart⟩
    exact hOverrides r (List.mem_of_find?_eq_some hRecord) t
      hStart

theorem mem_settled_iff_goesOver
    {time : ClockTime}
    {date : Instant}
    {dates : List Instant}
    {n : Nat}
    (hStart : e.startsAt = some start)
    (hTime : g.timeOfDay e start = .ok time) :
    let p := g.plan e (.ofList e.id records) windows o time
    SettlesWithin p.next? p.reaches n start dates →
      (date ∈ dates ↔ g.GoesOver e records o date) := by
  intro p hSettles
  have hDates (d : Instant) :
      DateFrom p.later? start d ↔ e.HasDate g.zone d :=
    (hasDate_iff hStart hTime).symm
  have hReaches (d : Instant) :
      p.reaches d =
        o.reaches (ExceptionRecord.first? records e.id d) d := by
    simp only [p, WalkPlan.reaches, plan,
      ExceptionIndex.record?_ofList]
  rw [WalkPlan.mem_settled_iff hSettles, GoesOver]
  simp only [hDates, hReaches]

/-
  A record for a date that the walk goes over and that has
  none yet takes away what the rule has on that date and puts
  its override, if it has one, in order of start among the
  other occurrences, which stay as they are.  A record for any
  other date changes nothing.
-/
theorem series_append_record
    {r : ExceptionRecord}
    {os : List Occurrence}
    (hRecurring : e.isRecurring = true)
    (hManual : (e.manualDates g.zone).value = .ok [])
    (hStart : e.startsAt = some start)
    (hUncached : e.nextStart = none)
    (hSeries : r.series = e.id)
    (hNew :
      ∀ old ∈ records, old.series = e.id →
        old.occurrenceStart ≠ r.occurrenceStart)
    (hWithin :
      ∀ t, ExceptionIndex.overrideStart? r = some t →
        o.withinHorizon t = true)
    (hBefore : g.RunsUncut e records windows o)
    (hAfter : g.RunsUncut e (records ++ [r]) windows o)
    (hOs : g.series e records windows o = .ok os) :
    ∃ more,
      g.series e (records ++ [r]) windows o = .ok more ∧
      (g.GoesOver e records o r.occurrenceStart →
        ExtendedBy
          (r.replacement?.filter fun x =>
            o.admits g.now x.start)
          (withoutDate r.occurrenceStart os) more) ∧
      (¬ g.GoesOver e records o r.occurrenceStart →
        more = os) := by
  have hUnrecorded :=
    ExceptionIndex.record?_ofList_eq_none_iff.mpr hNew
  have hAdded :=
    ExceptionIndex.record?_ofList_append_self hSeries
      hUnrecorded
  have hOthers (date : Instant)
      (hOther : date ≠ r.occurrenceStart) :
      (ExceptionIndex.ofList e.id (records ++ [r])).record?
          date =
        (ExceptionIndex.ofList e.id records).record? date :=
    ExceptionIndex.record?_ofList_append_of_ne hOther
  have hCached := hOs
  rw [← Event.withCache_self hUncached] at hCached
  rcases
      exists_timeOfDay_of_series hRecurring hManual hStart
        hBefore.wanted hCached with
    ⟨time, hTime⟩
  rw [series_uncached hRecurring hManual hStart hBefore.wanted
    hTime hUncached] at hOs ⊢
  rcases
      WalkPlan.exists_extended_of_added hUnrecorded hAdded
        hOthers hWithin hBefore.wanted hOs
        (hBefore.uncut start time hStart hTime)
        (hAfter.uncut start time hStart hTime) with
    ⟨dates, more, hSettles, hMore, hOver, hElsewhere⟩
  have hGoesOver :
      r.occurrenceStart ∈ dates ↔
        g.GoesOver e records o r.occurrenceStart :=
    mem_settled_iff_goesOver hStart hTime hSettles
  rw [← hGoesOver]
  exact ⟨more, hMore, hOver, hElsewhere⟩

/-
  The third jazz night is moved behind the fifth, while the
  second is skipped and the fourth hidden by a window.
-/
theorem series_append_record_jazzNight :
    let g : Generator := ⟨.utc, nightTime 0 0, 6⟩
    let records := [.skip jazzNight.id (nightTime 1 0)]
    let windows :=
      [HolidayWindow.named ⟨3⟩ "Closed" (nightTime 3 0)
        (nightTime 3 4)]
    let o : SeriesOptions := ⟨10, false, some (nightTime 5 4)⟩
    let r := movedNight 2 (nightTime 4 24)
    ∃ os more,
      g.series jazzNight records windows o = .ok os ∧
      g.series jazzNight (records ++ [r]) windows o =
        .ok more ∧
      os.map (·.start) =
        [nightTime 0 0, nightTime 2 0, nightTime 4 0,
          nightTime 5 0] ∧
      ExtendedBy r.replacement?
        (withoutDate (nightTime 2 0) os) more := by
  intro g records windows o r
  have hStarts :
      (g.series jazzNight records windows o).map
          (·.map (·.start)) =
        .ok [nightTime 0 0, nightTime 2 0, nightTime 4 0,
          nightTime 5 0] := by
    cbv
  rcases exists_ok_of_map hStarts with ⟨os, hOs, hOsStarts⟩
  have hTime := jazzNight_timeOfDay (nightTime 0 0) 6
  have hNew :
      ∀ old ∈ records, old.series = jazzNight.id →
        old.occurrenceStart ≠ r.occurrenceStart := by
    decide
  have hWithin :
      ∀ t, ExceptionIndex.overrideStart? r = some t →
        o.withinHorizon t = true := by
    intro t hOverride
    cases hOverride
    decide
  have hBefore : g.RunsUncut jazzNight records windows o :=
    .of_horizon (by decide) rfl hTime (by cbv)
  have hAfter :
      g.RunsUncut jazzNight (records ++ [r]) windows o :=
    .of_horizon (by decide) rfl hTime (by cbv)
  have hOver : g.GoesOver jazzNight records o (nightTime 2 0) := by
    apply (goesOver_iff_of_within ?_).mpr
    · refine ⟨?_, by decide⟩
      exact jazzNight_hasDate_iff.mpr
        (.next (.next .first jazzNight_dateAfter?_zero)
          jazzNight_dateAfter?_one)
    · intro old hMember t hOverride
      rw [List.mem_singleton] at hMember
      subst hMember
      cases hOverride
  rcases
      series_append_record rfl (Event.manualDates_of_nil rfl .utc)
        rfl rfl rfl hNew hWithin hBefore hAfter hOs with
    ⟨more, hMore, hExtended, _⟩
  exact ⟨os, more, hOs, hMore, hOsStarts, hExtended hOver⟩

end Generator

end EventSeries
