import EventSeries.Proofs.Event.ManualDates
import EventSeries.Proofs.Series.Membership
import EventSeries.Proofs.Series.Modes
import EventSeries.Proofs.Series.Sorting

/-
  What a series promises to those who read it, however it
  came about: its order and its length, where its occurrences
  may start, what the occurrences of the event carry, and
  which records stand behind the others.  A series by the rule
  shows no date twice.

  Main declarations:
    * `CarriedOver`
    * `Event.Shows`
    * `Generator.MayList`
    * `Generator.Lists`
    * `Generator.series_lists`
-/

namespace EventSeries

------------------------------------------------------------
-- Occurrences Of An Event
------------------------------------------------------------

/-
  A time of an event is carried over to an occurrence as far
  from its start as it lies from the reference start.  Without
  the time, or without a reference, there is none.
-/
def CarriedOver
    (reference time : Option Instant)
    (start : Instant)
    (carried : Option Instant) : Prop :=
  match reference, time with
  | some r, some t =>
      ∃ shifted, start.plus (t.since r) = .ok shifted ∧
        carried = some shifted
  | _, _ => carried = none

/- An occurrence of the event itself, with its times. -/
structure Event.Shows
    (e : Event)
    (x : Occurrence) : Prop where
  event : x.event = e.id
  source : x.sourceException = none
  doors : CarriedOver e.referenceStart? e.doorsAt x.start x.doors
  finish : CarriedOver e.referenceStart? e.endsAt x.start x.finish
  curfew :
    CarriedOver e.referenceStart? e.curfewAt x.start x.curfew

theorem carriedOver_of_timeAt
    {reference time carried : Option Instant}
    {start : Instant}
    (hTime :
      Offsets.timeAt start (Offsets.spanFrom? reference time) =
        .ok carried) :
    CarriedOver reference time start carried := by
  unfold Offsets.timeAt Offsets.spanFrom? at hTime
  unfold CarriedOver
  cases reference with
  | none =>
      cases hTime
      rfl
  | some r =>
      cases time with
      | none =>
          cases hTime
          rfl
      | some t =>
          simp only at hTime ⊢
          cases hSum : start.plus (t.since r) with
          | error range =>
              rw [hSum] at hTime
              cases hTime
          | ok shifted =>
              rw [hSum] at hTime
              cases hTime
              exact ⟨shifted, rfl, rfl⟩

theorem Event.shows_of_occurrenceAt
    {e : Event}
    {date : Instant}
    {x : Occurrence}
    (hAt : e.occurrenceAt date = .ok x) :
    e.Shows x ∧ x.start = date := by
  rcases times_of_occurrenceAt hAt with
    ⟨hDoors, hEnd, hCurfew, hEq⟩
  have hStart : x.start = date :=
    (occurrenceAt_start hAt).1
  rw [← hStart] at hDoors hEnd hCurfew
  refine ⟨⟨?_, ?_, ?_, ?_, ?_⟩, hStart⟩
  · rw [hEq]
  · rw [hEq]
  · exact carriedOver_of_timeAt hDoors
  · exact carriedOver_of_timeAt hEnd
  · exact carriedOver_of_timeAt hCurfew

------------------------------------------------------------
-- Listed Occurrences
------------------------------------------------------------

namespace Generator

/- What holds for each occurrence of a series. -/
structure MayList
    (g : Generator)
    (e : Event)
    (records : List ExceptionRecord)
    (o : SeriesOptions)
    (x : Occurrence) : Prop where
  horizon :
    ∀ horizon, o.horizonEnd = some horizon → x.start ≤ horizon
  present : o.includePast = false → g.now ≤ x.start
  plain : x.isOverride = false → e.Shows x
  replaced :
    x.isOverride = true →
      ∃ r ∈ records, r.series = e.id ∧
        x.sourceException = some r.key

/- What holds for a series as a whole. -/
structure Lists
    (g : Generator)
    (e : Event)
    (records : List ExceptionRecord)
    (o : SeriesOptions)
    (os : List Occurrence) : Prop where
  ordered : os.Pairwise (·.start ≤ ·.start)
  count : os.length ≤ o.maxOccurrences
  each : ∀ x ∈ os, g.MayList e records o x

variable {g : Generator}
variable {e : Event}
variable {records : List ExceptionRecord}
variable {windows : List HolidayWindow}
variable {o : SeriesOptions}

theorem lists_nil :
    g.Lists e records o [] where
  ordered := List.Pairwise.nil
  count := Nat.zero_le _
  each := nofun

theorem le_of_withinHorizon
    {start horizon : Instant}
    (hWithin : o.withinHorizon start = true)
    (hHorizon : o.horizonEnd = some horizon) :
    start ≤ horizon := by
  simpa [SeriesOptions.withinHorizon, hHorizon] using hWithin

theorem le_of_admits
    {now start : Instant}
    (hAdmits : o.admits now start = true)
    (hPast : o.includePast = false) :
    now ≤ start := by
  simpa [SeriesOptions.admits, hPast] using hAdmits

/- An occurrence on a date that passes the two tests. -/
theorem mayList_of_keeps
    {date : Instant}
    {x : Occurrence}
    (hKeeps : o.keeps g.now date = true)
    (hAt : e.occurrenceAt date = .ok x) :
    g.MayList e records o x := by
  rw [SeriesOptions.keeps, Bool.and_eq_true] at hKeeps
  rcases Event.shows_of_occurrenceAt hAt with ⟨hShows, rfl⟩
  have hPlain := (Event.occurrenceAt_start hAt).2
  refine ⟨?_, le_of_admits hKeeps.2, fun _ => hShows, ?_⟩
  · intro horizon hHorizon
    exact le_of_withinHorizon hKeeps.1 hHorizon
  · rw [hPlain]
    exact nofun

/- An occurrence that a walk keeps on a date that it reaches. -/
theorem mayList_of_kept?
    {time : ClockTime}
    {date : Instant}
    {x : Occurrence}
    (hReaches :
      (g.plan e (.ofList e.id records) windows o time).reaches
        date = true)
    (hKept :
      (g.plan e (.ofList e.id records) windows o time).kept?
        date = some x) :
    g.MayList e records o x := by
  rcases WalkPlan.kept?_eq_some_iff.mp hKept with
    ⟨hOn, hAdmits⟩
  have hWithin := WalkPlan.withinHorizon_of_reaches hReaches
  rcases WalkPlan.eq_of_occurrence? hOn with
    ⟨_, hAt⟩ | ⟨r, replacement, hRecord, hActive, rfl⟩
  · apply mayList_of_keeps _ hAt
    have hStart := (Event.occurrenceAt_start hAt).1
    rw [SeriesOptions.keeps, Bool.and_eq_true]
    exact ⟨hWithin, hStart ▸ hAdmits⟩
  · have hOverride :=
      WalkPlan.withinHorizon_of_override hReaches hRecord hActive
    rcases ExceptionIndex.mem_of_record?_ofList hRecord with
      ⟨hMember, hSeries, _⟩
    refine ⟨?_, le_of_admits hAdmits, nofun, ?_⟩
    · intro horizon hHorizon
      exact le_of_withinHorizon hOverride hHorizon
    · intro _
      exact ⟨r, hMember, hSeries, rfl⟩

------------------------------------------------------------
-- Dates Listed By Hand
------------------------------------------------------------

/- Dates listed by hand are in order of time. -/
theorem pairwise_of_manualDates
    {z : Zone}
    {dates : List Instant}
    (hManual : (e.manualDates z).value = .ok dates) :
    dates.Pairwise (· ≤ ·) := by
  unfold Event.manualDates at hManual
  rcases exists_ok_of_map hManual with ⟨read, _, rfl⟩
  exact (Event.sortInstants_spec read).2

theorem lists_of_manual
    {first : Instant}
    {rest : List Instant}
    {os : List Occurrence}
    (hManual :
      (e.manualDates g.zone).value = .ok (first :: rest))
    (hWanted : 0 < o.maxOccurrences)
    (hOs : g.series e records windows o = .ok os) :
    g.Lists e records o os := by
  have hStarts := starts_of_manual hManual hWanted hOs
  have hDates := pairwise_of_manualDates hManual
  refine ⟨?_, ?_, ?_⟩
  · rw [← List.pairwise_map, hStarts]
    exact hDates.sublist
      ((List.take_sublist _ _).trans List.filter_sublist)
  · rw [← List.length_map (f := (·.start)), hStarts]
    exact List.length_take_le _ _
  · intro x hMember
    rcases exists_keptDate_of_manual hManual hWanted hOs hMember
      with ⟨date, hDate, hAt⟩
    have hKeeps :=
      (List.mem_filter.mp (List.mem_of_mem_take hDate)).2
    exact mayList_of_keeps hKeeps hAt

------------------------------------------------------------
-- Single Events
------------------------------------------------------------

theorem lists_of_single
    {start : Instant}
    {os : List Occurrence}
    (hWanted : 0 < o.maxOccurrences)
    (hOs : g.singleSeries e o start = .ok os) :
    g.Lists e records o os := by
  unfold singleSeries at hOs
  cases hAt : e.occurrenceAt start with
  | error range =>
      rw [hAt] at hOs
      cases hOs
  | ok x =>
      simp only [hAt, bind, Except.bind, pure, Except.pure,
        Except.ok.injEq] at hOs
      subst hOs
      by_cases hKeeps : o.keeps g.now start = true
      · rw [if_pos hKeeps]
        refine ⟨List.pairwise_singleton _ _, hWanted, ?_⟩
        intro y hMember
        rw [List.mem_singleton] at hMember
        subst hMember
        exact mayList_of_keeps hKeeps hAt
      · rw [if_neg hKeeps]
        exact lists_nil

------------------------------------------------------------
-- Walks
------------------------------------------------------------

theorem lists_of_walk
    {time : ClockTime}
    {anchor : Instant}
    {os : List Occurrence}
    (hWanted : 0 < o.maxOccurrences)
    (hOs :
      ((g.plan e (.ofList e.id records) windows o time).walk
        anchor).occurrences = .ok os) :
    g.Lists e records o os := by
  have hSorted :=
    ((WalkPlan.walk_occurrences_eq_ok_iff hWanted).mp hOs).2
  refine ⟨?_, ?_, ?_⟩
  · rw [← hSorted]
    exact pairwise_sortOccurrences _
  · rw [← hSorted, sortOccurrences, List.length_mergeSort]
    exact List.length_take_le _ _
  · intro x hMember
    rcases WalkPlan.exists_reached_of_mem_walk hOs hWanted
        hMember with
      ⟨date, hDate, hKept⟩
    exact mayList_of_kept? (List.mem_takeWhile_imp hDate) hKept

/- The slots of what is kept are dates, in their order. -/
theorem slots_sublist
    (p : WalkPlan)
    (dates : List Instant) :
    ((dates.filterMap p.kept?).map (·.slot)).Sublist dates := by
  induction dates with
  | nil => exact List.Sublist.slnil
  | cons date dates ih =>
      cases hKept : p.kept? date with
      | none =>
          rw [List.filterMap_cons_none hKept]
          exact ih.cons date
      | some x =>
          have hSlot :=
            WalkPlan.slot_of_occurrence?
              (WalkPlan.kept?_eq_some_iff.mp hKept).1
          rw [List.filterMap_cons_some hKept, List.map_cons,
            hSlot]
          exact ih.cons_cons date

/- Taken in the order of the walk, their dates increase. -/
theorem pairwise_slots
    (p : WalkPlan)
    (attempts wanted : Nat)
    (anchor : Instant) :
    (((p.reached attempts anchor).filterMap p.kept?).take
      wanted).Pairwise (·.slot < ·.slot) := by
  have hDates :=
    pairwise_datesFrom (WalkPlan.lt_of_later? (p := p)) attempts
      anchor
  have hTaken :
      (((p.reached attempts anchor).filterMap p.kept?).take
        wanted).Sublist
          ((p.reached attempts anchor).filterMap p.kept?) :=
    List.take_sublist _ _
  exact List.pairwise_map.mp
    (hDates.sublist
      (((hTaken.map _).trans (slots_sublist p _)).trans
        (List.takeWhile_sublist _)))

/- No two occurrences of a walk are on one date. -/
theorem nodup_slots_of_walk
    {p : WalkPlan}
    {anchor : Instant}
    {os : List Occurrence}
    (hWanted : 0 < p.options.maxOccurrences)
    (hOs : (p.walk anchor).occurrences = .ok os) :
    (os.map (·.slot)).Nodup := by
  have hSorted :=
    ((WalkPlan.walk_occurrences_eq_ok_iff hWanted).mp hOs).2
  have hSlots :=
    pairwise_slots p p.maxAttempts p.options.maxOccurrences
      anchor
  generalize ((p.reached p.maxAttempts anchor).filterMap
    p.kept?).take p.options.maxOccurrences = found
    at hSorted hSlots
  have hSame : (os.map (·.slot)).Perm (found.map (·.slot)) := by
    rw [← hSorted]
    exact (List.mergeSort_perm _ startsBy).map _
  apply hSame.nodup_iff.mpr
  apply List.pairwise_map.mpr
  apply hSlots.imp
  intro x y hLess hEq
  rw [hEq] at hLess
  exact Std.lt_irrefl hLess

------------------------------------------------------------
-- All Series
------------------------------------------------------------

theorem lists_of_series
    {os : List Occurrence}
    (hOs : g.series e records windows o = .ok os) :
    g.Lists e records o os := by
  by_cases hNone : o.maxOccurrences = 0
  · rw [series_of_none_wanted hNone, Except.ok.injEq] at hOs
    subst hOs
    exact lists_nil
  · have hWanted : 0 < o.maxOccurrences := by omega
    rcases mode_cases hWanted hOs with
      ⟨first, rest, hManual⟩ | ⟨hManual, hRest⟩
    · exact lists_of_manual hManual hWanted hOs
    · rcases hRest with
        hAnchor | ⟨start, hSingle, hStart⟩ |
        ⟨anchor, hRecurring, hAnchor⟩
      · rw [series_of_no_anchor hManual hAnchor,
          Except.ok.injEq] at hOs
        subst hOs
        exact lists_nil
      · rw [series_of_single hSingle hManual hStart
          hWanted] at hOs
        exact lists_of_single hWanted hOs
      · rcases exists_walk_of_series hRecurring hManual hAnchor
            hWanted hOs with
          ⟨time, _, hWalk⟩
        exact lists_of_walk hWanted hWalk

theorem nodup_slots_of_series
    {os : List Occurrence}
    (hRecurring : e.isRecurring = true)
    (hManual : (e.manualDates g.zone).value = .ok [])
    (hOs : g.series e records windows o = .ok os) :
    (os.map (·.slot)).Nodup := by
  by_cases hNone : o.maxOccurrences = 0
  · rw [series_of_none_wanted hNone, Except.ok.injEq] at hOs
    subst hOs
    exact List.nodup_nil
  · have hWanted : 0 < o.maxOccurrences := by omega
    cases hAnchor : anchor? e (.ofList e.id records) with
    | none =>
        rw [series_of_no_anchor hManual hAnchor,
          Except.ok.injEq] at hOs
        subst hOs
        exact List.nodup_nil
    | some anchor =>
        rcases exists_walk_of_series hRecurring hManual hAnchor
            hWanted hOs with
          ⟨time, _, hWalk⟩
        exact nodup_slots_of_walk hWanted hWalk

/-
  Every series is in order of start and no longer than wanted;
  it keeps to the horizon and to the present, shows the event
  with its times, and names the records of the overrides.  A
  series by the rule does not show a date twice, be it as a
  plain occurrence or as one that stands in for it.
-/
theorem series_lists
    {os : List Occurrence}
    (hOs : g.series e records windows o = .ok os) :
    g.Lists e records o os ∧
      (e.isRecurring = true →
        (e.manualDates g.zone).value = .ok [] →
          (os.map (·.slot)).Nodup) := by
  refine ⟨lists_of_series hOs, ?_⟩
  intro hRecurring hManual
  exact nodup_slots_of_series hRecurring hManual hOs

/-
  Of four jazz nights with doors an hour before, the second is
  moved behind the third.
-/
theorem series_lists_of_jazzNight :
    let g : Generator := ⟨.utc, nightTime 0 0, 6⟩
    let e := { jazzNight with doorsAt := some (nightTime 0 (-1)) }
    let records := [movedNight 1 (nightTime 2 24)]
    let o : SeriesOptions := ⟨4, false, some (nightTime 5 0)⟩
    ∃ os, g.series e records [] o = .ok os ∧
      os.map (·.slot) =
        [nightTime 0 0, nightTime 2 0, nightTime 1 0,
          nightTime 3 0] ∧
      g.Lists e records o os ∧ (os.map (·.slot)).Nodup := by
  intro g e records o
  have hSlots :
      (g.series e records [] o).map (·.map (·.slot)) =
        .ok [nightTime 0 0, nightTime 2 0, nightTime 1 0,
          nightTime 3 0] := by
    cbv
  rcases exists_ok_of_map hSlots with ⟨os, hSeries, hOsSlots⟩
  rcases series_lists hSeries with ⟨hLists, hNodup⟩
  exact ⟨os, hSeries, hOsSlots, hLists,
    hNodup rfl (Event.manualDates_of_nil rfl .utc)⟩

end Generator

end EventSeries
