import EventSeries.Proofs.Exception.Append
import EventSeries.Proofs.Override.Times
import EventSeries.Proofs.Series.Contract
import EventSeries.Proofs.Series.Reindexed
import EventSeries.Proofs.Series.Suppressed

/-
  A date made into an event of its own that nobody has edited
  yet.  With the record of the fresh override every walk finds
  on that date the occurrence that it found before, under the
  name of the override, and the same as before on all others.

  Main declarations:
    * `Visit.map`
    * `WalkPlan.walkFrom_map`
    * `Occurrence.standIn`
    * `WalkPlan.visit_standIn`
    * `Generator.anchor?_of_staying`
    * `Generator.series_materialized`
-/

namespace EventSeries

------------------------------------------------------------
-- Walks That Agree Up To A Map
------------------------------------------------------------

variable {f : Occurrence → Occurrence}

/- A visit that finds another occurrence, if it finds one. -/
def Visit.map
    (f : Occurrence → Occurrence) : Visit → Visit
  | .found o => .found (f o)
  | .pastHorizon => .pastHorizon
  | .left => .left
  | .hidden w => .hidden w

/- A state with other occurrences gathered. -/
def WalkState.map
    (f : Occurrence → Occurrence)
    (s : WalkState) : WalkState :=
  { s with collected := s.collected.map f }

/- A finished walk with other occurrences gathered. -/
def WalkEnd.map
    (f : Occurrence → Occurrence)
    (finish : WalkEnd) : WalkEnd :=
  ⟨finish.state.map f, finish.stop⟩

theorem WalkState.map_empty :
    ({} : WalkState).map f = {} := by
  simp [map]

theorem Visit.map_eq_pastHorizon_iff
    {visit : Visit} :
    visit.map f = .pastHorizon ↔ visit = .pastHorizon := by
  cases visit <;> simp [map]

theorem WalkState.record_map
    (s : WalkState)
    (event : Id)
    (date : Instant)
    (visit : Visit) :
    (s.map f).record event date (visit.map f) =
      (s.record event date visit).map f := by
  cases visit with
  | found o => simp [record, map, Visit.map]
  | pastHorizon => rfl
  | left => rfl
  | hidden w => rfl

/-
  Walks that step alike and visit alike up to a map gather the
  same up to it.  The induction is on the attempts; the state
  is mapped from the first date on.
-/
theorem WalkPlan.walkFrom_map
    {p q : WalkPlan}
    (hId : q.event.id = p.event.id)
    (hCount : q.options.maxOccurrences = p.options.maxOccurrences)
    (hNext : q.next? = p.next?)
    (hVisit : ∀ date, q.visit date = Visit.map f <$> p.visit date)
    (n : Nat)
    (date : Instant)
    (s : WalkState) :
    q.walkFrom n date (s.map f) = (p.walkFrom n date s).map f := by
  induction n generalizing date s with
  | zero => rfl
  | succ n ih =>
      have hFilled (s : WalkState) :
          q.isFilled (s.map f) = p.isFilled s := by
        simp [isFilled, hCount, WalkState.map]
      rw [walkFrom, walkFrom, hVisit]
      cases p.visit date with
      | error range => rfl
      | ok visit =>
          simp only [Functor.map, Except.map, hId,
            WalkState.record_map, Visit.map_eq_pastHorizon_iff,
            hFilled, hNext]
          generalize s.record p.event.id date visit = s'
          split
          · rfl
          · split
            · rfl
            · split
              · rfl
              · rfl
              · exact ih _ s'

/- A map that keeps starts may come before the sorting. -/
theorem WalkEnd.occurrences_map
    (hStart : ∀ o, (f o).start = o.start)
    (finish : WalkEnd) :
    (finish.map f).occurrences =
      finish.occurrences.map (·.map f) := by
  have hSort (os : List Occurrence) :
      sortOccurrences (os.map f) = (sortOccurrences os).map f := by
    symm
    apply List.map_mergeSort
    intro a _ b _
    rw [hStart, hStart]
  unfold occurrences map
  cases finish.stop <;>
    simp [WalkState.map, hSort, Except.map]

------------------------------------------------------------
-- Standing In For An Occurrence
------------------------------------------------------------

/- An occurrence at its times, as that of an override. -/
def Occurrence.standIn
    (x : Occurrence)
    (series id : Id) : Occurrence :=
  { x with
    event := id
    isOverride := true
    sourceException := some ⟨series, x.start⟩ }

/- One occurrence in the place of another. -/
def Occurrence.exchange
    (x y o : Occurrence) : Occurrence :=
  if o = x then y else o

/- On a list that has it once, that is to replace it. -/
theorem Occurrence.map_exchange
    {os : List Occurrence}
    (hOnce : os.Nodup)
    (x y : Occurrence) :
    os.map (x.exchange y) = os.replace x y := by
  induction os with
  | nil => rfl
  | cons o os ih =>
      rw [List.nodup_cons] at hOnce
      rw [List.map_cons, exchange]
      by_cases hHere : o = x
      · subst hHere
        have hRest : os.map (o.exchange y) = os := by
          rw [ih hOnce.2, List.replace_of_not_mem hOnce.1]
        simp [hRest]
      · rw [if_neg hHere, ih hOnce.2, List.replace_cons,
          beq_false_of_ne (Ne.symm hHere)]

namespace WalkPlan

variable {p : WalkPlan}
variable {index : ExceptionIndex}
variable {x : Occurrence}
variable {series : Id}
variable {clone : Event}

/- What a visit finds stands on the visited date. -/
theorem slot_of_visit
    {date : Instant}
    (hVisit : p.visit date = .ok (.found x)) :
    x.slot = date := by
  cases hReaches : p.reaches date with
  | false =>
      rw [visit_of_not_reaches hReaches] at hVisit
      cases hVisit
  | true =>
      rcases visit_cases hReaches with
        ⟨⟨visit, hOk, _, hFound⟩, _⟩ | ⟨⟨range, hError⟩, _⟩
      · rw [hVisit, Except.ok.injEq] at hOk
        subst hOk
        exact slot_of_occurrence?
          (kept?_eq_some_iff.mp hFound.symm).1
      · rw [hVisit] at hError
        cases hError

/- A date that the walk shows as the event's own is open. -/
theorem open_of_plain
    {date : Instant}
    (hOn : p.occurrence? date = some x)
    (hPlain : x.isOverride = false) :
    x.start = date ∧
      p.index.record? date = none ∧
      HolidayWindow.blocking? p.windows p.event.audience
        date = none := by
  rcases occurrence?_cases hOn with
    ⟨_, hStart, hRecord⟩ | ⟨hOverride, _⟩
  · refine ⟨hStart, hRecord, ?_⟩
    rw [HolidayWindow.blocking?_eq_none_iff]
    cases hHidden :
        p.windows.any (·.hides p.event.audience date) with
    | false => rfl
    | true =>
        simp [occurrence?, entry, Event.occurrenceOn, hRecord,
          hHidden, Except.toOption] at hOn
  · rw [hPlain] at hOverride
    cases hOverride

section

variable (hAt : p.event.occurrenceAt x.start = .ok x)
variable (hRecord : p.index.record? x.start = none)
variable (hOpen :
  HolidayWindow.blocking? p.windows p.event.audience x.start =
    none)
variable (hAdded :
  index.record? x.start =
    some (.replacing series x.start clone))
variable (hOthers :
  ∀ date, date ≠ x.start →
    index.record? date = p.index.record? date)
variable (hTimes : clone.HasTimesOf x)
include hAt hRecord hOpen hAdded hOthers hTimes

/-
  With the record of an override at the times of a plain
  occurrence, every visit finds what it found without, but for
  the occurrence that the override stands in for.
-/
theorem visit_standIn
    (date : Instant) :
    (p.withIndex index).visit date =
      Visit.map (x.exchange (x.standIn series clone.id)) <$>
        p.visit date := by
  by_cases hDate : date = x.start
  · subst hDate
    have hStand :
        clone.overrideOccurrence ⟨series, x.start⟩ x.start =
          x.standIn series clone.id := by
      simp [Event.overrideOccurrence, Occurrence.standIn,
        hTimes.doors, hTimes.finish, hTimes.curfew]
    by_cases hWithin : p.options.withinHorizon x.start = true
    · have hVisit :
          p.visit x.start =
            if p.options.admits p.now x.start then
              .ok (.found x)
            else
              .ok .left := by
        simp [visit, hWithin, resolve_eq, hRecord, visitPlain,
          hOpen, hAt, Functor.map, Except.map]
      have hActive :
          (ExceptionRecord.replacing series x.start
            clone).activeOverride? = some clone := rfl
      have hKey :
          (ExceptionRecord.replacing series x.start clone).key =
            ⟨series, x.start⟩ := rfl
      rw [hVisit]
      by_cases hAdmits : p.options.admits p.now x.start = true
      · simp [visit, withIndex, hWithin, resolve_eq, hAdded,
          hActive, hKey, visitOverride, hTimes.start, hAdmits,
          hStand, Visit.map, Occurrence.exchange, Functor.map,
          Except.map]
      · simp [visit, withIndex, hWithin, resolve_eq, hAdded,
          hActive, visitOverride, hTimes.start, hAdmits,
          Visit.map, Functor.map, Except.map]
    · simp [visit, withIndex, hWithin, Visit.map, Functor.map,
        Except.map]
  · rw [visit_withIndex (hOthers date hDate)]
    cases hVisit : p.visit date with
    | error range => rfl
    | ok visit =>
        cases visit with
        | found y =>
            have hSlot := slot_of_visit hVisit
            have hOther : y ≠ x := by
              rintro rfl
              rcases Event.eq_of_occurrenceAt hAt with
                ⟨_, _, _, hEq⟩
              apply hDate
              rw [← hSlot, Occurrence.slot, hEq]
            simp [Visit.map, Occurrence.exchange, hOther,
              Functor.map, Except.map]
        | pastHorizon => rfl
        | left => rfl
        | hidden w => rfl

/- The walk then lists the override in its place. -/
theorem occurrences_standIn
    (hWanted : 0 < p.options.maxOccurrences)
    (first : Instant) :
    ((p.withIndex index).walk first).occurrences =
      (p.walk first).occurrences.map
        (·.replace x (x.standIn series clone.id)) := by
  have hWalk :
      (p.withIndex index).walk first =
        (p.walk first).map
          (x.exchange (x.standIn series clone.id)) := by
    have hRun :=
      walkFrom_map (p := p) (q := p.withIndex index) rfl rfl rfl
        (visit_standIn hAt hRecord hOpen hAdded hOthers hTimes)
        p.maxAttempts first {}
    rw [WalkState.map_empty] at hRun
    exact hRun
  have hStart (o : Occurrence) :
      (x.exchange (x.standIn series clone.id) o).start =
        o.start := by
    unfold Occurrence.exchange
    split
    · subst o
      rfl
    · rfl
  rw [hWalk, WalkEnd.occurrences_map hStart]
  cases hOs : (p.walk first).occurrences with
  | error range => rfl
  | ok os =>
      have hOnce : os.Nodup :=
        (Generator.nodup_slots_of_walk hWanted hOs).of_map
      simp only [Except.map, Occurrence.map_exchange hOnce]

end

end WalkPlan

------------------------------------------------------------
-- Overrides That Stay On Their Dates
------------------------------------------------------------

/- Overrides that move no date move no start of a walk. -/
theorem ExceptionIndex.anchorFor_of_staying
    {index : ExceptionIndex}
    (hFirst : index.IsFirst)
    (hStay :
      ∀ date start, index.overrideStartOn? date = some start →
        start = date)
    (cached : Instant) :
    index.anchorFor cached = cached := by
  have hReplaced :
      (index.replacedStart? cached).getD cached = cached := by
    rcases replacedStart?_getD_cases hFirst cached with
      ⟨hStart, _⟩ | ⟨hSelf, _⟩
    · exact (hStay _ _ hStart).symm
    · exact hSelf
  have hMoved : index.movedPast? cached = none := by
    apply (movedPast?_eq_none_iff hFirst).mpr
    rintro date ⟨hBefore, start, hStart, hAfter⟩
    rw [hStay date start hStart] at hAfter
    exact Std.lt_irrefl (Std.lt_of_lt_of_le hBefore hAfter)
  rw [anchorFor, hReplaced, hMoved, Option.getD_none]

namespace Generator

/- An event is then walked from its own start or cache. -/
theorem anchor?_of_staying
    {e : Event}
    {index : ExceptionIndex}
    (hFirst : index.IsFirst)
    (hStay :
      e.nextStart = none ∨
        ∀ date start,
          index.overrideStartOn? date = some start →
            start = date) :
    anchor? e index = e.anchorStart? := by
  unfold anchor?
  cases hAnchor : e.anchorStart? with
  | none => rfl
  | some anchor =>
      rcases hStay with hUncached | hStay
      · simp [hUncached, bind, pure]
      · have hSame :=
          ExceptionIndex.anchorFor_of_staying hFirst hStay anchor
        rw [ExceptionIndex.anchorFor] at hSame
        simp [bind, pure, hSame]

section

variable {e : Event}
variable {records : List ExceptionRecord}
variable (hCache : e.nextStart = none ∨ e.OnlySuppressed records)
include hCache

/-
  The record of an override that stays on its date, a date
  without one so far, leaves the start of the walk as it was.
-/
theorem anchor?_append_staying
    {r : ExceptionRecord}
    (hSeries : r.series = e.id)
    (hNew :
      (ExceptionIndex.ofList e.id records).record?
        r.occurrenceStart = none)
    (hStays :
      ExceptionIndex.overrideStart? r = some r.occurrenceStart) :
    anchor? e (.ofList e.id (records ++ [r])) =
      anchor? e (.ofList e.id records) := by
  rw [anchor?_of_staying (ExceptionIndex.isFirst_ofList _ _),
    anchor?_of_staying (ExceptionIndex.isFirst_ofList _ _)]
  · apply hCache.imp_right
    intro hSuppressed date start hOverride
    rw [hSuppressed.overrideStartOn?_eq_none] at hOverride
    cases hOverride
  · apply hCache.imp_right
    intro hSuppressed date start hOverride
    by_cases hDate : date = r.occurrenceStart
    · subst hDate
      rw [ExceptionIndex.overrideStartOn?,
        ExceptionIndex.record?_ofList_append_self hSeries hNew,
        Option.bind_some, hStays, Option.some.injEq] at hOverride
      exact hOverride.symm
    · have hNone := hSuppressed.overrideStartOn?_eq_none date
      rw [ExceptionIndex.overrideStartOn?] at hOverride hNone
      rw [ExceptionIndex.record?_ofList_append_of_ne hDate,
        hNone] at hOverride
      cases hOverride

end

end Generator

/- What a recurring event is walked from measures its times. -/
theorem Event.measuresTimes_of_anchorStart?
    {e : Event}
    {anchor : Instant}
    (hAnchor : e.anchorStart? = some anchor) :
    e.MeasuresTimes := by
  left
  unfold anchorStart? at hAnchor
  unfold referenceStart?
  cases hStart : e.startsAt with
  | some start => rfl
  | none =>
      cases hNext : e.nextStart with
      | some next => rfl
      | none => simp [hStart, hNext] at hAnchor

------------------------------------------------------------
-- Series With A Date Made Into An Event
------------------------------------------------------------

namespace Generator

section

variable {g : Generator}
variable {e clone : Event}
variable {records : List ExceptionRecord}
variable {windows : List HolidayWindow}
variable {o : SeriesOptions}
variable {os : List Occurrence}
variable {x : Occurrence}

variable (hRecurring : e.isRecurring = true)
variable (hManual : (e.manualDates g.zone).value = .ok [])
include hRecurring hManual

/- A date that a series shows as the event's own is open. -/
theorem open_of_mem
    (hOs : g.series e records windows o = .ok os)
    (hMember : x ∈ os)
    (hPlain : x.isOverride = false) :
    (∃ anchor, e.anchorStart? = some anchor) ∧
      (ExceptionIndex.ofList e.id records).record? x.start =
        none ∧
      HolidayWindow.blocking? windows e.audience x.start =
        none := by
  by_cases hNone : o.maxOccurrences = 0
  · rw [series_of_none_wanted hNone, Except.ok.injEq] at hOs
    subst hOs
    cases hMember
  · have hWanted : 0 < o.maxOccurrences := by omega
    cases hAnchor : anchor? e (.ofList e.id records) with
    | none =>
        rw [series_of_no_anchor hManual hAnchor,
          Except.ok.injEq] at hOs
        subst hOs
        cases hMember
    | some anchor =>
        rcases exists_walk_of_series hRecurring hManual hAnchor
            hWanted hOs with
          ⟨time, _, hWalk⟩
        rcases WalkPlan.exists_date_of_mem_walk hWalk hWanted
            hMember with
          ⟨date, _, hKept⟩
        rcases WalkPlan.open_of_plain
            (WalkPlan.kept?_eq_some_iff.mp hKept).1 hPlain with
          ⟨rfl, hRecord, hOpen⟩
        refine ⟨?_, hRecord, hOpen⟩
        cases hStart : e.anchorStart? with
        | some start => exact ⟨start, rfl⟩
        | none => simp [anchor?, hStart, bind] at hAnchor

/-
  With the record of an override at the times of an open date
  the series has the override in its place, whichever options
  it is listed with, and fails where it failed before.
-/
theorem series_standIn
    (hCache : e.nextStart = none ∨ e.OnlySuppressed records)
    (hAt : e.occurrenceAt x.start = .ok x)
    (hNew :
      (ExceptionIndex.ofList e.id records).record? x.start =
        none)
    (hOpen :
      HolidayWindow.blocking? windows e.audience x.start = none)
    (hTimes : clone.HasTimesOf x) :
    g.series e (records ++ [.replacing e.id x.start clone])
        windows o =
      (g.series e records windows o).map
        (·.replace x (x.standIn e.id clone.id)) := by
  by_cases hNone : o.maxOccurrences = 0
  · rw [series_of_none_wanted hNone, series_of_none_wanted hNone]
    rfl
  · have hWanted : 0 < o.maxOccurrences := by omega
    have hAnchors :=
      anchor?_append_staying hCache
        (r := .replacing e.id x.start clone) rfl hNew hTimes.start
    cases hAnchor : anchor? e (.ofList e.id records) with
    | none =>
        rw [series_of_no_anchor hManual hAnchor,
          series_of_no_anchor hManual (hAnchors.trans hAnchor)]
        rfl
    | some anchor =>
        rw [hAnchor] at hAnchors
        cases hTime : g.timeOfDay e anchor with
        | error range =>
            rw [series_of_time_error hRecurring hManual hAnchor
                hWanted hTime,
              series_of_time_error hRecurring hManual hAnchors
                hWanted hTime]
            rfl
        | ok time =>
            rw [series_eq_walk hRecurring hManual hAnchor
                hWanted hTime,
              series_eq_walk hRecurring hManual hAnchors
                hWanted hTime]
            exact WalkPlan.occurrences_standIn
              (p := g.plan e (.ofList e.id records) windows o
                time)
              hAt hNew hOpen
              (ExceptionIndex.record?_ofList_append_self
                (r := .replacing e.id x.start clone) rfl hNew)
              (fun _ hOther =>
                ExceptionIndex.record?_ofList_append_of_ne
                  hOther)
              hTimes hWanted anchor

/-
  Every date that a series shows as its own can be made into
  an event of its own.  With the record of that event, not
  edited yet, the series of any moment, number of attempts and
  options is what it was, but for the name and the source of
  the one occurrence that the event stands in for.
-/
theorem series_materialized
    {id : Id}
    {taken : SlugSet}
    {slug : String}
    (hCache : e.nextStart = none ∨ e.OnlySuppressed records)
    (hOs : g.series e records windows o = .ok os)
    (hMember : x ∈ os)
    (hPlain : x.isOverride = false)
    (hSlug : e.occurrenceSlug x.start g.zone taken = .ok slug) :
    ∃ clone,
      e.cloneFor id x.start g.zone taken = .ok clone ∧
      ∀ (now : Instant) (attempts : Nat) (o : SeriesOptions),
        let g : Generator := ⟨g.zone, now, attempts⟩
        g.series e (records ++ [.replacing e.id x.start clone])
            windows o =
          (g.series e records windows o).map
            (·.replace x (x.standIn e.id id)) := by
  rcases open_of_mem hRecurring hManual hOs hMember hPlain with
    ⟨⟨anchor, hAnchor⟩, hNew, hOpen⟩
  have hAt := (yields_of_mem hOs hMember).occurrenceAt hPlain
  rcases (Event.clone_hasTimesOf_iff_of_occurrenceAt hAt
      hSlug).mpr (Event.measuresTimes_of_anchorStart? hAnchor) with
    ⟨clone, hClone, hTimes⟩
  have hId : clone.id = id := by
    rcases Event.cloneFor_eq_ok_iff.mp hClone with
      ⟨_, _, _, _, _, _, _, _, rfl⟩
    rfl
  refine ⟨clone, hClone, ?_⟩
  intro now attempts o g'
  rw [← hId]
  exact series_standIn (g := g') hRecurring hManual hCache hAt
    hNew hOpen hTimes

end

/-
  The second jazz night is made into an event of its own while
  the third is moved behind the fifth.
-/
theorem series_materialized_jazzNight :
    let g : Generator := ⟨.utc, nightTime 0 0, 6⟩
    let e :=
      { jazzNight with doorsAt := some (nightTime 0 (-1)) }
    let records := [movedNight 2 (nightTime 4 24)]
    let x : Occurrence :=
      ⟨e.id, nightTime 1 0, some (nightTime 1 (-1)), none, none,
        false, none⟩
    ∃ clone,
      e.cloneFor ⟨7⟩ x.start g.zone [] = .ok clone ∧
      ∀ (now : Instant) (attempts : Nat) (o : SeriesOptions),
        let g : Generator := ⟨g.zone, now, attempts⟩
        g.series e (records ++ [.replacing e.id x.start clone])
            [] o =
          (g.series e records [] o).map
            (·.replace x (x.standIn e.id ⟨7⟩)) := by
  intro g e records x
  have hOs :
      g.series e records [] ⟨2, false, none⟩ =
        .ok [⟨e.id, nightTime 0 0, some (nightTime 0 (-1)),
          none, none, false, none⟩, x] := by
    cbv
  have hFound :
      (e.occurrenceSlug x.start g.zone []).map String.length =
        .ok 23 := by
    cbv
  rcases exists_ok_of_map hFound with ⟨slug, hSlug, _⟩
  exact series_materialized (g := g) rfl
    (Event.manualDates_of_nil rfl g.zone) (.inl rfl) hOs
    (.tail _ (.head _)) rfl hSlug

end Generator

end EventSeries
