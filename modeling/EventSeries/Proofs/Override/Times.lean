import EventSeries.Override
import EventSeries.Proofs.Calendar.Bounded
import EventSeries.Proofs.Series.Sources

/-
  The times of an override against those of the occurrence
  that it is made for.  Both are measured from the reference
  start of the event, so that they agree wherever there is
  one; an event without any start has no doors, end or curfew
  on its occurrences, while its overrides keep them as set.

  Main declarations:
    * `Event.cloneFor_eq_ok_iff`
    * `Event.HasTimesOf`
    * `Event.MeasuresTimes`
    * `Event.clone_hasTimesOf_iff_of_occurrenceAt`
    * `Generator.clone_hasTimesOf_iff`
-/

namespace EventSeries

------------------------------------------------------------
-- Copies Of An Event
------------------------------------------------------------

namespace Event

/- The copy of an event that happens once, at given times. -/
def copyAt
    (e : Event)
    (id : Id)
    (slug : String)
    (start : Instant)
    (doors finish curfew : Option Instant) : Event :=
  { e with
    id := id
    slug := slug
    recurrence := .none
    nextStart := none
    manualOccurrences := []
    parentSeries := some e.id
    parentOccurrenceStart := some start
    startsAt := some start
    doorsAt := doors
    endsAt := finish
    curfewAt := curfew }

variable {e clone : Event}
variable {id : Id}
variable {start : Instant}
variable {z : Zone}
variable {taken : SlugSet}
variable {x : Occurrence}

/- An override is made of its slug and its three times. -/
theorem cloneFor_eq_ok_iff :
    e.cloneFor id start z taken = .ok clone ↔
      ∃ slug doors finish curfew,
        e.occurrenceSlug start z taken = .ok slug ∧
        (e.cloneOffsets start).doorsAt start = .ok doors ∧
        (e.cloneOffsets start).endAt start = .ok finish ∧
        (e.cloneOffsets start).curfewAt start = .ok curfew ∧
        clone = e.copyAt id slug start doors finish curfew := by
  simp only [cloneFor, Bounded.bind_eq_ok_iff, pure,
    Except.pure, Except.ok.injEq, exists_and_left]
  simp only [copyAt, eq_comm (a := clone)]

------------------------------------------------------------
-- Times Of An Occurrence
------------------------------------------------------------

/- An event takes place at the times of an occurrence. -/
structure HasTimesOf
    (e : Event)
    (x : Occurrence) : Prop where
  start : e.startsAt = some x.start
  doors : e.doorsAt = x.doors
  finish : e.endsAt = x.finish
  curfew : e.curfewAt = x.curfew

/-
  The doors, end and curfew of an event can be measured: from
  a start that it has, or because none of them is set.
-/
def MeasuresTimes
    (e : Event) : Prop :=
  e.referenceStart?.isSome = true ∨
    (e.doorsAt = none ∧ e.endsAt = none ∧ e.curfewAt = none)

instance
    (e : Event) :
    Decidable e.MeasuresTimes := by
  unfold MeasuresTimes
  infer_instance

/- What can be measured is as far off on an override. -/
theorem cloneOffsets_of_measuresTimes
    (hMeasures : e.MeasuresTimes)
    (start : Instant) :
    e.cloneOffsets start = e.offsets := by
  unfold cloneOffsets offsets
  rcases hMeasures with hReference | ⟨hDoors, hEnd, hCurfew⟩
  · obtain ⟨reference, hReference⟩ :=
      Option.isSome_iff_exists.mp hReference
    rw [hReference]
    rfl
  · rw [hDoors, hEnd, hCurfew]
    cases e.referenceStart? <;> rfl

/- Without a reference, no time is carried over. -/
theorem times_of_no_reference
    (hAt : e.occurrenceAt start = .ok x)
    (hReference : e.referenceStart? = none) :
    x.doors = none ∧ x.finish = none ∧ x.curfew = none := by
  rcases times_of_occurrenceAt hAt with
    ⟨hDoors, hEnd, hCurfew, _⟩
  simp only [offsets, hReference] at hDoors hEnd hCurfew
  exact ⟨(Except.ok.inj hDoors).symm, (Except.ok.inj hEnd).symm,
    (Except.ok.inj hCurfew).symm⟩

end Event

/- A time that an event has is one of its copies as well. -/
theorem Offsets.eq_none_of_timeAt
    {reference start : Instant}
    {time : Option Instant}
    (hAt :
      timeAt start (spanFrom? (some reference) time) =
        .ok none) :
    time = none := by
  cases time with
  | none => rfl
  | some t =>
      rcases Bounded.map_eq_ok_iff.mp hAt with ⟨_, _, hSome⟩
      cases hSome

namespace Event

variable {e : Event}
variable {id : Id}
variable {z : Zone}
variable {taken : SlugSet}
variable {slug : String}
variable {x : Occurrence}

/-
  The override for a plain occurrence has its times exactly
  where the event can measure them.
-/
theorem clone_hasTimesOf_iff_of_occurrenceAt
    (hAt : e.occurrenceAt x.start = .ok x)
    (hSlug : e.occurrenceSlug x.start z taken = .ok slug) :
    (∃ clone,
      e.cloneFor id x.start z taken = .ok clone ∧
        clone.HasTimesOf x) ↔
      e.MeasuresTimes := by
  constructor
  · rintro ⟨clone, hClone, hTimes⟩
    by_cases hReference : e.referenceStart? = none
    · right
      rcases times_of_no_reference hAt hReference with
        ⟨hNoDoors, hNoEnd, hNoCurfew⟩
      rcases cloneFor_eq_ok_iff.mp hClone with
        ⟨_, doors, finish, curfew, _, hDoors, hEnd, hCurfew,
          rfl⟩
      -- The copy has the times it was made of, here none.
      have hDoorsEq : doors = none :=
        hTimes.doors.trans hNoDoors
      have hEndEq : finish = none :=
        hTimes.finish.trans hNoEnd
      have hCurfewEq : curfew = none :=
        hTimes.curfew.trans hNoCurfew
      subst hDoorsEq hEndEq hCurfewEq
      exact ⟨Offsets.eq_none_of_timeAt hDoors,
        Offsets.eq_none_of_timeAt hEnd,
        Offsets.eq_none_of_timeAt hCurfew⟩
    · left
      exact Option.isSome_iff_ne_none.mpr hReference
  · intro hMeasures
    rcases times_of_occurrenceAt hAt with
      ⟨hDoors, hEnd, hCurfew, _⟩
    rw [← cloneOffsets_of_measuresTimes hMeasures
      x.start] at hDoors hEnd hCurfew
    refine ⟨e.copyAt id slug x.start x.doors x.finish x.curfew,
      cloneFor_eq_ok_iff.mpr ?_, ⟨rfl, rfl, rfl, rfl⟩⟩
    exact ⟨slug, x.doors, x.finish, x.curfew, hSlug, hDoors,
      hEnd, hCurfew, rfl⟩

end Event

------------------------------------------------------------
-- Overrides For The Dates Of A Series
------------------------------------------------------------

namespace Generator

/-
  Of every date that a series lists as such, whichever way
  the series came about, the override has the times exactly
  where the event can measure them.
-/
theorem clone_hasTimesOf_iff
    {g : Generator}
    {e : Event}
    {records : List ExceptionRecord}
    {windows : List HolidayWindow}
    {o : SeriesOptions}
    {os : List Occurrence}
    {x : Occurrence}
    {id : Id}
    {taken : SlugSet}
    {slug : String}
    (hOs : g.series e records windows o = .ok os)
    (hMember : x ∈ os)
    (hPlain : x.isOverride = false)
    (hSlug : e.occurrenceSlug x.start g.zone taken = .ok slug) :
    (∃ clone,
      e.cloneFor id x.start g.zone taken = .ok clone ∧
        clone.HasTimesOf x) ↔
      e.MeasuresTimes := by
  exact Event.clone_hasTimesOf_iff_of_occurrenceAt
    ((yields_of_mem hOs hMember).occurrenceAt hPlain) hSlug

/- The second jazz night, with doors an hour before it. -/
theorem clone_hasTimesOf_iff_jazzNight :
    let g : Generator := ⟨.utc, nightTime 0 0, 6⟩
    let e :=
      { jazzNight with doorsAt := some (nightTime 0 (-1)) }
    let x : Occurrence :=
      ⟨e.id, nightTime 1 0, some (nightTime 1 (-1)), none, none,
        false, none⟩
    ∃ os slug,
      g.series e [] [] ⟨2, false, none⟩ = .ok os ∧
      x ∈ os ∧
      x.isOverride = false ∧
      e.occurrenceSlug x.start g.zone [] = .ok slug ∧
      ((∃ clone,
        e.cloneFor ⟨2⟩ x.start g.zone [] = .ok clone ∧
          clone.HasTimesOf x) ↔
        e.MeasuresTimes) := by
  intro g e x
  have hOs :
      g.series e [] [] ⟨2, false, none⟩ =
        .ok [⟨e.id, nightTime 0 0, some (nightTime 0 (-1)),
          none, none, false, none⟩, x] := by
    cbv
  have hMember :
      x ∈ [⟨e.id, nightTime 0 0, some (nightTime 0 (-1)),
        none, none, false, none⟩, x] :=
    .tail _ (.head _)
  have hFound :
      (e.occurrenceSlug x.start g.zone []).map String.length =
        .ok 23 := by
    cbv
  rcases exists_ok_of_map hFound with ⟨slug, hSlug, _⟩
  exact ⟨_, slug, hOs, hMember, rfl, hSlug,
    clone_hasTimesOf_iff hOs hMember rfl hSlug⟩

/- Nights listed by hand, with doors but without a start. -/
def listedNights : Event where
  id := ⟨1⟩
  title := "Jazz night"
  doorsAt := some (nightTime 0 (-1))
  manualOccurrences := ["2025-01-02T20:00", "2025-01-09T20:00"]

/-
  No listed night has doors, while the override made for the
  second of them opens its doors a week before it starts.
-/
theorem listedNights_clone_has_doors :
    let g : Generator := ⟨.utc, nightTime 0 0, 6⟩
    let o : SeriesOptions := ⟨2, false, none⟩
    let clone := listedNights.cloneFor ⟨2⟩ (nightTime 1 0)
      g.zone []
    (g.series listedNights [] [] o).map
        (·.map fun x => (x.isOverride, x.start, x.doors)) =
      .ok [(false, nightTime 0 0, none),
        (false, nightTime 1 0, none)] ∧
    clone.map (fun e => (e.startsAt, e.doorsAt)) =
      .ok (some (nightTime 1 0), some (nightTime 0 (-1))) := by
  exact ⟨by cbv, by cbv⟩

end Generator

end EventSeries
