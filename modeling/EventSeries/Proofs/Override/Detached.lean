import EventSeries.Event.Validation
import EventSeries.Proofs.Override.Slugs
import EventSeries.Proofs.Override.Times
import EventSeries.Proofs.Time.Spans
import EventSeries.Proofs.Zone.Placement
import EventSeries.Zone.Tables.Asia

/-
  An override stands on its own.  It is made wherever the
  calendar holds its times and a slug is left for it; it is
  then a valid event that happens once, whose series has the
  times that it was given, and it leaves a skip of its date
  behind when it is deleted.

  Main declarations:
    * `Offsets.timeAt_self`
    * `Event.StandsAlone`
    * `Event.standsAlone_of_cloneFor`
    * `Event.CanBeCloned`
    * `Event.exists_cloneFor_iff`
    * `Event.cloneFor_standsAlone`
    * `Event.cloneFor_out_of_range`
-/

namespace EventSeries

------------------------------------------------------------
-- Times That Were Carried Over
------------------------------------------------------------

namespace Offsets

/- A time in the calendar, and in no leap second. -/
def IsOrdinary
    (time : Option Instant) : Prop :=
  ∀ t, time = some t → t.isLeap = false ∧ t.InCalendar

variable {start : Instant}

/- Times carried over to an ordinary start are ordinary. -/
theorem isOrdinary_of_timeAt
    {span : Option Span}
    {time : Option Instant}
    (hStart : start.isLeap = false)
    (hAt : timeAt start span = .ok time) :
    IsOrdinary time := by
  rintro t rfl
  cases span with
  | none => cases hAt
  | some s =>
      rcases Bounded.map_eq_ok_iff.mp hAt with ⟨sum, hSum, hSome⟩
      cases hSome
      rcases Instant.eq_plusUnchecked_of_plus hSum with
        ⟨rfl, hInside⟩
      exact ⟨Instant.isLeap_plusUnchecked hStart s, hInside⟩

/- Measured from a start and carried over to it, they stay. -/
theorem timeAt_self
    {time : Option Instant}
    (hStart : start.isLeap = false)
    (hTime : IsOrdinary time) :
    timeAt start (spanFrom? (some start) time) = .ok time := by
  cases time with
  | none => rfl
  | some t =>
      rcases hTime t rfl with ⟨hLeap, hInside⟩
      exact Bounded.map_eq_ok_iff.mpr
        ⟨t, Instant.plus_since hStart hLeap hInside, rfl⟩

/- A time is carried over where the calendar holds the sum. -/
theorem exists_timeAt_iff
    {reference : Instant}
    {time : Option Instant} :
    (∃ there,
      timeAt start (spanFrom? (some reference) time) =
        .ok there) ↔
      ∀ t, time = some t →
        (start.plusUnchecked (t.since reference)).InCalendar := by
  cases time with
  | none => exact iff_of_true ⟨none, rfl⟩ nofun
  | some t =>
      simp only [Option.some.injEq, forall_eq']
      constructor
      · rintro ⟨there, hAt⟩
        rcases Bounded.map_eq_ok_iff.mp hAt with ⟨sum, hSum, _⟩
        rcases Instant.eq_plusUnchecked_of_plus hSum with
          ⟨rfl, hInside⟩
        exact hInside
      · intro hInside
        exact ⟨_, Bounded.map_eq_ok_iff.mpr
          ⟨_, if_pos hInside, rfl⟩⟩

/- Three times are carried over where the calendar holds each. -/
theorem exists_times_iff
    {reference : Instant}
    {doors finish curfew : Option Instant} :
    (∃ doorsThere finishThere curfewThere,
      timeAt start (spanFrom? (some reference) doors) =
        .ok doorsThere ∧
      timeAt start (spanFrom? (some reference) finish) =
        .ok finishThere ∧
      timeAt start (spanFrom? (some reference) curfew) =
        .ok curfewThere) ↔
      ∀ t, some t ∈ [doors, finish, curfew] →
        (start.plusUnchecked (t.since reference)).InCalendar := by
  simp only [exists_and_left, exists_and_right,
    exists_timeAt_iff, List.mem_cons, List.not_mem_nil,
    or_false, or_imp, forall_and, Eq.comm (a := some _)]

end Offsets

namespace Event

variable {e clone : Event}
variable {id : Id}
variable {start : Instant}
variable {z : Zone}
variable {taken : SlugSet}

------------------------------------------------------------
-- Overrides On Their Own
------------------------------------------------------------

/-
  The event with all that an override does not share with it
  taken from another: identity, slug, dates, links and times.
-/
def placedAs
    (e other : Event) : Event :=
  { e with
    id := other.id
    slug := other.slug
    recurrence := other.recurrence
    nextStart := other.nextStart
    manualOccurrences := other.manualOccurrences
    parentSeries := other.parentSeries
    parentOccurrenceStart := other.parentOccurrenceStart
    doorsAt := other.doorsAt
    startsAt := other.startsAt
    endsAt := other.endsAt
    curfewAt := other.curfewAt }

/- The event moved to other times. -/
def movedTo
    (e : Event)
    (doors start finish curfew : Option Instant) : Event :=
  { e with
    doorsAt := doors
    startsAt := start
    endsAt := finish
    curfewAt := curfew }

/- The one occurrence of an event that happens at a start. -/
def soleOccurrence
    (e : Event)
    (start : Instant) : Occurrence where
  event := e.id
  start := start
  doors := e.doorsAt
  finish := e.endsAt
  curfew := e.curfewAt
  isOverride := false
  sourceException := none

/-
  A copy of an event for one of its starts that needs nothing
  else: it is valid in every zone, has no dates but that
  start, keeps the contents of the event, makes a series by
  itself, and when it is deleted skips the start, wherever it
  has been moved.
-/
structure StandsAlone
    (clone e : Event)
    (start : Instant) : Prop where
  valid : ∀ z : Zone, clone.validate z = .ok ()
  recurrence : clone.recurrence = .none
  nextStart : clone.nextStart = none
  manualOccurrences : clone.manualOccurrences = []
  content : e.placedAs clone = clone
  series :
    ∀ (g : Generator) (records : List ExceptionRecord)
      (windows : List HolidayWindow) (o : SeriesOptions),
      0 < o.maxOccurrences → o.keeps g.now start = true →
        g.series clone records windows o =
          .ok [clone.soleOccurrence start]
  deletion :
    ∀ doors begin finish curfew,
      ExceptionRecord.afterDeletionOf?
          (clone.movedTo doors begin finish curfew) =
        some (.skip e.id start)

/- A single event with ordinary times has these at its start. -/
theorem occurrenceAt_of_single
    (hStart : start.isLeap = false)
    (hStarts : clone.startsAt = some start)
    (hDoors : Offsets.IsOrdinary clone.doorsAt)
    (hEnd : Offsets.IsOrdinary clone.endsAt)
    (hCurfew : Offsets.IsOrdinary clone.curfewAt) :
    clone.occurrenceAt start =
      .ok (clone.soleOccurrence start) := by
  have hReference : clone.referenceStart? = some start := by
    rw [referenceStart?, hStarts]
    rfl
  have hTime (time : Option Instant)
      (hOrdinary : Offsets.IsOrdinary time) :
      Offsets.timeAt start
          (Offsets.spanFrom? clone.referenceStart? time) =
        .ok time := by
    rw [hReference]
    exact Offsets.timeAt_self hStart hOrdinary
  simp only [occurrenceAt, offsets, Offsets.between,
    Offsets.doorsAt, Offsets.endAt, Offsets.curfewAt,
    hTime _ hDoors, hTime _ hEnd, hTime _ hCurfew]
  rfl

/- Whatever clone is made stands alone. -/
theorem standsAlone_of_cloneFor
    (hStart : start.isLeap = false)
    (hClone : e.cloneFor id start z taken = .ok clone) :
    clone.StandsAlone e start := by
  rcases cloneFor_eq_ok_iff.mp hClone with
    ⟨slug, doors, finish, curfew, _, hDoors, hEnd, hCurfew, rfl⟩
  constructor
  · intro z
    rfl
  · rfl
  · rfl
  · rfl
  · rfl
  · intro g records windows o hWanted hKeeps
    let copy := e.copyAt id slug start doors finish curfew
    have hAt :
        copy.occurrenceAt start =
          .ok (copy.soleOccurrence start) :=
      occurrenceAt_of_single hStart rfl
        (Offsets.isOrdinary_of_timeAt hStart hDoors)
        (Offsets.isOrdinary_of_timeAt hStart hEnd)
        (Offsets.isOrdinary_of_timeAt hStart hCurfew)
    rw [Generator.series_of_single rfl
      (manualDates_of_nil rfl g.zone) rfl hWanted,
      Generator.singleSeries, hAt]
    simp only [bind, Except.bind, hKeeps]
    rfl
  · intro _ _ _ _
    rfl

------------------------------------------------------------
-- Overrides That Can Be Made
------------------------------------------------------------

/-
  The arithmetic of an override stays in range: the zone shows
  its start on a date of the calendar, one of the candidates
  for its slug is free, and the calendar holds the times that
  are carried over to it.
-/
structure CanBeCloned
    (e : Event)
    (start : Instant)
    (z : Zone)
    (taken : SlugSet) : Prop where
  shown : (z.wallTime start).inUtc.InCalendar
  free :
    ∃ n ≤ largestSlugNumber,
      String.ofList (slugCandidate
        (e.occurrenceSlugBase (z.wallTime start)) n) ∉ taken
  times :
    ∀ t, some t ∈ [e.doorsAt, e.endsAt, e.curfewAt] →
      (start.plusUnchecked
        (t.since (e.referenceStart?.getD start))).InCalendar

theorem exists_freeSlug_iff
    {base : List Char} :
    (∃ slug, freeSlug taken base = .ok slug) ↔
      ∃ n ≤ largestSlugNumber,
        String.ofList (slugCandidate base n) ∉ taken := by
  rw [← not_iff_not]
  have hNone :
      firstFreeSlug? taken base largestSlugNumber 0 = none ↔
        ¬ ∃ n ≤ largestSlugNumber,
          String.ofList (slugCandidate base n) ∉ taken := by
    rw [firstFreeSlug?_eq_none_iff]
    simp
  rw [← hNone, freeSlug]
  cases firstFreeSlug? taken base largestSlugNumber 0 with
  | none => simp
  | some slug => simp

theorem exists_occurrenceSlug_iff :
    (∃ slug, e.occurrenceSlug start z taken = .ok slug) ↔
      (z.wallTime start).inUtc.InCalendar ∧
        ∃ slug,
          freeSlug taken
            (e.occurrenceSlugBase (z.wallTime start)) =
              .ok slug := by
  constructor
  · rintro ⟨slug, hSlug⟩
    rcases Bounded.bind_eq_ok_iff.mp hSlug with
      ⟨here, hHere, hFree⟩
    rcases Zone.eq_wallTime_of_toLocal hHere with
      ⟨rfl, hInside⟩
    exact ⟨hInside, slug, hFree⟩
  · rintro ⟨hInside, slug, hFree⟩
    exact ⟨slug, Bounded.bind_eq_ok_iff.mpr
      ⟨z.wallTime start, if_pos hInside, hFree⟩⟩

/- An override is made exactly where it stays in range. -/
theorem exists_cloneFor_iff :
    (∃ clone, e.cloneFor id start z taken = .ok clone) ↔
      e.CanBeCloned start z taken := by
  constructor
  · rintro ⟨clone, hClone⟩
    rcases cloneFor_eq_ok_iff.mp hClone with
      ⟨slug, doors, finish, curfew, hSlug, hDoors, hEnd,
        hCurfew, _⟩
    rcases exists_occurrenceSlug_iff.mp ⟨slug, hSlug⟩ with
      ⟨hShown, hFree⟩
    exact ⟨hShown, exists_freeSlug_iff.mp hFree,
      Offsets.exists_times_iff.mp
        ⟨doors, finish, curfew, hDoors, hEnd, hCurfew⟩⟩
  · rintro ⟨hShown, hFree, hTimes⟩
    rcases exists_occurrenceSlug_iff.mpr
        ⟨hShown, exists_freeSlug_iff.mpr hFree⟩ with
      ⟨slug, hSlug⟩
    rcases Offsets.exists_times_iff.mpr hTimes with
      ⟨doors, finish, curfew, hDoors, hEnd, hCurfew⟩
    exact ⟨_, cloneFor_eq_ok_iff.mpr
      ⟨slug, doors, finish, curfew, hSlug, hDoors, hEnd,
        hCurfew, rfl⟩⟩

/-
  For a start outside leap seconds the override is made
  wherever it stays in range, and stands alone; elsewhere
  there is none.
-/
theorem cloneFor_standsAlone
    (e : Event)
    (id : Id)
    (z : Zone)
    (taken : SlugSet)
    (hStart : start.isLeap = false) :
    (e.CanBeCloned start z taken →
      ∃ clone, e.cloneFor id start z taken = .ok clone ∧
        clone.StandsAlone e start) ∧
    (¬ e.CanBeCloned start z taken →
      ∃ range, e.cloneFor id start z taken = .error range) := by
  constructor
  · intro hRange
    have hMade :
        ∃ clone, e.cloneFor id start z taken = .ok clone :=
      exists_cloneFor_iff.mpr hRange
    rcases hMade with ⟨clone, hClone⟩
    exact ⟨clone, hClone, standsAlone_of_cloneFor hStart hClone⟩
  · intro hLeaves
    cases hClone : e.cloneFor id start z taken with
    | error range => exact ⟨range, rfl⟩
    | ok clone =>
        exact absurd (exists_cloneFor_iff.mp ⟨clone, hClone⟩)
          hLeaves

/-
  The override for the second jazz night, with doors an hour
  before it and an end three hours after.
-/
theorem cloneFor_standsAlone_jazzNight :
    let e :=
      { jazzNight with
        doorsAt := some (nightTime 0 (-1))
        endsAt := some (nightTime 0 3) }
    let start := nightTime 1 0
    start.isLeap = false ∧
      e.CanBeCloned start .utc [] ∧
        ∃ clone, e.cloneFor ⟨2⟩ start .utc [] = .ok clone ∧
          clone.StandsAlone e start := by
  intro e start
  have hStart : start.isLeap = false := by decide
  have hRange : e.CanBeCloned start .utc [] := by
    refine ⟨by decide, ⟨0, Nat.zero_le _, nofun⟩, ?_⟩
    intro t hTime
    simp only [e, jazzNight, List.mem_cons, Option.some.injEq,
      List.not_mem_nil, or_false, reduceCtorEq] at hTime
    rcases hTime with rfl | rfl
    · decide
    · decide
  exact ⟨hStart, hRange,
    (cloneFor_standsAlone e ⟨2⟩ .utc [] hStart).1 hRange⟩

/- All candidates for the slug of an override. -/
def slugCandidates
    (e : Event)
    (start : Instant)
    (z : Zone) : SlugSet :=
  (List.range (largestSlugNumber + 1)).map fun n =>
    String.ofList
      (slugCandidate (e.occurrenceSlugBase (z.wallTime start)) n)

/- Where they are all taken, there is no override. -/
theorem not_exists_cloneFor_of_slugCandidates
    (e : Event)
    (id : Id)
    (start : Instant)
    (z : Zone) :
    ¬ ∃ clone,
      e.cloneFor id start z (e.slugCandidates start z) =
        .ok clone := by
  rw [exists_cloneFor_iff]
  intro hRange
  rcases hRange.free with ⟨n, hTried, hFree⟩
  exact hFree (List.mem_map.mpr
    ⟨n, List.mem_range.mpr (Nat.lt_succ_of_le hTried), rfl⟩)

/-
  Three overrides that are not made, for starts in the
  calendar and outside leap seconds: in Tokyo the last night
  of the calendar is past its end; an end that is carried over
  to it is, too; and all candidates for the slug may be taken.
-/
theorem cloneFor_out_of_range :
    let long := { jazzNight with endsAt := some (nightTime 0 6) }
    let second := nightTime 1 0
    (lastNight.InCalendar ∧ lastNight.isLeap = false) ∧
    jazzNight.cloneFor ⟨2⟩ lastNight .tokyo [] =
      .error .calendar ∧
    long.cloneFor ⟨2⟩ lastNight .utc [] = .error .calendar ∧
    ¬ ∃ clone,
      jazzNight.cloneFor ⟨2⟩ second .utc
        (jazzNight.slugCandidates second .utc) = .ok clone := by
  intro long second
  exact ⟨by decide, by cbv, by decide +kernel,
    not_exists_cloneFor_of_slugCandidates jazzNight ⟨2⟩ second
      .utc⟩

end Event

end EventSeries
