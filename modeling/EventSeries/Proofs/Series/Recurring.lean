import Mathlib
import EventSeries.Proofs.Exception.Lookup
import EventSeries.Proofs.Series.Dates
import EventSeries.Series.Basic

/-
  The series of a recurring event is one walk, and the cached
  start of the event decides only where that walk begins.

  Main declarations:
    * `Event.withCache`
    * `ExceptionIndex.walkStart`
    * `Generator.series_eq_walk`
    * `Generator.series_withCache`
-/

namespace EventSeries

------------------------------------------------------------
-- Events With Another Cached Start
------------------------------------------------------------

/- An event with another cached start, or with none. -/
def Event.withCache
    (e : Event)
    (cached : Option Instant) : Event :=
  { e with nextStart := cached }

namespace Event

variable {e : Event}

@[simp] theorem withCache_nextStart
    (cached : Option Instant) :
    (e.withCache cached).nextStart = cached := rfl

@[simp] theorem withCache_id
    (cached : Option Instant) :
    (e.withCache cached).id = e.id := rfl

@[simp] theorem withCache_startsAt
    (cached : Option Instant) :
    (e.withCache cached).startsAt = e.startsAt := rfl

@[simp] theorem withCache_audience
    (cached : Option Instant) :
    (e.withCache cached).audience = e.audience := rfl

@[simp] theorem withCache_isRecurring
    (cached : Option Instant) :
    (e.withCache cached).isRecurring = e.isRecurring := rfl

@[simp] theorem withCache_withCache
    (cached other : Option Instant) :
    (e.withCache cached).withCache other =
      e.withCache other := rfl

theorem withCache_self
    {cached : Option Instant}
    (hCached : e.nextStart = cached) :
    e.withCache cached = e := by
  subst hCached
  rfl

/- Without entries there are no manual dates. -/
theorem manualDates_of_nil
    (hNone : e.manualOccurrences = [])
    (z : Zone) :
    (e.manualDates z).value = .ok [] := by
  have hEntries : e.manualEntries = [] := by
    simp [manualEntries, hNone]
  rw [manualDates, hEntries]
  change Except.ok (sortInstants []) = _
  simp [sortInstants]

/- Times at a start do not depend on the cache. -/
theorem occurrenceAt_withCache
    {start : Instant}
    (hStart : e.startsAt = some start)
    (cached : Option Instant) :
    (e.withCache cached).occurrenceAt = e.occurrenceAt := by
  have hOffsets : (e.withCache cached).offsets = e.offsets := by
    simp [offsets, referenceStart?, hStart, withCache]
  funext date
  simp [occurrenceAt, hOffsets]

end Event

------------------------------------------------------------
-- Walks That Agree
------------------------------------------------------------

/- Walks agree that visit and step alike. -/
theorem WalkPlan.walkFrom_congr
    {p q : WalkPlan}
    (hId : p.event.id = q.event.id)
    (hCount : p.options.maxOccurrences = q.options.maxOccurrences)
    (hVisit : p.visit = q.visit)
    (hNext : p.next? = q.next?)
    (n : Nat)
    (date : Instant)
    (s : WalkState) :
    p.walkFrom n date s = q.walkFrom n date s := by
  induction n generalizing date s with
  | zero => rfl
  | succ n ih =>
      simp only [walkFrom, isFilled, hId,
        hCount, hVisit, hNext, ih]
      rfl

------------------------------------------------------------
-- Where A Walk Begins
------------------------------------------------------------

/-
  The date to which a cached start is mapped back, and then
  the earliest date whose override was moved past that one.
-/
def ExceptionIndex.anchorFor
    (index : ExceptionIndex)
    (cached : Instant) : Instant :=
  let date := (index.replacedStart? cached).getD cached
  (index.movedPast? date).getD date

/-
  A cached start at which no override starts, and past which
  none was moved, is where the walk begins.
-/
theorem ExceptionIndex.anchorFor_eq_self
    {index : ExceptionIndex}
    (hFirst : index.IsFirst)
    {cached : Instant}
    (hUnreplaced :
      ∀ date, index.overrideStartOn? date ≠ some cached)
    (hUnmoved : ∀ date, ¬ index.MovedPast cached date) :
    index.anchorFor cached = cached := by
  have hReplaced : index.replacedStart? cached = none :=
    (replacedStart?_eq_none_iff hFirst).mpr hUnreplaced
  have hMoved : index.movedPast? cached = none :=
    (movedPast?_eq_none_iff hFirst).mpr hUnmoved
  simp [anchorFor, hReplaced, hMoved]

/-
  A walk begins on a date that an override is on, or else at
  the cached start itself.
-/
theorem ExceptionIndex.anchorFor_cases
    {index : ExceptionIndex}
    (hFirst : index.IsFirst)
    (cached : Instant) :
    (∃ start,
      index.overrideStartOn? (index.anchorFor cached) =
        some start) ∨
    (index.anchorFor cached = cached ∧
      (∀ date, index.overrideStartOn? date ≠ some cached) ∧
      ∀ date, ¬ index.MovedPast cached date) := by
  have hReplaced := replacedStart?_getD_cases hFirst cached
  rw [anchorFor]
  generalize
    (index.replacedStart? cached).getD cached = date
    at hReplaced ⊢
  rcases movedPast?_getD_cases hFirst date with
    ⟨⟨_, start, hStart, _⟩ | hSelf, hLeast⟩
  · exact Or.inl ⟨start, hStart⟩
  · rcases hReplaced with ⟨hStart, _⟩ | ⟨rfl, hNone⟩
    · left
      exact ⟨cached, (congrArg _ hSelf).trans hStart⟩
    · right
      refine ⟨hSelf, hNone, ?_⟩
      intro other hMoved
      have hLe := hLeast other hMoved
      rw [hSelf] at hLe
      have hBefore := hMoved.1
      grind

/-
  With more overrides in force a walk begins elsewhere only on
  a date that one of them is on.
-/
theorem ExceptionIndex.exists_override_of_anchorFor_ne
    {index other : ExceptionIndex}
    (hFirst : index.IsFirst)
    (hOtherFirst : other.IsFirst)
    (hGrows :
      ∀ date start, index.overrideStartOn? date = some start →
        other.overrideStartOn? date = some start)
    {cached : Instant}
    (hNe : other.anchorFor cached ≠ index.anchorFor cached) :
    ∃ start,
      other.overrideStartOn? (other.anchorFor cached) =
        some start := by
  rcases anchorFor_cases hOtherFirst cached with
    hOverride | ⟨hSelf, hUnreplaced, hUnmoved⟩
  · exact hOverride
  · exfalso
    apply hNe
    rw [hSelf]
    symm
    apply anchorFor_eq_self hFirst
    · intro date hStart
      exact hUnreplaced date (hGrows date cached hStart)
    · rintro date ⟨hBefore, start, hStart, hAfter⟩
      exact hUnmoved date
        ⟨hBefore, start, hGrows date start hStart, hAfter⟩

/- The date at which the walk of an event begins. -/
def ExceptionIndex.walkStart
    (index : ExceptionIndex)
    (start : Instant) : Option Instant → Instant
  | none => start
  | some cached => index.anchorFor cached

/- Where a walk begins depends on the overrides in force. -/
theorem ExceptionIndex.walkStart_congr
    {index other : ExceptionIndex}
    (hFirst : index.IsFirst)
    (hOtherFirst : other.IsFirst)
    (hSame :
      ∀ date, other.overrideStartOn? date =
        index.overrideStartOn? date)
    (start : Instant)
    (cached : Option Instant) :
    other.walkStart start cached =
      index.walkStart start cached := by
  cases cached with
  | none => rfl
  | some cached =>
      simp only [walkStart, anchorFor,
        replacedStart?_congr hFirst hOtherFirst hSame,
        movedPast?_congr hFirst hOtherFirst hSame]

/-
  The walk begins on the series if the cached start and the
  dates of all overrides in force are on it.
-/
theorem ExceptionIndex.hasDate_walkStart
    {index : ExceptionIndex}
    {e : Event}
    {z : Zone}
    {start : Instant}
    {here : LocalTime}
    {cached : Option Instant}
    (hFirst : index.IsFirst)
    (hStart : e.startsAt = some start)
    (hHere : z.toLocal start = .ok here)
    (hCached : ∀ c, cached = some c → e.HasDate z c)
    (hListed :
      ∀ date t, index.overrideStartOn? date = some t →
        e.HasDate z date) :
    e.HasDate z (index.walkStart start cached) := by
  cases cached with
  | none => exact ⟨start, here, hStart, hHere, .first⟩
  | some c =>
      rw [walkStart]
      rcases anchorFor_cases hFirst c with
        ⟨t, hOverride⟩ | ⟨hSelf, _⟩
      · exact hListed _ t hOverride
      · rw [hSelf]
        exact hCached c rfl

/- With the most attempts a walk may use as many as that. -/
theorem cappedProduct_largestWord
    {n : Nat}
    (hPos : 0 < n) :
    cappedProduct n largestWord = largestWord :=
  Nat.min_eq_right (Nat.le_mul_of_pos_left largestWord hPos)

namespace Generator

/- A cached start needs no start of the event. -/
theorem anchor?_of_cached
    {e : Event}
    {cached : Instant}
    (hRecurring : e.isRecurring = true)
    (index : ExceptionIndex) :
    anchor? (e.withCache (some cached)) index =
      some (index.anchorFor cached) := by
  simp [anchor?, Event.anchorStart?, hRecurring,
    ExceptionIndex.anchorFor, bind, Option.bind, pure]

theorem anchor?_withCache
    {e : Event}
    {start : Instant}
    (hRecurring : e.isRecurring = true)
    (hStart : e.startsAt = some start)
    (index : ExceptionIndex)
    (cached : Option Instant) :
    anchor? (e.withCache cached) index =
      some (index.walkStart start cached) := by
  cases cached with
  | none =>
      simp [anchor?, Event.anchorStart?, hRecurring, hStart,
        ExceptionIndex.walkStart, bind, Option.bind, pure]
  | some c => exact anchor?_of_cached hRecurring index

------------------------------------------------------------
-- One Walk
------------------------------------------------------------

theorem series_of_none_wanted
    {o : SeriesOptions}
    (hNone : o.maxOccurrences = 0)
    (g : Generator)
    (e : Event)
    (records : List ExceptionRecord)
    (windows : List HolidayWindow) :
    g.series e records windows o = .ok [] := by
  simp [series, tracedSeries, hNone]

/- Without an anchor there is no series. -/
theorem series_of_no_anchor
    {g : Generator}
    {e : Event}
    {records : List ExceptionRecord}
    {o : SeriesOptions}
    (hManual : (e.manualDates g.zone).value = .ok [])
    (hAnchor : anchor? e (.ofList e.id records) = none)
    (windows : List HolidayWindow) :
    g.series e records windows o = .ok [] := by
  by_cases hNone : o.maxOccurrences = 0
  · exact series_of_none_wanted hNone g e records windows
  · simp [series, tracedSeries, hNone, hManual, anchoredSeries,
      hAnchor]

theorem anchor?_of_unstarted
    {e : Event}
    (hStart : e.startsAt = none)
    (hUncached : e.nextStart = none)
    (index : ExceptionIndex) :
    anchor? e index = none := by
  simp [anchor?, Event.anchorStart?, hStart, hUncached, bind]

/- Without manual dates the series is that of the anchor. -/
theorem series_eq_recurringSeries
    {g : Generator}
    {e : Event}
    {records : List ExceptionRecord}
    {windows : List HolidayWindow}
    {o : SeriesOptions}
    {anchor : Instant}
    (hRecurring : e.isRecurring = true)
    (hManual : (e.manualDates g.zone).value = .ok [])
    (hAnchor :
      anchor? e (.ofList e.id records) = some anchor)
    (hWanted : 0 < o.maxOccurrences) :
    g.series e records windows o =
      (g.recurringSeries e (.ofList e.id records) windows o
        anchor).value := by
  have hCount : o.maxOccurrences ≠ 0 := by omega
  simp [series, tracedSeries, hCount, hManual,
    anchoredSeries, hAnchor, hRecurring]

/- The series is the walk, once its time of day is known. -/
theorem series_eq_walk
    {g : Generator}
    {e : Event}
    {records : List ExceptionRecord}
    {windows : List HolidayWindow}
    {o : SeriesOptions}
    {anchor : Instant}
    {time : ClockTime}
    (hRecurring : e.isRecurring = true)
    (hManual : (e.manualDates g.zone).value = .ok [])
    (hAnchor :
      anchor? e (.ofList e.id records) = some anchor)
    (hWanted : 0 < o.maxOccurrences)
    (hTime : g.timeOfDay e anchor = .ok time) :
    g.series e records windows o =
      ((g.plan e (.ofList e.id records) windows o time).walk
        anchor).occurrences := by
  rw [series_eq_recurringSeries hRecurring hManual hAnchor
    hWanted]
  simp [recurringSeries, hTime]

theorem series_of_time_error
    {g : Generator}
    {e : Event}
    {records : List ExceptionRecord}
    {windows : List HolidayWindow}
    {o : SeriesOptions}
    {anchor : Instant}
    {range : OutOfRange}
    (hRecurring : e.isRecurring = true)
    (hManual : (e.manualDates g.zone).value = .ok [])
    (hAnchor :
      anchor? e (.ofList e.id records) = some anchor)
    (hWanted : 0 < o.maxOccurrences)
    (hTime : g.timeOfDay e anchor = .error range) :
    g.series e records windows o = .error range := by
  rw [series_eq_recurringSeries hRecurring hManual hAnchor
    hWanted]
  simp [recurringSeries, hTime]

------------------------------------------------------------
-- The Cache And The Walk
------------------------------------------------------------

/- The plan of an event does not depend on its cache. -/
theorem walk_plan_withCache
    {g : Generator}
    {e : Event}
    {start : Instant}
    (hStart : e.startsAt = some start)
    (cached : Option Instant)
    (index : ExceptionIndex)
    (windows : List HolidayWindow)
    (o : SeriesOptions)
    (time : ClockTime)
    (anchor : Instant) :
    (g.plan (e.withCache cached) index windows o time).walk
        anchor =
      (g.plan e index windows o time).walk anchor := by
  have hVisit :
      (g.plan (e.withCache cached) index windows o time).visit =
        (g.plan e index windows o time).visit := by
    funext date
    simp only [WalkPlan.visit, WalkPlan.visitPlain, plan,
      Event.occurrenceAt_withCache hStart]
    rfl
  exact WalkPlan.walkFrom_congr
    (p := g.plan (e.withCache cached) _ _ _ _)
    (q := g.plan e index windows o time) rfl rfl hVisit rfl _ _ _

/- The time of day is that of the start of the event. -/
theorem timeOfDay_of_startsAt
    {g : Generator}
    {e : Event}
    {start : Instant}
    (hStart : e.startsAt = some start)
    (cached : Option Instant)
    (anchor : Instant) :
    g.timeOfDay (e.withCache cached) anchor =
      g.timeOfDay e start := by
  simp [timeOfDay, hStart]

theorem timeOfDay_eq_ok_iff
    {g : Generator}
    {e : Event}
    {start : Instant}
    {time : ClockTime}
    (hStart : e.startsAt = some start) :
    g.timeOfDay e start = .ok time ↔
      ∃ here, g.zone.toLocal start = .ok here ∧
        here.time = time := by
  rw [timeOfDay, hStart, Option.getD_some]
  cases g.zone.toLocal start with
  | error range => simp [bind, Except.bind]
  | ok here => simp [bind, Except.bind, pure, Except.pure]

theorem hasDate_iff
    {g : Generator}
    {e : Event}
    {start : Instant}
    {time : ClockTime}
    (hStart : e.startsAt = some start)
    (hTime : g.timeOfDay e start = .ok time)
    {date : Instant} :
    e.HasDate g.zone date ↔
      DateFrom (e.dateAfter? g.zone time) start date := by
  rcases (timeOfDay_eq_ok_iff hStart).mp hTime with
    ⟨here, hHere, rfl⟩
  constructor
  · rintro ⟨other, otherHere, hOther, hOtherHere, hDate⟩
    rw [hStart, Option.some.injEq] at hOther
    subst hOther
    rw [hHere, Except.ok.injEq] at hOtherHere
    subst hOtherHere
    exact hDate
  · intro hDate
    exact ⟨start, here, hStart, hHere, hDate⟩

/- With any cache the series is a walk of the same plan. -/
theorem series_withCache
    {g : Generator}
    {e : Event}
    {windows : List HolidayWindow}
    {o : SeriesOptions}
    {start : Instant}
    {time : ClockTime}
    (hRecurring : e.isRecurring = true)
    (hManual : (e.manualDates g.zone).value = .ok [])
    (hStart : e.startsAt = some start)
    (hWanted : 0 < o.maxOccurrences)
    (hTime : g.timeOfDay e start = .ok time)
    (records : List ExceptionRecord)
    (cached : Option Instant) :
    g.series (e.withCache cached) records windows o =
      ((g.plan e (.ofList e.id records) windows o time).walk
        ((ExceptionIndex.ofList e.id records).walkStart start
          cached)).occurrences := by
  have hAnchor :=
    anchor?_withCache hRecurring hStart
      (.ofList e.id records) cached
  have hCachedTime :=
    (timeOfDay_of_startsAt hStart cached
      ((ExceptionIndex.ofList e.id records).walkStart start
        cached)).trans hTime
  rw [series_eq_walk (e := e.withCache cached) hRecurring
    hManual hAnchor hWanted hCachedTime, Event.withCache_id,
    walk_plan_withCache hStart]

/- A series that has a result has a time of day. -/
theorem exists_timeOfDay_of_series
    {g : Generator}
    {e : Event}
    {records : List ExceptionRecord}
    {windows : List HolidayWindow}
    {o : SeriesOptions}
    {start : Instant}
    {cached : Option Instant}
    {os : List Occurrence}
    (hRecurring : e.isRecurring = true)
    (hManual : (e.manualDates g.zone).value = .ok [])
    (hStart : e.startsAt = some start)
    (hWanted : 0 < o.maxOccurrences)
    (hSeries :
      g.series (e.withCache cached) records windows o = .ok os) :
    ∃ time, g.timeOfDay e start = .ok time := by
  cases hTime : g.timeOfDay e start with
  | ok time => exact ⟨time, rfl⟩
  | error range =>
      have hAnchor :=
        anchor?_withCache hRecurring hStart
          (.ofList e.id records) cached
      have hCachedTime :=
        (timeOfDay_of_startsAt hStart cached
          ((ExceptionIndex.ofList e.id records).walkStart start
            cached)).trans hTime
      rw [series_of_time_error (e := e.withCache cached)
        hRecurring hManual hAnchor hWanted hCachedTime] at hSeries
      cases hSeries

section

variable {g : Generator}
variable {e : Event}
variable {windows : List HolidayWindow}
variable {o : SeriesOptions}
variable {start : Instant}
variable {time : ClockTime}

variable (hRecurring : e.isRecurring = true)
variable (hManual : (e.manualDates g.zone).value = .ok [])
variable (hStart : e.startsAt = some start)
variable (hWanted : 0 < o.maxOccurrences)
variable (hTime : g.timeOfDay e start = .ok time)

include hRecurring hManual hStart hWanted hTime

/- With its own cache it is the walk from where that begins. -/
theorem series_of_timeOfDay
    (records : List ExceptionRecord) :
    g.series e records windows o =
      ((g.plan e (.ofList e.id records) windows o time).walk
        ((ExceptionIndex.ofList e.id records).walkStart start
          e.nextStart)).occurrences :=
  series_withCache hRecurring hManual hStart hWanted hTime
    records e.nextStart

/- Without a cache it is the walk from the start. -/
theorem series_uncached
    (hUncached : e.nextStart = none)
    (records : List ExceptionRecord) :
    g.series e records windows o =
      ((g.plan e (.ofList e.id records) windows o time).walk
        start).occurrences := by
  rw [series_of_timeOfDay hRecurring hManual hStart hWanted
    hTime, hUncached]
  rfl

end

end Generator

------------------------------------------------------------
-- A Weekly Event
------------------------------------------------------------

/- So many hours after the jazz night of a week begins. -/
def nightTime
    (week : Nat)
    (hours : Int) : Instant :=
  ⟨1735848000 + 604800 * week + 3600 * hours, 0⟩

/- At eight on the last day of the calendar. -/
def lastNight : Instant :=
  ⟨(Date.last.dayNumber + 1) * secondsPerDay - 14400, 0⟩

/- An event on every Thursday at eight, used in examples. -/
def jazzNight : Event where
  id := ⟨1⟩
  title := "Jazz night"
  startsAt := some (nightTime 0 0)
  recurrence := .weekly (some 3)

/- The record that moves the night of a week. -/
def movedNight
    (week : Nat)
    (start : Instant) : ExceptionRecord :=
  .replacing jazzNight.id (nightTime week 0)
    { id := ⟨2⟩
      title := "Jazz night"
      startsAt := some start }

/- The only override in force then is that of its date. -/
theorem eq_of_movedNight
    {week : Nat}
    {moved date start : Instant}
    (hOverride :
      (ExceptionIndex.ofList jazzNight.id
        [movedNight week moved]).overrideStartOn? date =
          some start) :
    date = nightTime week 0 ∧ start = moved := by
  rcases
      ExceptionIndex.overrideStartOn?_eq_some_iff.mp hOverride with
    ⟨r, replacement, hRecord, hActive, hStart⟩
  rcases ExceptionIndex.mem_of_record?_ofList hRecord with
    ⟨hMember, _, rfl⟩
  rw [List.mem_singleton] at hMember
  subst hMember
  cases hActive
  cases hStart
  exact ⟨rfl, rfl⟩

/- Eight in the evening. -/
def nightClock : ClockTime :=
  ⟨72000, 0, by decide⟩

theorem jazzNight_timeOfDay
    (now : Instant)
    (attempts : Nat) :
    Generator.timeOfDay ⟨.utc, now, attempts⟩ jazzNight
      (nightTime 0 0) = .ok nightClock := by
  cbv

theorem jazzNight_hasDate_iff
    {date : Instant} :
    jazzNight.HasDate .utc date ↔
      DateFrom (jazzNight.dateAfter? .utc nightClock)
        (nightTime 0 0) date :=
  Generator.hasDate_iff (g := ⟨.utc, nightTime 0 0, 6⟩) rfl
    (jazzNight_timeOfDay _ _)

theorem jazzNight_dateAfter?_zero :
    jazzNight.dateAfter? .utc nightClock (nightTime 0 0) =
      some (nightTime 1 0) := by
  cbv

theorem jazzNight_dateAfter?_one :
    jazzNight.dateAfter? .utc nightClock (nightTime 1 0) =
      some (nightTime 2 0) := by
  cbv

theorem jazzNight_not_hasDate :
    ¬ jazzNight.HasDate .utc (nightTime 1 22) := by
  intro hDate
  have hFrom := jazzNight_hasDate_iff.mp hDate
  have hNights :=
    DateFrom.le_or_le_of_next?
      (fun _ _ hStep => Event.lt_of_dateAfter? hStep)
      (.next .first jazzNight_dateAfter?_zero)
      jazzNight_dateAfter?_one hFrom
  revert hNights
  decide

/- A result is seen through a function of it. -/
theorem exists_ok_of_map
    {ε α β : Type}
    {x : Except ε α}
    {f : α → β}
    {b : β}
    (hMap : x.map f = .ok b) :
    ∃ a, x = .ok a ∧ f a = b := by
  cases x with
  | error e => cases hMap
  | ok a => exact ⟨a, rfl, Except.ok.inj hMap⟩

end EventSeries
