import EventSeries.Proofs.Refresh.Unlisted

/-
  Only the first record of each date of a series counts.  A
  series asks its records for the one of a date, for the date
  that an override replaced, and for the earliest date moved
  past another.  Where the first records are the same, so are
  the three answers, whatever the order of the dates, and
  whatever later records and other series there are.

  Main declarations:
    * `ExceptionRecord.SameFirst`
    * `ExceptionRecord.sameFirst_iff`
    * `Generator.anchor?_congr`
    * `Generator.anchoredSeries_congr`
    * `Event.sameResults_of_sameFirst`
-/

namespace EventSeries

/- Two lists have the same first record on each date. -/
def ExceptionRecord.SameFirst
    (series : Id)
    (records others : List ExceptionRecord) : Prop :=
  ∀ date, first? records series date = first? others series date

namespace ExceptionRecord

variable {series : Id}
variable {records others : List ExceptionRecord}

theorem first?_eq_none_of_not_mem
    {date : Instant}
    (hNone : ∀ r ∈ records, r.occurrenceStart ≠ date) :
    first? records series date = none := by
  rw [first?, List.find?_eq_none]
  intro r hMember
  simp [hNone r hMember]

/- The dates that a record is about are all that need a look. -/
theorem sameFirst_iff :
    SameFirst series records others ↔
      ∀ r ∈ records ++ others,
        first? records series r.occurrenceStart =
          first? others series r.occurrenceStart := by
  constructor
  · exact fun hSame r _ => hSame r.occurrenceStart
  · intro hDates date
    by_cases hNone :
        ∀ r ∈ records ++ others, r.occurrenceStart ≠ date
    · rw [List.forall_mem_append] at hNone
      rw [first?_eq_none_of_not_mem hNone.1,
        first?_eq_none_of_not_mem hNone.2]
    · push Not at hNone
      rcases hNone with ⟨r, hMember, rfl⟩
      exact hDates r hMember

instance :
    Decidable (SameFirst series records others) :=
  decidable_of_iff _ sameFirst_iff.symm

end ExceptionRecord

------------------------------------------------------------
-- Indexes With The Same Records
------------------------------------------------------------

theorem ExceptionIndex.record?_of_sameFirst
    {series : Id}
    {records others : List ExceptionRecord}
    (hSame : ExceptionRecord.SameFirst series records others) :
    (ofList series records).record? =
      (ofList series others).record? := by
  funext date
  rw [record?_ofList, record?_ofList, hSame date]

section

variable {index other : ExceptionIndex}
variable (hSame : index.record? = other.record?)
include hSame

theorem ExceptionIndex.overrideStartOn?_congr
    (date : Instant) :
    index.overrideStartOn? date =
      other.overrideStartOn? date := by
  rw [overrideStartOn?, overrideStartOn?, hSame]

namespace Generator

variable {e : Event}
variable (hFirst : index.IsFirst)
variable (hOtherFirst : other.IsFirst)
include hFirst hOtherFirst

/-
  The date at which a walk begins, also from a cached start,
  is the same.
-/
theorem anchor?_congr :
    anchor? e index = anchor? e other := by
  have hStarts := ExceptionIndex.overrideStartOn?_congr hSame
  simp only [anchor?,
    ExceptionIndex.replacedStart?_congr hOtherFirst hFirst
      hStarts,
    ExceptionIndex.movedPast?_congr hOtherFirst hFirst hStarts]

/- So is the series from there, and what it reports. -/
theorem anchoredSeries_congr
    (g : Generator)
    (windows : List HolidayWindow)
    (o : SeriesOptions) :
    g.anchoredSeries e index windows o =
      g.anchoredSeries e other windows o := by
  have hWalk (time : ClockTime) (anchor : Instant) :
      (g.plan e index windows o time).walk anchor =
        (g.plan e other windows o time).walk anchor :=
    WalkPlan.walk_withIndex
      (p := g.plan e other windows o time)
      fun date _ => congrFun hSame date
  simp only [anchoredSeries, recurringSeries, hWalk,
    anchor?_congr hSame hFirst hOtherFirst]

end Generator

end

------------------------------------------------------------
-- The Same Results
------------------------------------------------------------

namespace Event

/-
  Lists with the same first records of an event give the same
  anchor, the same listings and the same refreshes.
-/
theorem sameResults_of_sameFirst
    (e : Event)
    (z : Zone)
    {records others : List ExceptionRecord}
    (hSame : ExceptionRecord.SameFirst e.id records others) :
    Generator.anchor? e (.ofList e.id records) =
        Generator.anchor? e (.ofList e.id others) ∧
      e.SameResults z records others := by
  have hRecord := ExceptionIndex.record?_of_sameFirst hSame
  have hFirst := ExceptionIndex.isFirst_ofList e.id
  have hSeries (s : Scheduler) (windows : List HolidayWindow)
      (o : SeriesOptions) :
      s.series e records windows o =
        s.series e others windows o := by
    have hAnchored :=
      Generator.anchoredSeries_congr (e := e) hRecord
        (hFirst records) (hFirst others) s.generator windows o
    simp only [Scheduler.series, Scheduler.tracedSeries,
      Generator.tracedSeries, hAnchored]
    split
    · rfl
    · split <;> rfl
  refine ⟨?_, ?_, ?_⟩
  · exact Generator.anchor?_congr hRecord (hFirst records)
      (hFirst others)
  · exact fun s windows o _ => hSeries s windows o
  · intro s windows maxOccurrences horizonEnd σ _ store _
    exact Scheduler.refresh_congr (hSeries s windows) store

/-
  Two jazz nights are put off to one evening, which is cached.
  The lists name them in either order, among later records for
  them and a record of another series.
-/
theorem sameResults_of_sameFirst_jazzNight :
    let e := jazzNight.withCache (some (nightTime 2 24))
    let records :=
      [movedNight 1 (nightTime 2 24),
        movedNight 2 (nightTime 2 24),
        .skip jazzNight.id (nightTime 1 0)]
    let others :=
      [.skip ⟨7⟩ (nightTime 1 0),
        movedNight 2 (nightTime 2 24),
        movedNight 1 (nightTime 2 24),
        .holiday jazzNight.id (nightTime 2 0)]
    ExceptionRecord.SameFirst e.id records others ∧
      Generator.anchor? e (.ofList e.id records) =
        some (nightTime 1 0) ∧
      Generator.anchor? e (.ofList e.id others) =
        some (nightTime 1 0) ∧
      e.SameResults .utc records others := by
  intro e records others
  have hSame :
      ExceptionRecord.SameFirst e.id records others := by
    decide
  have hBoth := sameResults_of_sameFirst e .utc hSame
  have hAnchor :
      Generator.anchor? e (.ofList e.id records) =
        some (nightTime 1 0) := by
    decide
  exact ⟨hSame, hAnchor, hBoth.1 ▸ hAnchor, hBoth.2⟩

end Event

end EventSeries
