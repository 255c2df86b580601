import EventSeries.Proofs.Override.Detached
import EventSeries.Proofs.Refresh.Basic
import EventSeries.Proofs.Series.Range

/-
  Everything that a scheduler does inside the years 1 to 9999
  stays in range: its series, its refreshes, its horizon and
  its overrides, in every zone whose offsets are shorter than
  a day and with every rule and every setting.

  Main declarations:
    * `Event.canBeCloned_in_range`
    * `Event.cloneFor_in_range`
    * `Scheduler.refresh_in_range`
    * `CountsInRange`
    * `Scheduler.runs_in_range`
-/

namespace EventSeries

namespace Event

variable {e : Event}
variable {id : Id}
variable {start : Instant}
variable {z : Zone}
variable {taken : SlugSet}

variable (hShort : z.OffsetsShort)
variable (hEvent : ∀ t ∈ e.instants, t.InYears)
variable (hStart : start.InYears)
variable (hFew : taken.toFinset.card < largestSlugNumber)
include hShort hEvent hStart hFew

/- An override of an event of these years stays in range. -/
theorem canBeCloned_in_range :
    e.CanBeCloned start z taken := by
  rcases Zone.toLocal_meets hShort hStart.near (by decide) with
    ⟨here, hHere, rfl, _⟩
  have hReference : (e.referenceStart?.getD start).Near 0 := by
    cases hOwn : e.referenceStart? with
    | none => exact hStart.near
    | some r => exact referenceStart?_near hEvent r hOwn
  rcases times_near hEvent with ⟨_, _, hDoors, hEnd, hCurfew⟩
  constructor
  · exact (Zone.eq_wallTime_of_toLocal hHere).2
  · exact exists_freeSlug_iff.mp (exists_freeSlug hFew _)
  · intro t hTime
    have hNear : t.Near 0 := by
      simp only [List.mem_cons, List.not_mem_nil, or_false]
        at hTime
      rcases hTime with hTime | hTime | hTime
      · exact hDoors t hTime.symm
      · exact hEnd t hTime.symm
      · exact hCurfew t hTime.symm
    rcases Instant.plus_since_meets hStart.near (by decide)
        hNear hReference with
      ⟨sum, hSum, _⟩
    rw [← (Instant.eq_plusUnchecked_of_plus hSum).1]
    exact (Instant.eq_plusUnchecked_of_plus hSum).2

/- It is made, then, if a slug is left for it. -/
theorem cloneFor_in_range :
    ∃ clone, e.cloneFor id start z taken = .ok clone :=
  exists_cloneFor_iff.mpr
    (canBeCloned_in_range hShort hEvent hStart hFew)

end Event

namespace Scheduler

variable {s : Scheduler}
variable {e : Event}
variable {records : List ExceptionRecord}

variable (hShort : s.zone.OffsetsShort)
variable (hNow : s.now.InYears)
variable (hEvent : ∀ t ∈ e.instants, t.InYears)
variable (hManual : e.ManualInYears s.zone)
variable (hRecords :
  ∀ r ∈ records, ∀ t ∈ r.instants, t.InYears)
include hShort hNow hEvent hManual hRecords

/- A refresh comes to its write, with a horizon or without. -/
theorem refresh_in_range
    (windows : List HolidayWindow)
    (maxOccurrences : Nat)
    {horizonEnd : Option Instant}
    (hHorizon : ∀ h, horizonEnd = some h → h.InYears) :
    ∃ os, s.refreshSeries e records windows maxOccurrences
      horizonEnd = .ok os := by
  have hFound :
      (s.horizonOr horizonEnd).Meets (·.Near 5000000000) := by
    cases horizonEnd with
    | some horizon =>
        exact ⟨horizon, rfl,
          (hHorizon horizon rfl).near.mono (by decide)⟩
    | none => exact Settings.defaultHorizon_meets hShort hNow
  rcases hFound with ⟨horizon, hOr, hNear⟩
  have hSeries :
      ∃ os,
        s.series e records windows
          (refreshOptions maxOccurrences horizon) = .ok os :=
    Generator.series_in_range hEvent hRecords hShort hManual rfl
      hNear (by decide)
  rcases hSeries with ⟨os, hOs⟩
  exact ⟨os, refreshSeries_eq_ok_iff.mpr ⟨horizon, hOr, hOs⟩⟩

end Scheduler

------------------------------------------------------------
-- Counts
------------------------------------------------------------

/-
  The counts that are kept without a sign and not checked: no
  difference of them is taken of the smaller one, and the
  dates that a walk examines fit a machine word.
-/
structure CountsInRange : Prop where
  weekdays : ∀ v w : Weekday, v.index ≤ 7 + w.index
  firstMatches :
    ∀ year month first length w,
      Date.ofYearMonthDay? year month 1 = some first →
        daysInMonth year month = .ok length →
          1 + first.weekday.daysUntil w ≤ length ∧ length ≤ 31
  months : ∀ d : Date, 1 ≤ d.month ∧ d.month ≤ 12
  attempts :
    ∀ (g : Generator) (o : SeriesOptions) (p : WalkPlan) first,
      p.maxAttempts = g.maxAttempts o →
        (p.walk first).state.examined ≤ largestWord

theorem countsInRange :
    CountsInRange where
  weekdays v w := by
    have hIndex := v.index_lt
    omega
  firstMatches _ _ _ _ w hFirst hLength :=
    firstMatch_le hFirst hLength w
  months d := (Date.month_day_spec d).2.1
  attempts g o p first hAttempts := by
    have hExamined :=
      p.walkFrom_examined_le p.maxAttempts first {}
    have hCap : g.maxAttempts o ≤ largestWord :=
      Nat.min_le_right _ _
    rw [WalkPlan.walk]
    simp only [Nat.zero_add] at hExamined
    omega

------------------------------------------------------------
-- Schedulers
------------------------------------------------------------

/-
  With its present, the event, the listed dates and the
  records in the years 1 to 9999, a scheduler has every series
  with a horizon in these years, brings every refresh to its
  write, has a default horizon, and makes an override for
  every start in these years unless the slugs run out.
-/
theorem Scheduler.runs_in_range
    {s : Scheduler}
    {e : Event}
    {records : List ExceptionRecord}
    (hShort : s.zone.OffsetsShort)
    (hNow : s.now.InYears)
    (hEvent : ∀ t ∈ e.instants, t.InYears)
    (hManual : e.ManualInYears s.zone)
    (hRecords :
      ∀ r ∈ records, ∀ t ∈ r.instants, t.InYears)
    (windows : List HolidayWindow) :
    (∀ (o : SeriesOptions) (horizon : Instant),
      o.horizonEnd = some horizon → horizon.InYears →
        ∃ os, s.series e records windows o = .ok os) ∧
    (∀ (maxOccurrences : Nat) (horizonEnd : Option Instant),
      (∀ h, horizonEnd = some h → h.InYears) →
        ∃ os,
          s.refreshSeries e records windows maxOccurrences
            horizonEnd = .ok os ∧
          ∀ {σ : Type} [StartStore σ] (store : σ), ∃ log,
            s.refresh e records windows maxOccurrences
                horizonEnd store =
              { applyRefresh e os s.now store with
                log := log }) ∧
    (∃ horizon, s.defaultHorizon = .ok horizon) ∧
    (∀ (id : Id) (start : Instant) (taken : SlugSet),
      start.InYears → taken.toFinset.card < largestSlugNumber →
        ∃ clone,
          e.cloneFor id start s.zone taken = .ok clone) ∧
    CountsInRange := by
  refine ⟨?_, ?_, ?_, ?_, countsInRange⟩
  · intro o horizon hHorizon hYears
    exact Generator.series_in_range (g := s.generator) hEvent
      hRecords hShort hManual hHorizon hYears.near (by decide)
  · intro maxOccurrences horizonEnd hHorizon
    rcases refresh_in_range hShort hNow hEvent hManual hRecords
        windows maxOccurrences hHorizon with
      ⟨os, hOs⟩
    exact ⟨os, hOs, refresh_of_refreshSeries hOs⟩
  · rcases Settings.defaultHorizon_meets hShort hNow with
      ⟨horizon, hHorizon, _⟩
    exact ⟨horizon, hHorizon⟩
  · intro id start taken hStart hFew
    exact Event.cloneFor_in_range hShort hEvent hStart hFew

/- Jazz nights with a moved one, and one more listed by hand. -/
theorem Scheduler.runs_in_range_jazzNight :
    let s := Scheduler.inZone .utc (nightTime 0 0)
    let e :=
      { jazzNight with
        doorsAt := some (nightTime 0 (-1))
        manualOccurrences := ["2025-02-01T20:00"] }
    let records := [movedNight 2 (nightTime 4 24)]
    s.zone.OffsetsShort ∧
    s.now.InYears ∧
    (∀ t ∈ e.instants, t.InYears) ∧
    e.ManualInYears s.zone ∧
    (∀ r ∈ records, ∀ t ∈ r.instants, t.InYears) ∧
    ∃ horizon, s.defaultHorizon = .ok horizon := by
  intro s e records
  have hShort : s.zone.OffsetsShort := by decide
  have hNow : s.now.InYears := by decide
  have hEvent : ∀ t ∈ e.instants, t.InYears := by decide
  have hManual : e.ManualInYears s.zone := by
    have hEntries : e.manualEntries = ["2025-02-01T20:00"] := by
      cbv
    have hWall :
        ManualDate.reading?
            (trimChars "2025-02-01T20:00".toList) =
          some (.wall ⟨⟨20120⟩, ⟨72000, 0, by decide⟩⟩) := by
      cbv
    intro entry hMember r hReading
    rw [hEntries, List.mem_singleton] at hMember
    subst hMember
    rw [hWall, Option.some.injEq] at hReading
    subst hReading
    exact .inl (by decide)
  have hRecords :
      ∀ r ∈ records, ∀ t ∈ r.instants, t.InYears := by
    decide
  exact ⟨hShort, hNow, hEvent, hManual, hRecords,
    (runs_in_range hShort hNow hEvent hManual hRecords
      []).2.2.1⟩

end EventSeries
