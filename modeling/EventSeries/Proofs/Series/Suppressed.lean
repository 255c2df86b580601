import EventSeries.Proofs.Series.Entry
import EventSeries.Proofs.Series.Recurring

/-
  Records that put no override in force only take dates out of
  a series: each occurrence starts on its own date, the walk
  begins at the cached start, and the horizon reaches the
  dates that are within it.

  Main declarations:
    * `Event.OnlySuppressed`
    * `Event.OnlySuppressed.start_eq`
    * `Event.OnlySuppressed.reaches_eq`
-/

namespace EventSeries

------------------------------------------------------------
-- Records Without Overrides
------------------------------------------------------------

/- No record of the series puts an override in force. -/
def Event.OnlySuppressed
    (e : Event)
    (records : List ExceptionRecord) : Prop :=
  ∀ r ∈ records, r.series = e.id → r.activeOverride? = none

instance
    (e : Event)
    (records : List ExceptionRecord) :
    Decidable (e.OnlySuppressed records) :=
  inferInstanceAs (Decidable (∀ r ∈ records, _ → _))

namespace Event.OnlySuppressed

variable {e : Event}
variable {records : List ExceptionRecord}
variable (hSuppressed : e.OnlySuppressed records)
include hSuppressed

theorem overrideStartOn?_eq_none
    (date : Instant) :
    (ExceptionIndex.ofList e.id records).overrideStartOn? date =
      none := by
  cases hOverride :
      (ExceptionIndex.ofList e.id records).overrideStartOn?
        date with
  | none => rfl
  | some start =>
      rcases
          ExceptionIndex.overrideStartOn?_eq_some_iff.mp
            hOverride with
        ⟨r, replacement, hRecord, hActive, _⟩
      rcases ExceptionIndex.mem_of_record?_ofList hRecord with
        ⟨hMember, hSeries, _⟩
      rw [hSuppressed r hMember hSeries] at hActive
      cases hActive

/- Every cached start is where the walk begins. -/
theorem anchorFor
    (cached : Instant) :
    (ExceptionIndex.ofList e.id records).anchorFor cached =
      cached := by
  have hNone := hSuppressed.overrideStartOn?_eq_none
  apply ExceptionIndex.anchorFor_eq_self
    (ExceptionIndex.isFirst_ofList e.id records)
  · intro date hStart
    rw [hNone] at hStart
    cases hStart
  · rintro date ⟨_, start, hStart, _⟩
    rw [hNone] at hStart
    cases hStart

/- All occurrences start on their dates. -/
theorem start_eq
    {p : WalkPlan}
    {date : Instant}
    {o : Occurrence}
    (hIndex : p.index = .ofList e.id records)
    (hOn : p.occurrence? date = some o) :
    o.start = date := by
  rcases WalkPlan.start_of_occurrence? hOn with
    hPlain | hOverride
  · exact hPlain
  · rw [hIndex, hSuppressed.overrideStartOn?_eq_none]
      at hOverride
    cases hOverride

/- The horizon reaches the dates that are within it. -/
theorem reaches_eq
    {p : WalkPlan}
    (hIndex : p.index = .ofList e.id records) :
    p.reaches = p.options.withinHorizon := by
  funext date
  have hNone := hSuppressed.overrideStartOn?_eq_none date
  rw [ExceptionIndex.overrideStartOn?] at hNone
  rw [WalkPlan.reaches, SeriesOptions.reaches, hIndex, hNone]
  simp

end Event.OnlySuppressed

end EventSeries
