import EventSeries.Proofs.Time.Years
import EventSeries.Proofs.Zone.Placement

/-
  Conversions between instants and wall times stay inside the
  calendar near the years 1 to 9999.  An offset shorter than a
  day moves neither by more than a day, and the wall times
  that clocks skip are read with the offset of a day before.

  Main declarations:
    * `Zone.toLocal_meets`
    * `Zone.localize_meets`
-/

namespace EventSeries.Zone

variable {z : Zone}
variable {slack : Int}

/- The sum of an instant and some seconds near to it. -/
theorem plus_ofSeconds_meets
    {t : Instant}
    {seconds : Int}
    (hNear : t.Near slack)
    (hSlack : slack ≤ 4000000000000)
    (hDay :
      -(secondsPerDay : Int) ≤ seconds ∧
        seconds ≤ secondsPerDay) :
    ∃ sum, t.plus (Span.ofSeconds seconds) = .ok sum := by
  have hSum :=
    Instant.seconds_plusUnchecked_ofSeconds hNear.nanos seconds
  have hFirst := hNear.first
  have hLast := hNear.last
  have hInside :
      (t.plusUnchecked (Span.ofSeconds seconds)).InCalendar := by
    simp only [firstSecond, endSecond, secondsPerDay]
      at hSum hFirst hLast hDay
    simp only [Instant.InCalendar, Date.first, Date.last,
      secondsPerDay]
    omega
  exact ⟨_, if_pos hInside⟩

variable (hShort : z.OffsetsShort)
include hShort

/- The clocks show a wall time near to an instant. -/
theorem toLocal_meets
    {t : Instant}
    (hNear : t.Near slack)
    (hSlack : slack ≤ 4000000000000) :
    (z.toLocal t).Meets fun here =>
      here = z.wallTime t ∧
        here.inUtc.Near (slack + secondsPerDay) := by
  have hOffset := hShort _ (offsetAt_mem t.seconds)
  have hShown :
      (z.wallTime t).inUtc.Near (slack + secondsPerDay) := by
    rw [wallTime_inUtc]
    rcases hNear with ⟨hFirst, hLast, hNanos⟩
    exact ⟨by simp only; omega, by simp only; omega, hNanos⟩
  have hInside :=
    hShown.inCalendar (by simp only [secondsPerDay]; omega)
  exact ⟨z.wallTime t, if_pos hInside, rfl, hShown⟩

/- A wall time has an instant near to it, shown or skipped. -/
theorem localize_meets
    {l : LocalTime}
    (hNear : l.inUtc.Near slack)
    (hSlack : slack ≤ 4000000000000) :
    (z.localize l).Meets (·.Near (slack + 2 * secondsPerDay)) := by
  have hFound : ∃ t, z.localize l = .ok t := by
    unfold localize
    cases hOffset : z.offsetOfLocal? l.inUtc.seconds with
    | some offset =>
        have hDay := hShort offset (mem_of_offsetOfLocal? hOffset)
        have hShown :
            Instant.Near (slack + secondsPerDay)
              ⟨l.inUtc.seconds - offset, l.time.nanos⟩ := by
          rcases hNear with ⟨hFirst, hLast, hNanos⟩
          exact ⟨by simp only; omega, by simp only; omega,
            hNanos⟩
        exact ⟨_, hShown.checked
          (by simp only [secondsPerDay]; omega)⟩
    | none =>
        have hBack :
            ∃ dayBefore,
              l.inUtc.plus (Span.ofSeconds (-secondsPerDay)) =
                .ok dayBefore :=
          plus_ofSeconds_meets hNear hSlack (by omega)
        rcases hBack with ⟨dayBefore, hDayBefore⟩
        have hOffset := hShort _ (offsetAt_mem dayBefore.seconds)
        have hShifted :
            ∃ t,
              l.inUtc.plus (Span.ofSeconds
                (-z.offsetAt dayBefore.seconds)) = .ok t :=
          plus_ofSeconds_meets hNear hSlack (by omega)
        rcases hShifted with ⟨t, hPlaced⟩
        rw [← Span.neg_ofSeconds] at hPlaced
        exact ⟨t, Bounded.bind_eq_ok_iff.mpr
          ⟨dayBefore, hDayBefore, hPlaced⟩⟩
  rcases hFound with ⟨t, hFound⟩
  refine ⟨t, hFound, ?_⟩
  rcases places_of_localize hNear.nanos hFound with
    ⟨offset, hOffset, hPlaced⟩
  have hDay := hShort offset hOffset
  rcases hNear with ⟨hFirst, hLast, hNanos⟩
  change l.time.nanos < _ at hNanos
  exact ⟨by omega, by simp only [secondsPerDay] at *; omega,
    by simp only [nanosPerSecond] at *; omega⟩

end EventSeries.Zone
