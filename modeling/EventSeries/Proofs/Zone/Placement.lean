import EventSeries.Proofs.Calendar.YearMonthDay
import EventSeries.Proofs.Time.Order
import EventSeries.Proofs.Time.Spans
import EventSeries.Proofs.Zone.Offsets

/-
  The instants that a zone finds for wall times.  Each lies at
  one of the offsets of the zone from its wall time, so that
  the instants of later dates are later where the offsets lie
  less than a day apart; and where transitions are two days
  apart or more, no wall time is moved back.

  Main declarations:
    * `Zone.OffsetsNear`
    * `Zone.Places`
    * `Zone.places_of_localize`
    * `Zone.lt_of_places`
    * `Zone.MovesForward`
    * `Zone.wallTime_of_localize`
    * `Zone.movesForward_of_spaced`
-/

namespace EventSeries

------------------------------------------------------------
-- Whole Seconds
------------------------------------------------------------

theorem Span.wholeSeconds_ofSeconds
    (seconds : Int) :
    (ofSeconds seconds).wholeSeconds = seconds :=
  Int.mul_tdiv_cancel seconds (by decide)

theorem Span.subsecondNanos_ofSeconds
    (seconds : Int) :
    (ofSeconds seconds).subsecondNanos = 0 :=
  Int.mul_tmod_left seconds nanosPerSecond

theorem Span.neg_ofSeconds
    (seconds : Int) :
    -ofSeconds seconds = ofSeconds (-seconds) := by
  change Span.mk (-(seconds * nanosPerSecond)) = Span.mk _
  rw [← Int.neg_mul]

namespace Instant

theorem ofSecondAndNanos_of_lt
    {nanos : Nat}
    (hNanos : nanos < nanosPerSecond)
    (seconds : Int) :
    ofSecondAndNanos seconds nanos = ⟨seconds, nanos⟩ := by
  simp only [nanosPerSecond] at hNanos
  simp only [ofSecondAndNanos, nanosPerSecond, mk.injEq]
  omega

theorem plusUnchecked_ofSeconds_of_ordinary
    {t : Instant}
    (hNanos : t.nanos < nanosPerSecond)
    (seconds : Int) :
    t.plusUnchecked (Span.ofSeconds seconds) =
      ⟨t.seconds + seconds, t.nanos⟩ := by
  have hLeap : ¬ t.isLeap = true := by
    simpa [isLeap] using hNanos
  rw [plusUnchecked, Span.wholeSeconds_ofSeconds,
    Span.subsecondNanos_ofSeconds, if_pos hLeap, Int.add_zero,
    ofSecondAndNanos_of_lt hNanos]

/- A sum that leaves a long second passes its second half. -/
theorem plusUnchecked_ofSeconds_of_leap
    {t : Instant}
    {nanos : Nat}
    (hLeap : t.nanos = nanosPerSecond + nanos)
    (hNanos : nanos < nanosPerSecond)
    (seconds : Int) :
    t.plusUnchecked (Span.ofSeconds seconds) =
      if 0 < seconds then
        ⟨t.seconds + seconds, nanos⟩
      else if seconds < 0 then
        ⟨t.seconds + 1 + seconds, nanos⟩
      else
        t := by
  have hIsLeap : ¬ ¬ t.isLeap = true := by
    simp [isLeap, hLeap]
  have hRest :
      (t.nanos : Int) - nanosPerSecond + 0 = nanos := by
    omega
  rw [plusUnchecked, Span.wholeSeconds_ofSeconds,
    Span.subsecondNanos_ofSeconds, if_neg hIsLeap, hRest,
    ofSecondAndNanos_of_lt hNanos,
    ofSecondAndNanos_of_lt hNanos]
  simp

/- Such a sum is the second meant, or the one after it. -/
theorem seconds_plusUnchecked_ofSeconds
    {t : Instant}
    (hNanos : t.nanos < 2 * nanosPerSecond)
    (seconds : Int) :
    let sum := t.plusUnchecked (Span.ofSeconds seconds)
    t.seconds + seconds ≤ sum.seconds ∧
      sum.seconds ≤ t.seconds + seconds + 1 := by
  by_cases hLeap : t.nanos < nanosPerSecond
  · rw [plusUnchecked_ofSeconds_of_ordinary hLeap]
    simp only
    omega
  · have hSum :
        t.nanos = nanosPerSecond + (t.nanos - nanosPerSecond) := by
      omega
    rw [plusUnchecked_ofSeconds_of_leap hSum (by omega)]
    split
    · simp only
      omega
    · split
      · simp only
        omega
      · omega

end Instant

namespace Zone

variable {z : Zone}

------------------------------------------------------------
-- Conversions
------------------------------------------------------------

theorem wallTime_inUtc
    (t : Instant) :
    (z.wallTime t).inUtc =
      ⟨t.seconds + z.offsetAt t.seconds, t.nanos⟩ :=
  LocalTime.inUtc_utcReading _

theorem eq_wallTime_of_toLocal
    {t : Instant}
    {l : LocalTime}
    (hLocal : z.toLocal t = .ok l) :
    l = z.wallTime t ∧ l.inUtc.InCalendar := by
  unfold toLocal at hLocal
  simp only at hLocal
  split at hLocal
  · cases hLocal
    exact ⟨rfl, ‹_›⟩
  · cases hLocal

/- A wall time that the clocks show is read at its offset. -/
theorem eq_of_localize_of_shown
    {l : LocalTime}
    {t : Instant}
    {offset : Int}
    (hShown : z.offsetOfLocal? l.inUtc.seconds = some offset)
    (hInstant : z.localize l = .ok t) :
    t = ⟨l.inUtc.seconds - offset, l.time.nanos⟩ := by
  unfold localize at hInstant
  rw [hShown] at hInstant
  exact (Instant.eq_of_checked hInstant).1

/- Any other is read at the offset of a day earlier. -/
theorem eq_of_localize_of_skipped
    {l : LocalTime}
    {t : Instant}
    (hSkipped : z.offsetOfLocal? l.inUtc.seconds = none)
    (hInstant : z.localize l = .ok t) :
    ∃ dayBefore,
      dayBefore =
        l.inUtc.plusUnchecked
          (Span.ofSeconds (-secondsPerDay)) ∧
      t =
        l.inUtc.plusUnchecked
          (Span.ofSeconds (-z.offsetAt dayBefore.seconds)) := by
  unfold localize at hInstant
  rw [hSkipped] at hInstant
  simp only [localizeSkipped, Span.neg_ofSeconds] at hInstant
  cases hDay : l.inUtc.plus (Span.ofSeconds (-secondsPerDay)) with
  | error range =>
      rw [hDay] at hInstant
      cases hInstant
  | ok dayBefore =>
      rw [hDay] at hInstant
      exact ⟨dayBefore,
        (Instant.eq_plusUnchecked_of_plus hDay).1,
        (Instant.eq_plusUnchecked_of_plus hInstant).1⟩

------------------------------------------------------------
-- Placed Wall Times
------------------------------------------------------------

/-
  An instant that lies at an offset of the zone from a wall
  time.  If the wall time is in the second half of a long
  second, the instant may have left that second, and lies
  then up to a second later.
-/
def Places
    (z : Zone)
    (l : LocalTime)
    (t : Instant) : Prop :=
  ∃ offset ∈ z.offsets,
    (t.seconds = l.inUtc.seconds - offset ∧
      t.nanos = l.time.nanos) ∨
    (l.time.nanos = nanosPerSecond + t.nanos ∧
      ((offset < 0 ∧ t.seconds = l.inUtc.seconds - offset) ∨
        (0 < offset ∧
          t.seconds = l.inUtc.seconds - offset + 1)))

theorem places_wallTime
    (t : Instant) :
    z.Places (z.wallTime t) t := by
  refine ⟨z.offsetAt t.seconds, offsetAt_mem _, Or.inl ?_⟩
  rw [wallTime_inUtc]
  exact ⟨by simp, rfl⟩

/- The sum with an offset, as an instant that it places. -/
theorem places_plusUnchecked
    {l : LocalTime}
    {offset : Int}
    (hNanos : l.time.nanos < 2 * nanosPerSecond)
    (hOffset : offset ∈ z.offsets) :
    z.Places l
      (l.inUtc.plusUnchecked (Span.ofSeconds (-offset))) := by
  refine ⟨offset, hOffset, ?_⟩
  by_cases hLeap : l.time.nanos < nanosPerSecond
  · rw [Instant.plusUnchecked_ofSeconds_of_ordinary hLeap]
    exact Or.inl ⟨by simp only; omega, rfl⟩
  · have hSum :
        l.inUtc.nanos =
          nanosPerSecond + (l.time.nanos - nanosPerSecond) := by
      change l.time.nanos = _
      omega
    rw [Instant.plusUnchecked_ofSeconds_of_leap hSum (by omega)]
    by_cases hWest : offset < 0
    · rw [if_pos (by omega)]
      simp only
      omega
    · rw [if_neg (by omega)]
      by_cases hEast : 0 < offset
      · rw [if_pos (by omega)]
        simp only
        omega
      · rw [if_neg (by omega)]
        exact Or.inl ⟨by omega, rfl⟩

theorem places_of_localize
    {l : LocalTime}
    {t : Instant}
    (hNanos : l.time.nanos < 2 * nanosPerSecond)
    (hInstant : z.localize l = .ok t) :
    z.Places l t := by
  cases hOffset : z.offsetOfLocal? l.inUtc.seconds with
  | some offset =>
      rw [eq_of_localize_of_shown hOffset hInstant]
      exact ⟨offset, mem_of_offsetOfLocal? hOffset,
        Or.inl ⟨rfl, rfl⟩⟩
  | none =>
      rcases eq_of_localize_of_skipped hOffset hInstant with
        ⟨dayBefore, _, rfl⟩
      exact places_plusUnchecked hNanos (offsetAt_mem _)

------------------------------------------------------------
-- Offsets Less Than A Day Apart
------------------------------------------------------------

/- Any two offsets of a zone lie less than a day apart. -/
def OffsetsNear
    (z : Zone) : Prop :=
  ∀ offset ∈ z.offsets, ∀ other ∈ z.offsets,
    offset - other < secondsPerDay

/- It is enough that a day holds all of them. -/
theorem offsetsNear_of_between
    (low : Int)
    (hBetween :
      ∀ offset ∈ z.offsets,
        low ≤ offset ∧ offset < low + secondsPerDay) :
    z.OffsetsNear := by
  intro offset hOffset other hOther
  have hHigh := hBetween offset hOffset
  have hLow := hBetween other hOther
  omega

/-
  At one time of day, a later date begins later: the clocks
  do not make up for a day.
-/
theorem lt_of_places
    {d later : Date}
    {time : ClockTime}
    {t next : Instant}
    (hNear : z.OffsetsNear)
    (hDates : d < later)
    (hPlaced : z.Places ⟨d, time⟩ t)
    (hNext : z.Places ⟨later, time⟩ next) :
    t < next := by
  rcases hPlaced with ⟨offset, hOffset, hPlaced⟩
  rcases hNext with ⟨other, hOther, hNext⟩
  have hApart := hNear other hOther offset hOffset
  rw [Date.lt_def] at hDates
  simp only [LocalTime.inUtc, secondsPerDay, nanosPerSecond]
    at hPlaced hNext hApart
  rw [Instant.lt_def]
  omega

/- The clocks show a placed time at most a day too early. -/
theorem le_date_of_places
    {l : LocalTime}
    {t : Instant}
    (hNear : z.OffsetsNear)
    (hPlaced : z.Places l t) :
    l.date.dayNumber ≤ (z.wallTime t).date.dayNumber + 1 := by
  rcases hPlaced with ⟨offset, hOffset, hPlaced⟩
  have hApart :=
    hNear offset hOffset (z.offsetAt t.seconds) (offsetAt_mem _)
  simp only [wallTime, Instant.utcReading, LocalTime.inUtc,
    secondsPerDay] at hPlaced hApart ⊢
  omega

------------------------------------------------------------
-- Wall Times Moved Forward
------------------------------------------------------------

/-
  The clocks move no wall time back: at the instant found for
  it they show that second, or a later one if it is skipped.
-/
def MovesForward
    (z : Zone) : Prop :=
  ∀ (l : LocalTime) (t : Instant),
    l.time.nanos < 2 * nanosPerSecond →
      z.localize l = .ok t →
        l.inUtc.seconds ≤ (z.wallTime t).inUtc.seconds

/- A wall time that the clocks show is what they show then. -/
theorem wallTime_of_localize
    {l : LocalTime}
    {t : Instant}
    {offset : Int}
    (hOrdered : z.Ordered)
    (hShown : z.offsetOfLocal? l.inUtc.seconds = some offset)
    (hInstant : z.localize l = .ok t) :
    z.wallTime t = l := by
  rw [eq_of_localize_of_shown hShown hInstant, wallTime]
  simp only [offsetAt_of_offsetOfLocal? hOrdered hShown,
    Int.sub_add_cancel]
  exact LocalTime.utcReading_inUtc l

/- The clocks move no date back either. -/
theorem MovesForward.le_date
    {l : LocalTime}
    {t : Instant}
    (hForward : z.MovesForward)
    (hNanos : l.time.nanos < 2 * nanosPerSecond)
    (hInstant : z.localize l = .ok t) :
    l.date.dayNumber ≤ (z.wallTime t).date.dayNumber := by
  have hLe := hForward l t hNanos hInstant
  have hSecond := (z.wallTime t).time.second_lt
  simp only [LocalTime.inUtc, secondsPerDay] at hLe hSecond
  omega

/-
  With transitions two days apart a skipped wall time is read
  with the offset before its gap, and so shown later by the
  length of the gap.
-/
theorem movesForward_of_spaced
    (hSpaced : z.Spaced)
    (hShort : z.OffsetsShort) :
    z.MovesForward := by
  intro l t hNanos hInstant
  cases hOffset : z.offsetOfLocal? l.inUtc.seconds with
  | some offset =>
      have hSame : z.wallTime t = l :=
        wallTime_of_localize hSpaced.ordered hOffset hInstant
      exact Int.le_of_eq
        (congrArg (fun shown => shown.inUtc.seconds) hSame.symm)
  | none =>
      rcases eq_of_localize_of_skipped hOffset hInstant with
        ⟨dayBefore, hDay, hRead⟩
      have hDayBefore :=
        Instant.seconds_plusUnchecked_ofSeconds
          (t := l.inUtc) hNanos (-secondsPerDay)
      have hSecond :=
        Instant.seconds_plusUnchecked_ofSeconds
          (t := l.inUtc) hNanos (-z.offsetAt dayBefore.seconds)
      rw [← hDay] at hDayBefore
      rw [← hRead] at hSecond
      have hLater :
          z.offsetAt dayBefore.seconds < z.offsetAt t.seconds :=
        lt_offsetAt_of_skipped hSpaced hShort hOffset (by omega)
          (by omega)
      rw [wallTime_inUtc]
      simp only
      omega

end Zone

end EventSeries
