import EventSeries.Proofs.Zone.Placement
import Mathlib.Order.Bounds.Defs

/-
  Placing wall times as the inverse of showing them.  A wall
  time that the clocks of a zone show is placed at the first
  instant that shows it, so that an instant is found again
  from its wall time unless it repeats one.  A wall time that
  they do not show lies in the gap of one change, where the
  changes are two days apart, and is placed where they show it
  later by the length of that gap.

  Main declarations:
    * `Instant.DaysInside`
    * `LocalTime.later`
    * `Zone.localize_isLeast`
    * `Zone.toLocal_localize_of_skips`
    * `Zone.localize_inverse`
-/

namespace EventSeries

/- The calendar holds two days before and after an instant. -/
structure Instant.DaysInside
    (t : Instant) : Prop where
  first :
    Date.first.dayNumber * secondsPerDay ≤
      t.seconds - (2 * secondsPerDay : Nat)
  last :
    t.seconds + (2 * secondsPerDay : Nat) <
      (Date.last.dayNumber + 1) * secondsPerDay

/- An instant less than two days off is in the calendar. -/
theorem Instant.DaysInside.inCalendar
    {t near : Instant}
    (hInside : t.DaysInside)
    (hFrom : t.seconds - (2 * secondsPerDay : Nat) ≤ near.seconds)
    (hTo : near.seconds ≤ t.seconds + (2 * secondsPerDay : Nat)) :
    near.InCalendar :=
  ⟨Int.le_trans hInside.first hFrom,
    Int.lt_of_le_of_lt hTo hInside.last⟩

theorem Instant.DaysInside.plus_ofSeconds
    {t : Instant}
    {seconds : Int}
    (hInside : t.DaysInside)
    (hNanos : t.nanos < nanosPerSecond)
    (hFrom : -(secondsPerDay : Int) ≤ seconds)
    (hTo : seconds ≤ secondsPerDay) :
    t.plus (Span.ofSeconds seconds) =
      .ok ⟨t.seconds + seconds, t.nanos⟩ := by
  rw [plus, plusUnchecked_ofSeconds_of_ordinary hNanos]
  apply if_pos
  exact hInside.inCalendar (by simp only; omega)
    (by simp only; omega)

/- The wall time so many seconds later. -/
def LocalTime.later
    (l : LocalTime)
    (seconds : Int) : LocalTime :=
  Instant.utcReading
    ⟨l.inUtc.seconds + seconds, l.time.nanos⟩

namespace Zone

variable {z : Zone}
variable {l : LocalTime}

------------------------------------------------------------
-- Shown Wall Times
------------------------------------------------------------

/- What it is for the clocks to show a wall time. -/
theorem toLocal_eq_ok_iff
    {t : Instant}
    (hInside : l.inUtc.DaysInside) :
    z.toLocal t = .ok l ↔
      t.seconds + z.offsetAt t.seconds = l.inUtc.seconds ∧
        t.nanos = l.time.nanos := by
  constructor
  · intro hShown
    rw [(eq_wallTime_of_toLocal hShown).1]
    constructor
    · rw [wallTime_inUtc]
    · rfl
  · rintro ⟨hSeconds, hNanos⟩
    have hWall : z.wallTime t = l := by
      rw [wallTime, hSeconds, hNanos]
      exact LocalTime.utcReading_inUtc l
    have hHere : l.inUtc.InCalendar :=
      hInside.inCalendar (by omega) (by omega)
    rw [toLocal, hWall]
    exact if_pos hHere

section

variable (hOrdered : z.Ordered)
variable (hShort : z.OffsetsShort)
variable (hInside : l.inUtc.DaysInside)

include hOrdered hShort hInside

/-
  A wall time that some instant shows is placed at the first
  that does.
-/
theorem localize_isLeast
    (hShown : ∃ t, z.toLocal t = .ok l) :
    ∃ first, z.localize l = .ok first ∧
      IsLeast {t | z.toLocal t = .ok l} first := by
  rcases hShown with ⟨t, hShown⟩
  rw [toLocal_eq_ok_iff hInside] at hShown
  rcases exists_offsetOfLocal?_le hShown.1 with
    ⟨offset, hOffset, _⟩
  have hDay := hShort offset (mem_of_offsetOfLocal? hOffset)
  let first : Instant :=
    ⟨l.inUtc.seconds - offset, l.time.nanos⟩
  have hFirst : first.InCalendar :=
    hInside.inCalendar (by simp only [first]; omega)
      (by simp only [first]; omega)
  refine ⟨first, ?_, ?_, ?_⟩
  · rw [localize, hOffset]
    exact if_pos hFirst
  · apply (toLocal_eq_ok_iff hInside).mpr
    have hThen := offsetAt_of_offsetOfLocal? hOrdered hOffset
    exact ⟨by simp only [first, hThen]; omega, rfl⟩
  · intro u hAlso
    rcases (toLocal_eq_ok_iff hInside).mp hAlso with
      ⟨hSeconds, hNanos⟩
    rcases exists_offsetOfLocal?_le hSeconds with
      ⟨same, hSame, hLe⟩
    rw [hOffset] at hSame
    cases hSame
    rw [Instant.le_def]
    simp only [first]
    omega

/- An instant is found again unless it repeats an earlier one. -/
theorem localize_of_toLocal
    {t : Instant}
    (hShown : z.toLocal t = .ok l) :
    ∃ back, z.localize l = .ok back ∧ back ≤ t ∧
      (back = t ↔ ¬ ∃ u, u < t ∧ z.toLocal u = .ok l) := by
  rcases localize_isLeast hOrdered hShort hInside ⟨t, hShown⟩
    with ⟨back, hBack, hShows, hLeast⟩
  have hLe : back ≤ t := hLeast hShown
  refine ⟨back, hBack, hLe, ?_⟩
  constructor
  · rintro rfl ⟨u, hEarlier, hAlso⟩
    have hNotEarlier : back ≤ u := hLeast hAlso
    exact absurd hEarlier (Std.not_lt.mpr hNotEarlier)
  · intro hNone
    apply Std.le_antisymm hLe
    apply Std.not_lt.mp
    intro hEarlier
    exact hNone ⟨back, hEarlier, hShows⟩

end

------------------------------------------------------------
-- Skipped Wall Times
------------------------------------------------------------

section

variable {c : OffsetChange}

variable (hSpaced : z.Spaced)
variable (hShort : z.OffsetsShort)
variable (hChange : c ∈ z.changes)

include hSpaced hShort hChange

theorem second_le_of_skips
    {other : OffsetChange}
    {wall : Int}
    (hOther : other ∈ z.changes)
    (hSkips : c.Skips wall)
    (hAlso : other.Skips wall) :
    other.second ≤ c.second := by
  have hNew := (short_of_mem_changes hSpaced hChange hShort).2
  have hOld := (short_of_mem_changes hSpaced hOther hShort).1
  rcases hSkips with ⟨_, hGap⟩
  rcases hAlso with ⟨hEnded, hOtherGap⟩
  by_contra hLater
  by_cases hFar :
      c.second + (2 * secondsPerDay : Nat) ≤ other.second
  · omega
  · -- Soon after a change the offset does not change again.
    rcases offsetAt_change hSpaced hOther with
      ⟨hOtherOld, hOtherNew⟩
    rw [offsetAt_after_change hSpaced hChange (by omega)
      (by omega)] at hOtherOld hOtherNew
    omega

/- Changes two days apart skip no wall time in common. -/
theorem eq_of_skips
    {other : OffsetChange}
    {wall : Int}
    (hOther : other ∈ z.changes)
    (hSkips : c.Skips wall)
    (hAlso : other.Skips wall) :
    other = c := by
  have hSame : other.second = c.second :=
    Int.le_antisymm
      (second_le_of_skips hSpaced hShort hChange hOther
        hSkips hAlso)
      (second_le_of_skips hSpaced hShort hOther hChange
        hAlso hSkips)
  rcases offsetAt_change hSpaced hChange with ⟨hOld, hNew⟩
  rcases offsetAt_change hSpaced hOther with
    ⟨hOtherOld, hOtherNew⟩
  rw [hSame, hOld] at hOtherOld
  rw [hSame, hNew] at hOtherNew
  cases c
  cases other
  simp only [OffsetChange.mk.injEq] at *
  exact ⟨hSame, hOtherOld.symm, hOtherNew.symm⟩

section

variable (hInside : l.inUtc.DaysInside)
variable (hNanos : l.time.nanos < nanosPerSecond)
variable (hSkipped : z.offsetOfLocal? l.inUtc.seconds = none)
variable (hSkips : c.Skips l.inUtc.seconds)

include hInside hNanos hSkipped hSkips

/- A skipped wall time is read with the offset before the gap. -/
theorem localize_of_skips :
    z.localize l =
      .ok ⟨l.inUtc.seconds - c.before, l.time.nanos⟩ := by
  have hOld := (short_of_mem_changes hSpaced hChange hShort).1
  have hDayBefore :=
    (offsets_of_skips hSpaced hChange hShort hSkips).1
  rw [localize, hSkipped]
  simp only [localizeSkipped, Span.neg_ofSeconds]
  rw [hInside.plus_ofSeconds hNanos (Int.le_refl _) (by omega)]
  simp only [bind, Except.bind]
  rw [hDayBefore _ (by omega) (by omega),
    hInside.plus_ofSeconds hNanos (by omega) (by omega)]
  rfl

/- The clocks show it later then, by the length of the gap. -/
theorem toLocal_localize_of_skips :
    (z.localize l >>= z.toLocal) = .ok (l.later c.length) := by
  rcases short_of_mem_changes hSpaced hChange hShort with
    ⟨hOld, hNew⟩
  have hAfter :=
    (offsets_of_skips hSpaced hChange hShort hSkips).2
  have hShown :
      z.wallTime ⟨l.inUtc.seconds - c.before, l.time.nanos⟩ =
        l.later c.length := by
    rw [wallTime, hAfter _ (Int.le_refl _) (by omega)]
    simp only [LocalTime.later, OffsetChange.length]
    congr 2
    omega
  have hLater : (l.later c.length).inUtc.InCalendar := by
    rw [LocalTime.later, LocalTime.inUtc_utcReading]
    simp only [OffsetChange.length]
    exact hInside.inCalendar (by simp only; omega)
      (by simp only; omega)
  rw [localize_of_skips hSpaced hShort hChange hInside hNanos
    hSkipped hSkips]
  simp only [bind, Except.bind, toLocal, hShown]
  exact if_pos hLater

end

end

------------------------------------------------------------
-- Placing And Showing
------------------------------------------------------------

/-
  Away from the ends of the calendar, a wall time that some
  instant shows is placed at the first that does; an instant
  is found again from the wall time at it, or an earlier one
  that shows the same is; and in a table with changes two days
  apart, a wall time that no instant shows is skipped by one
  change, and placed where it is shown later by that gap.
-/
theorem localize_inverse
    (hOrdered : z.Ordered)
    (hShort : z.OffsetsShort)
    (hInside : l.inUtc.DaysInside) :
    ((∃ t, z.toLocal t = .ok l) →
      (z.localize l >>= z.toLocal) = .ok l ∧
        ∃ first, z.localize l = .ok first ∧
          IsLeast {t | z.toLocal t = .ok l} first) ∧
    (∀ t, z.toLocal t = .ok l →
      ∃ back, z.localize l = .ok back ∧ back ≤ t ∧
        (back = t ↔ ¬ ∃ u, u < t ∧ z.toLocal u = .ok l)) ∧
    (z.Spaced → l.time.nanos < nanosPerSecond →
      (∀ t, z.toLocal t ≠ .ok l) →
        (∃! c, c ∈ z.changes ∧ c.Skips l.inUtc.seconds) ∧
          ∀ c ∈ z.changes, c.Skips l.inUtc.seconds →
            (z.localize l >>= z.toLocal) =
              .ok (l.later c.length)) := by
  refine ⟨?_, ?_, ?_⟩
  · intro hShown
    rcases localize_isLeast hOrdered hShort hInside hShown with
      ⟨first, hFirst, hLeast⟩
    refine ⟨?_, first, hFirst, hLeast⟩
    rw [hFirst]
    exact hLeast.1
  · intro t hShown
    exact localize_of_toLocal hOrdered hShort hInside hShown
  · intro hSpaced hNanos hNotShown
    have hSkipped : z.offsetOfLocal? l.inUtc.seconds = none := by
      cases hOffset : z.offsetOfLocal? l.inUtc.seconds with
      | none => rfl
      | some offset =>
          have hThen :=
            offsetAt_of_offsetOfLocal? hOrdered hOffset
          apply absurd _
            (hNotShown ⟨l.inUtc.seconds - offset, l.time.nanos⟩)
          apply (toLocal_eq_ok_iff hInside).mpr
          exact ⟨by simp only [hThen]; omega, rfl⟩
    rcases exists_change_of_skipped hSkipped with
      ⟨c, hChange, hSkips⟩
    constructor
    · refine ⟨c, ⟨hChange, hSkips⟩, ?_⟩
      rintro other ⟨hOther, hAlso⟩
      exact eq_of_skips hSpaced hShort hChange hOther hSkips
        hAlso
    · intro other hOther hAlso
      exact toLocal_localize_of_skips hSpaced hShort hOther
        hInside hNanos hSkipped hAlso

/-
  Half past two in Berlin: skipped on March 29, 2026, when it
  is placed where the clocks show half past three, and shown
  twice on October 25, when it is placed at the first time.
-/
theorem localize_inverse_in_berlin :
    let z : Zone :=
      ⟨"Europe/Berlin", 3600,
        [⟨1774746000, 7200⟩, ⟨1792890000, 3600⟩]⟩
    let time : ClockTime := ⟨9000, 0, by decide⟩
    let skipped : LocalTime :=
      ⟨.ofYearMonthDay 2026 3 29, time⟩
    let repeated : LocalTime :=
      ⟨.ofYearMonthDay 2026 10 25, time⟩
    let again : Instant := ⟨1792891800, 0⟩
    (z.Ordered ∧ z.OffsetsShort ∧ z.Spaced) ∧
      ((∀ t, z.toLocal t ≠ .ok skipped) ∧
        (z.localize skipped >>= z.toLocal) =
          .ok (skipped.later 3600)) ∧
      z.toLocal again = .ok repeated ∧
        ∃ first, z.localize repeated = .ok first ∧
          first ≤ again ∧ first ≠ again := by
  intro z time skipped repeated again
  have hOrdered : z.Ordered := by decide
  have hShort : z.OffsetsShort := by decide
  have hSpaced : z.Spaced := by decide
  have hNotShown (t : Instant) :
      z.toLocal t ≠ .ok skipped := by
    intro hShown
    have hSeconds :=
      ((toLocal_eq_ok_iff ⟨by decide, by decide⟩).mp hShown).1
    have hWall : skipped.inUtc.seconds = 1774751400 := by decide
    simp only [hWall, z, offsetAt, offsetFrom] at hSeconds
    split at hSeconds
    · omega
    · split at hSeconds
      · omega
      · omega
  refine ⟨⟨hOrdered, hShort, hSpaced⟩, ⟨hNotShown, ?_⟩, ?_⟩
  · exact ((localize_inverse hOrdered hShort
      ⟨by decide, by decide⟩).2.2 hSpaced (by decide)
        hNotShown).2 ⟨1774746000, 3600, 7200⟩ (by decide)
          (by decide)
  · have hAgain : z.toLocal again = .ok repeated := by decide
    rcases (localize_inverse hOrdered hShort
        ⟨by decide, by decide⟩).2.1 again hAgain with
      ⟨first, hFirst, hLe, hSame⟩
    refine ⟨hAgain, first, hFirst, hLe, ?_⟩
    intro hEq
    exact hSame.mp hEq ⟨⟨1792888200, 0⟩, by decide, by decide⟩

end Zone

end EventSeries
