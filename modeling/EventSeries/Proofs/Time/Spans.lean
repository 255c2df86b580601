import EventSeries.Time.Instant

/-
  Differences and sums of instants outside leap seconds.  All
  seconds are then of one length, so that a difference tells
  its two ends apart, and a sum its span.

  Main declarations:
    * `Instant.ticks`
    * `Instant.since_eq`
    * `Instant.eq_of_since`
    * `Instant.ticks_plus`
    * `Instant.plus_since`
    * `Instant.eq_of_plus`
-/

namespace EventSeries

namespace Instant

/- Nanoseconds since 1970, in seconds of ordinary length. -/
def ticks
    (t : Instant) : Int :=
  t.seconds * nanosPerSecond + t.nanos

theorem nanos_lt
    {t : Instant}
    (hLeap : t.isLeap = false) :
    t.nanos < nanosPerSecond := by
  rw [isLeap, decide_eq_false_iff_not] at hLeap
  exact Nat.lt_of_not_le hLeap

theorem eq_of_ticks
    {t u : Instant}
    (hT : t.isLeap = false)
    (hU : u.isLeap = false)
    (hSame : t.ticks = u.ticks) :
    t = u := by
  have hTNanos := nanos_lt hT
  have hUNanos := nanos_lt hU
  cases t
  cases u
  simp only [ticks, nanosPerSecond, mk.injEq] at *
  omega

------------------------------------------------------------
-- Differences
------------------------------------------------------------

theorem since_eq
    {t r : Instant}
    (hT : t.isLeap = false)
    (hR : r.isLeap = false) :
    t.since r = ⟨t.ticks - r.ticks⟩ := by
  have hPassed : leapSecondsPassed t r = 0 := by
    simp [leapSecondsPassed, hT, hR]
  rw [since, hPassed, Span.mk.injEq, ticks, ticks]
  simp only [nanosPerSecond]
  omega

/- One time has its distance from one reference only. -/
theorem eq_of_since
    {t r s : Instant}
    (hT : t.isLeap = false)
    (hR : r.isLeap = false)
    (hS : s.isLeap = false)
    (hSame : t.since r = t.since s) :
    r = s := by
  rw [since_eq hT hR, since_eq hT hS, Span.mk.injEq] at hSame
  exact eq_of_ticks hR hS (by omega)

------------------------------------------------------------
-- Sums
------------------------------------------------------------

theorem ticks_ofSecondAndNanos
    (seconds nanos : Int) :
    (ofSecondAndNanos seconds nanos).ticks =
      seconds * nanosPerSecond + nanos := by
  have hRest := Int.emod_nonneg nanos
    (b := nanosPerSecond) (by decide)
  simp only [ticks, ofSecondAndNanos, nanosPerSecond] at *
  omega

theorem isLeap_ofSecondAndNanos
    (seconds nanos : Int) :
    (ofSecondAndNanos seconds nanos).isLeap = false := by
  have hBelow :=
    Int.emod_lt_of_pos nanos
      (b := nanosPerSecond) (by decide)
  rw [isLeap, decide_eq_false_iff_not]
  simp only [ofSecondAndNanos, nanosPerSecond] at *
  omega

theorem eq_of_checked
    {t checked : Instant}
    (hChecked : t.checked = .ok checked) :
    checked = t ∧ checked.InCalendar := by
  unfold Instant.checked at hChecked
  split at hChecked
  · cases hChecked
    exact ⟨rfl, ‹_›⟩
  · cases hChecked

theorem eq_plusUnchecked_of_plus
    {t sum : Instant}
    {s : Span}
    (hSum : t.plus s = .ok sum) :
    sum = t.plusUnchecked s ∧ sum.InCalendar :=
  eq_of_checked hSum

section

variable {t : Instant}

variable (hT : t.isLeap = false)

include hT

/- A sum from outside a leap second lies outside of any. -/
theorem isLeap_plusUnchecked
    (s : Span) :
    (t.plusUnchecked s).isLeap = false := by
  have hOrdinary : ¬ t.isLeap = true := by
    simp [hT]
  rw [plusUnchecked, if_pos hOrdinary]
  exact isLeap_ofSecondAndNanos _ _

theorem ticks_plusUnchecked
    (s : Span) :
    (t.plusUnchecked s).ticks = t.ticks + s.nanoseconds := by
  have hParts :
      s.wholeSeconds * nanosPerSecond + s.subsecondNanos =
        s.nanoseconds :=
    Int.tdiv_mul_add_tmod s.nanoseconds nanosPerSecond
  have hOrdinary : ¬ t.isLeap = true := by
    simp [hT]
  rw [plusUnchecked, if_pos hOrdinary,
    ticks_ofSecondAndNanos, ticks, Int.add_mul]
  omega

theorem ticks_plus
    {sum : Instant}
    {s : Span}
    (hSum : t.plus s = .ok sum) :
    sum.ticks = t.ticks + s.nanoseconds := by
  rw [(eq_plusUnchecked_of_plus hSum).1,
    ticks_plusUnchecked hT]

/- The distance of a time from a start leads back to it. -/
theorem plus_since
    {time : Instant}
    (hTime : time.isLeap = false)
    (hInside : time.InCalendar) :
    t.plus (time.since t) = .ok time := by
  have hSame : t.plusUnchecked (time.since t) = time := by
    apply eq_of_ticks (isLeap_plusUnchecked hT _) hTime
    rw [ticks_plusUnchecked hT, since_eq hTime hT]
    simp only
    omega
  rw [plus, hSame]
  exact if_pos hInside

end

/- One start and one sum leave one span between them. -/
theorem eq_of_plus
    {t sum : Instant}
    {s other : Span}
    (hT : t.isLeap = false)
    (hSum : t.plus s = .ok sum)
    (hOther : t.plus other = .ok sum) :
    s = other := by
  have hTicks := ticks_plus hT hSum
  rw [ticks_plus hT hOther] at hTicks
  cases s
  cases other
  rw [Span.mk.injEq]
  simp only at hTicks
  omega

end Instant

end EventSeries
