import EventSeries.Proofs.Zone.Placement
import EventSeries.Zone.Names

/-
  Clocks that are set forward or back by up to a day.  Two
  days hold at most one transition, so that wall times fall
  behind by no more than it sets the clocks back, and do not
  fall behind a wall time that was moved out of a gap.  A time
  of day found for a later date therefore comes later, even
  where offsets of the zone lie more than a day apart.

  Main declarations:
    * `Zone.FoldsShort`
    * `Zone.offsetAt_of_between`
    * `Zone.wall_lt_of_lt`
    * `Zone.wall_lt_of_skipped`
    * `Zone.SetAt`
    * `Zone.SetAt.lt_of_localize`
    * `Zone.foldsShort_of_known`
-/

namespace EventSeries

namespace Zone

------------------------------------------------------------
-- Transitions That Set Clocks Back
------------------------------------------------------------

/- An offset that follows another sets back at most a day. -/
def FallsByDay
    (offset next : Int) : Prop :=
  offset - secondsPerDay ≤ next

instance
    (offset next : Int) :
    Decidable (FallsByDay offset next) :=
  inferInstanceAs (Decidable (offset - secondsPerDay ≤ next))

/- No transition of a zone sets the clocks back by more. -/
def FoldsShort
    (z : Zone) : Prop :=
  z.offsets.IsChain FallsByDay

instance
    (z : Zone) :
    Decidable z.FoldsShort :=
  inferInstanceAs (Decidable (z.offsets.IsChain _))

------------------------------------------------------------
-- Two Days Of A Table
------------------------------------------------------------

section

variable {offset : Int}
variable {ts : List Transition}

/- Within two days of a transition no other one follows. -/
theorem offsetFrom_after
    {first last second : Int}
    {t : Transition}
    {later : List Transition}
    (hNext : ∀ u ∈ later.head?, t.DaysBefore u)
    (hFirst : first < t.second)
    (hLast : last ≤ first + (2 * secondsPerDay : Nat))
    (hSince : t.second ≤ second)
    (hLe : second ≤ last) :
    offsetFrom offset (t :: later) second = t.offset := by
  rw [offsetFrom, if_neg (by omega)]
  apply offsetFrom_of_lt_head
  intro u hHead
  have hFar := hNext u hHead
  simp only [Transition.DaysBefore] at hFar
  omega

/-
  In two days the offset changes once at most.  The induction
  is on the transitions; the two days are over before the
  first one, contain it, or begin after it.
-/
theorem offsetFrom_of_between
    {first middle last : Int}
    (hSpaced : ts.IsChain Transition.DaysBefore)
    (hFirst : first ≤ middle)
    (hMiddle : middle ≤ last)
    (hLast : last ≤ first + (2 * secondsPerDay : Nat)) :
    offsetFrom offset ts middle = offsetFrom offset ts first ∨
      offsetFrom offset ts middle =
        offsetFrom offset ts last := by
  induction ts generalizing offset with
  | nil => exact Or.inl rfl
  | cons t later ih =>
      rcases List.isChain_cons.mp hSpaced with ⟨hNext, hLater⟩
      by_cases hBefore : first < t.second
      · by_cases hOver : middle < t.second
        · left
          rw [offsetFrom, offsetFrom, if_pos hOver,
            if_pos hBefore]
        · right
          have hSince : t.second ≤ middle := by omega
          rw [offsetFrom_after hNext hBefore hLast hSince
              hMiddle,
            offsetFrom_after hNext hBefore hLast
              (Int.le_trans hSince hMiddle) (Int.le_refl last)]
      · rw [offsetFrom, offsetFrom, offsetFrom,
          if_neg (by omega), if_neg (by omega),
          if_neg (by omega)]
        exact ih hLater

/- In two days the offset falls by a day at most. -/
theorem le_offsetFrom_of_between
    {first last : Int}
    (hSpaced : ts.IsChain Transition.DaysBefore)
    (hFolds : (offset :: ts.map (·.offset)).IsChain FallsByDay)
    (hFirst : first ≤ last)
    (hLast : last ≤ first + (2 * secondsPerDay : Nat)) :
    offsetFrom offset ts first - secondsPerDay ≤
      offsetFrom offset ts last := by
  induction ts generalizing offset with
  | nil =>
      simp only [offsetFrom]
      omega
  | cons t later ih =>
      rcases List.isChain_cons.mp hSpaced with ⟨hNext, hLater⟩
      rw [List.map_cons, List.isChain_cons_cons] at hFolds
      by_cases hBefore : first < t.second
      · by_cases hOver : last < t.second
        · rw [offsetFrom, offsetFrom, if_pos hOver,
            if_pos hBefore]
          omega
        · rw [offsetFrom_after hNext hBefore hLast (by omega)
              (Int.le_refl last), offsetFrom, if_pos hBefore]
          exact hFolds.1
      · rw [offsetFrom, offsetFrom, if_neg (by omega),
          if_neg (by omega)]
        exact ih hLater hFolds.2

end

------------------------------------------------------------
-- Wall Times In Order
------------------------------------------------------------

variable {z : Zone}

theorem offsetAt_of_between
    {first middle last : Int}
    (hSpaced : z.Spaced)
    (hFirst : first ≤ middle)
    (hMiddle : middle ≤ last)
    (hLast : last ≤ first + (2 * secondsPerDay : Nat)) :
    z.offsetAt middle = z.offsetAt first ∨
      z.offsetAt middle = z.offsetAt last :=
  offsetFrom_of_between hSpaced hFirst hMiddle hLast

/- Short offsets do not make up for two days. -/
theorem wall_lt_of_days_apart
    {second last : Int}
    (hShort : z.OffsetsShort)
    (hApart : second + (2 * secondsPerDay : Nat) < last) :
    second + z.offsetAt second < last + z.offsetAt last := by
  have hEarly := hShort _ (offsetAt_mem second)
  have hLate := hShort _ (offsetAt_mem last)
  omega

/- An earlier wall time is at most a day ahead. -/
theorem wall_lt_of_lt
    {second last : Int}
    (hSpaced : z.Spaced)
    (hShort : z.OffsetsShort)
    (hFolds : z.FoldsShort)
    (hLt : second < last) :
    second + z.offsetAt second <
      last + z.offsetAt last + secondsPerDay := by
  by_cases hApart : second + (2 * secondsPerDay : Nat) < last
  · have hWall := wall_lt_of_days_apart hShort hApart
    omega
  · have hFalls :
        z.offsetAt second - secondsPerDay ≤ z.offsetAt last :=
      le_offsetFrom_of_between hSpaced hFolds
        (Int.le_of_lt hLt) (by omega)
    omega

/-
  After a wall time that was moved out of a gap no clock shows
  an earlier one: the transition of that gap set them forward,
  and no other one is near.
-/
theorem wall_lt_of_skipped
    {wall dayBefore second last : Int}
    (hSpaced : z.Spaced)
    (hShort : z.OffsetsShort)
    (hSkipped : z.offsetOfLocal? wall = none)
    (hDay :
      wall - secondsPerDay ≤ dayBefore ∧
        dayBefore ≤ wall - secondsPerDay + 1)
    (hLast :
      wall - z.offsetAt dayBefore ≤ last ∧
        last ≤ wall - z.offsetAt dayBefore + 1)
    (hLt : second < last) :
    second + z.offsetAt second < last + z.offsetAt last := by
  by_cases hApart : second + (2 * secondsPerDay : Nat) < last
  · exact wall_lt_of_days_apart hShort hApart
  · have hForward :=
      lt_offsetAt_of_skipped hSpaced hShort hSkipped hDay hLast
    have hOld := hShort _ (offsetAt_mem dayBefore)
    have hSame :
        z.offsetAt second = z.offsetAt dayBefore ∨
          z.offsetAt second = z.offsetAt last := by
      by_cases hBefore : second ≤ dayBefore
      · rcases
            offsetAt_of_between hSpaced hBefore
              (by omega : dayBefore ≤ last) (by omega) with
          hFirst | hOther
        · exact Or.inl hFirst.symm
        · omega
      · exact offsetAt_of_between hSpaced (by omega)
          (Int.le_of_lt hLt) (by omega)
    omega

------------------------------------------------------------
-- Times Of Day On Later Dates
------------------------------------------------------------

/-
  The clocks show a time of day at an instant, or the zone
  found the instant for that time on some date.
-/
def SetAt
    (z : Zone)
    (time : ClockTime)
    (t : Instant) : Prop :=
  (z.wallTime t).time = time ∨
    ∃ d, z.localize ⟨d, time⟩ = .ok t

section

variable {time : ClockTime}
variable {t next : Instant}
variable {later : Date}

/- A wall time counts its days and the second of its day. -/
theorem wall_eq
    (t : Instant) :
    t.seconds + z.offsetAt t.seconds =
      (z.wallTime t).date.dayNumber * secondsPerDay +
        (z.wallTime t).time.second := by
  have hWall := congrArg Instant.seconds (wallTime_inUtc (z := z) t)
  exact hWall.symm

/- A week later a start is later, as all offsets are short. -/
theorem lt_of_places_of_week
    (hShort : z.OffsetsShort)
    (hWeek :
      (z.wallTime t).date.dayNumber + 7 ≤ later.dayNumber)
    (hNext : z.Places ⟨later, time⟩ next) :
    t < next := by
  have hWall := wall_eq (z := z) t
  have hSecond := (z.wallTime t).time.second_lt
  have hHere := hShort _ (offsetAt_mem t.seconds)
  rcases hNext with ⟨offset, hOffset, hPlaced⟩
  have hThere := hShort offset hOffset
  simp only [LocalTime.inUtc] at hPlaced
  rw [Instant.lt_def]
  simp only [secondsPerDay] at *
  omega

variable (hSpaced : z.Spaced)
variable (hShort : z.OffsetsShort)
variable (hNanos : time.nanos < 2 * nanosPerSecond)
variable (hDates : (z.wallTime t).date < later)
variable (hNext : z.localize ⟨later, time⟩ = .ok next)

include hSpaced hShort hNanos hNext

/- What is found for a date shows that date, or a later one. -/
theorem le_wall_of_localize :
    later.dayNumber * secondsPerDay + time.second ≤
      next.seconds + z.offsetAt next.seconds := by
  have hForward :=
    movesForward_of_spaced hSpaced hShort _ next hNanos hNext
  rw [wallTime_inUtc] at hForward
  exact hForward

include hDates

/-
  From a start at the time of day itself a date found later is
  a day ahead, and the clocks are not set back by more.
-/
theorem lt_of_localize_of_shown
    (hFolds : z.FoldsShort)
    (hShown : (z.wallTime t).time = time) :
    t < next := by
  have hWall := wall_eq (z := z) t
  have hAhead :=
    le_wall_of_localize hSpaced hShort hNanos hNext
  rw [hShown] at hWall
  rw [Date.lt_def] at hDates
  rw [Instant.lt_def]
  left
  by_contra hNot
  rcases Int.lt_or_eq_of_le (Int.not_lt.mp hNot) with
    hEarlier | hEq
  · have hBehind := wall_lt_of_lt hSpaced hShort hFolds hEarlier
    simp only [secondsPerDay] at *
    omega
  · rw [hEq] at hAhead
    simp only [secondsPerDay] at *
    omega

/-
  From a start that was moved out of a gap it is ahead by less,
  but then the clocks were not set back before it.
-/
theorem lt_of_localize_of_skipped
    {d : Date}
    (hSkipped :
      z.offsetOfLocal? (LocalTime.inUtc ⟨d, time⟩).seconds =
        none)
    (hStart : z.localize ⟨d, time⟩ = .ok t) :
    t < next := by
  have hWall := wall_eq (z := z) t
  have hSecond := (z.wallTime t).time.second_lt
  have hAhead :=
    le_wall_of_localize hSpaced hShort hNanos hNext
  rcases eq_of_localize_of_skipped hSkipped hStart with
    ⟨dayBefore, hDay, hRead⟩
  have hDayBefore :=
    Instant.seconds_plusUnchecked_ofSeconds
      (t := LocalTime.inUtc ⟨d, time⟩) hNanos (-secondsPerDay)
  have hLast :=
    Instant.seconds_plusUnchecked_ofSeconds
      (t := LocalTime.inUtc ⟨d, time⟩) hNanos
      (-z.offsetAt dayBefore.seconds)
  rw [← hDay] at hDayBefore
  rw [← hRead] at hLast
  rw [Date.lt_def] at hDates
  rw [Instant.lt_def]
  left
  by_contra hNot
  rcases Int.lt_or_eq_of_le (Int.not_lt.mp hNot) with
    hEarlier | hEq
  · have hNear :
        (LocalTime.inUtc ⟨d, time⟩).seconds - secondsPerDay ≤
            dayBefore.seconds ∧
          dayBefore.seconds ≤
            (LocalTime.inUtc ⟨d, time⟩).seconds
              - secondsPerDay + 1 := by
      omega
    have hBehind :=
      wall_lt_of_skipped hSpaced hShort hSkipped hNear
        (by omega) hEarlier
    simp only [secondsPerDay] at *
    omega
  · rw [hEq] at hAhead
    simp only [secondsPerDay] at *
    omega

/-
  A start of a series comes before what is found for a later
  date than its clocks show, at the time of day of the series.
-/
theorem SetAt.lt_of_localize
    (hFolds : z.FoldsShort)
    (hSet : z.SetAt time t) :
    t < next := by
  rcases hSet with hShown | ⟨d, hStart⟩
  · exact lt_of_localize_of_shown hSpaced hShort hNanos hDates
      hNext hFolds hShown
  · cases hOffset :
        z.offsetOfLocal? (LocalTime.inUtc ⟨d, time⟩).seconds with
    | none =>
        exact lt_of_localize_of_skipped hSpaced hShort hNanos
          hDates hNext hOffset hStart
    | some offset =>
        have hSame :=
          wallTime_of_localize hSpaced.ordered hOffset hStart
        exact lt_of_localize_of_shown hSpaced hShort hNanos
          hDates hNext hFolds (by rw [hSame])

end

/- The tables of the listed zones are such. -/
theorem foldsShort_of_known
    (hKnown : z ∈ known) :
    z.Spaced ∧ z.OffsetsShort ∧ z.FoldsShort := by
  have hTables :
      ∀ z ∈ known,
        z.Spaced ∧ z.OffsetsShort ∧ z.FoldsShort := by
    decide +kernel
  exact hTables z hKnown

end Zone

end EventSeries
