import EventSeries.Proofs.Time.Order
import EventSeries.Series.Walk

/-
  The dates of a series: those stepped from a first date, as
  long as the pattern has a later one.

  Main declarations:
    * `Event.dateAfter?`
    * `datesFrom`
    * `DateFrom`
    * `Event.HasDate`
    * `WalkPlan.later?`
-/

namespace EventSeries

------------------------------------------------------------
-- Stepping
------------------------------------------------------------

/- The date that follows `date`, if there is a later one. -/
def Event.dateAfter?
    (e : Event)
    (z : Zone)
    (time : ClockTime)
    (date : Instant) : Option Instant :=
  (e.recurrence.nextAfter z time date).toOption.join.filter
    (date < ·)

/-
  The first `n` dates stepped from a date on, or fewer where
  the steps end.
-/
def datesFrom
    (next? : Instant → Option Instant) :
    Nat → Instant → List Instant
  | 0, _ => []
  | n + 1, date =>
      date ::
        match next? date with
        | some next => datesFrom next? n next
        | none => []

/- A date that steps lead to from the first one. -/
inductive DateFrom
    (next? : Instant → Option Instant)
    (first : Instant) : Instant → Prop where
  | first : DateFrom next? first first
  | next {date next : Instant} :
      DateFrom next? first date →
        next? date = some next →
          DateFrom next? first next

namespace DateFrom

variable {next? : Instant → Option Instant}

/- The first step of some, if there is any. -/
theorem cases_first
    {first date : Instant}
    (hDate : DateFrom next? first date) :
    date = first ∨
      ∃ second, next? first = some second ∧
        DateFrom next? second date := by
  induction hDate with
  | first => exact Or.inl rfl
  | next _ hNext ih =>
      rcases ih with rfl | ⟨second, hSecond, hRest⟩
      · exact Or.inr ⟨_, hNext, .first⟩
      · exact Or.inr ⟨second, hSecond, hRest.next hNext⟩

theorem trans
    {first middle date : Instant}
    (hMiddle : DateFrom next? first middle)
    (hDate : DateFrom next? middle date) :
    DateFrom next? first date := by
  induction hDate with
  | first => exact hMiddle
  | next _ hNext ih => exact ih.next hNext

/- Of two dates stepped from one, the steps join them. -/
theorem join
    {first date other : Instant}
    (hDate : DateFrom next? first date)
    (hOther : DateFrom next? first other) :
    DateFrom next? date other ∨ DateFrom next? other date := by
  induction hDate with
  | first => exact Or.inl hOther
  | next _ hNext ih =>
      rcases ih with hAfter | hBefore
      · rcases hAfter.cases_first with
          rfl | ⟨second, hSecond, hRest⟩
        · exact Or.inr (.next .first hNext)
        · rw [hNext, Option.some.injEq] at hSecond
          subst hSecond
          exact Or.inl hRest
      · exact Or.inr (hBefore.next hNext)

theorem first_le
    {first date : Instant}
    (hLater : ∀ d d', next? d = some d' → d < d')
    (hDate : DateFrom next? first date) :
    first ≤ date := by
  induction hDate with
  | first => exact Std.le_refl _
  | next _ hNext ih =>
      exact Std.le_trans ih (Std.le_of_lt (hLater _ _ hNext))

/- Nothing lies between a date and the next one. -/
theorem le_or_le_of_next?
    {first date next other : Instant}
    (hLater : ∀ d d', next? d = some d' → d < d')
    (hDate : DateFrom next? first date)
    (hNext : next? date = some next)
    (hOther : DateFrom next? first other) :
    other ≤ date ∨ next ≤ other := by
  rcases hDate.join hOther with hAfter | hBefore
  · rcases hAfter.cases_first with
      rfl | ⟨second, hSecond, hRest⟩
    · exact Or.inl (Std.le_refl other)
    · rw [hNext, Option.some.injEq] at hSecond
      subst hSecond
      exact Or.inr (hRest.first_le hLater)
  · exact Or.inl (hBefore.first_le hLater)

end DateFrom

theorem dateFrom_of_mem_datesFrom
    {next? : Instant → Option Instant}
    {n : Nat}
    {first date : Instant}
    (hMember : date ∈ datesFrom next? n first) :
    DateFrom next? first date := by
  induction n generalizing first with
  | zero => cases hMember
  | succ n ih =>
      rw [datesFrom] at hMember
      rcases List.mem_cons.mp hMember with rfl | hLater
      · exact .first
      · cases hNext : next? first with
        | none =>
            rw [hNext] at hLater
            cases hLater
        | some next =>
            rw [hNext] at hLater
            exact (DateFrom.first.next hNext).trans (ih hLater)

theorem datesFrom_of_next
    {next? : Instant → Option Instant}
    {date next : Instant}
    (hNext : next? date = some next)
    (n : Nat) :
    datesFrom next? (n + 1) date =
      date :: datesFrom next? n next := by
  rw [datesFrom, hNext]

/- Dates are in strict order where each step leads on. -/
theorem pairwise_datesFrom
    {next? : Instant → Option Instant}
    (hLater : ∀ d d', next? d = some d' → d < d')
    (n : Nat)
    (first : Instant) :
    (datesFrom next? n first).Pairwise (· < ·) := by
  induction n generalizing first with
  | zero => exact List.Pairwise.nil
  | succ n ih =>
      rw [datesFrom]
      cases hNext : next? first with
      | none => exact List.pairwise_singleton _ _
      | some next =>
          refine List.pairwise_cons.mpr ⟨?_, ih next⟩
          intro date hMember
          have hStep := hLater first next hNext
          have hAfter :=
            (dateFrom_of_mem_datesFrom hMember).first_le hLater
          grind

theorem length_datesFrom_le
    (next? : Instant → Option Instant)
    (n : Nat)
    (first : Instant) :
    (datesFrom next? n first).length ≤ n := by
  induction n generalizing first with
  | zero => exact Nat.le_refl 0
  | succ n ih =>
      rw [datesFrom, List.length_cons]
      apply Nat.succ_le_succ
      cases next? first with
      | none => exact Nat.zero_le n
      | some next => exact ih next

/- Fewer dates are the first of more. -/
theorem take_datesFrom
    {next? : Instant → Option Instant}
    {n m : Nat}
    (hLe : n ≤ m)
    (first : Instant) :
    (datesFrom next? m first).take n =
      datesFrom next? n first := by
  induction n generalizing m first with
  | zero => rfl
  | succ n ih =>
      rcases Nat.exists_eq_add_of_le' hLe with ⟨more, rfl⟩
      rw [← Nat.add_assoc, datesFrom, datesFrom,
        List.take_succ_cons]
      cases next? first with
      | none => simp
      | some next =>
          simp only [ih (Nat.le_add_left n more) next]

/- There are as many dates as asked for, or all there are. -/
theorem min_length_datesFrom_le
    (next? : Instant → Option Instant)
    (n m : Nat)
    (first : Instant) :
    min n (datesFrom next? m first).length ≤
      (datesFrom next? n first).length := by
  rcases Nat.le_total n m with hLe | hLe
  · apply Nat.le_of_eq
    rw [← take_datesFrom hLe, List.length_take]
  · have hFewer :
        ((datesFrom next? n first).take m).length =
          (datesFrom next? m first).length :=
      congrArg List.length (take_datesFrom hLe first)
    rw [List.length_take] at hFewer
    omega

theorem mem_datesFrom_of_le
    {next? : Instant → Option Instant}
    {n m : Nat}
    {first date : Instant}
    (hMember : date ∈ datesFrom next? n first)
    (hLe : n ≤ m) :
    date ∈ datesFrom next? m first := by
  induction n generalizing first m with
  | zero => cases hMember
  | succ n ih =>
      rcases Nat.exists_eq_add_of_le' hLe with ⟨more, rfl⟩
      rw [← Nat.add_assoc, datesFrom]
      rw [datesFrom] at hMember
      rcases List.mem_cons.mp hMember with rfl | hLater
      · exact List.mem_cons_self
      · apply List.mem_cons_of_mem
        cases hNext : next? first with
        | none =>
            rw [hNext] at hLater
            cases hLater
        | some next =>
            rw [hNext] at hLater
            exact ih hLater (Nat.le_add_left n more)

/- A date is not cut off if no date up to it is. -/
theorem mem_takeWhile_datesFrom
    {next? : Instant → Option Instant}
    {reaches : Instant → Bool}
    {n : Nat}
    {first date : Instant}
    (hMember : date ∈ datesFrom next? n first)
    (hReaches :
      ∀ d, DateFrom next? first d → DateFrom next? d date →
        reaches d = true) :
    date ∈ (datesFrom next? n first).takeWhile reaches := by
  induction n generalizing first with
  | zero => cases hMember
  | succ n ih =>
      have hFirst :=
        hReaches first .first (dateFrom_of_mem_datesFrom hMember)
      rw [datesFrom, List.takeWhile_cons_of_pos hFirst]
      rw [datesFrom] at hMember
      rcases List.mem_cons.mp hMember with rfl | hLater
      · exact List.mem_cons_self
      · apply List.mem_cons_of_mem
        cases hNext : next? first with
        | none =>
            rw [hNext] at hLater
            cases hLater
        | some next =>
            rw [hNext] at hLater
            apply ih hLater
            intro d hFrom hTo
            exact hReaches d
              ((DateFrom.first.next hNext).trans hFrom) hTo

/-
  A date of the series of an event: one that steps lead to
  from its start, at the local time of that start.
-/
def Event.HasDate
    (e : Event)
    (z : Zone)
    (date : Instant) : Prop :=
  ∃ start here, e.startsAt = some start ∧
    z.toLocal start = .ok here ∧
      DateFrom (e.dateAfter? z here.time) start date

/- Steps do not leave the series. -/
theorem Event.HasDate.trans
    {e : Event}
    {z : Zone}
    {start date later : Instant}
    {here : LocalTime}
    (hDate : e.HasDate z date)
    (hStart : e.startsAt = some start)
    (hHere : z.toLocal start = .ok here)
    (hLater :
      DateFrom (e.dateAfter? z here.time) date later) :
    e.HasDate z later := by
  rcases hDate with ⟨other, otherHere, hOther, hOtherHere, hFrom⟩
  rw [hStart, Option.some.injEq] at hOther
  subst hOther
  rw [hHere, Except.ok.injEq] at hOtherHere
  subst hOtherHere
  exact ⟨start, here, hStart, hHere, hFrom.trans hLater⟩

theorem Event.lt_of_dateAfter?
    {e : Event}
    {z : Zone}
    {time : ClockTime}
    {date next : Instant}
    (hNext : e.dateAfter? z time date = some next) :
    date < next := by
  simpa using (Option.filter_eq_some_iff.mp hNext).2

------------------------------------------------------------
-- Steps Of A Walk
------------------------------------------------------------

namespace WalkPlan

/- The date to which a walk goes on, if there is one. -/
def later?
    (p : WalkPlan)
    (date : Instant) : Option Instant :=
  p.event.dateAfter? p.zone p.timeOfDay date

theorem later?_of_next?
    {p : WalkPlan}
    {date : Instant}
    {next : Option Instant}
    (hNext : p.next? date = .ok next) :
    p.later? date = next := by
  unfold next? at hNext
  cases hAfter : p.event.recurrence.nextAfter p.zone
      p.timeOfDay date with
  | error range =>
      simp [hAfter, bind, Except.bind] at hNext
  | ok after =>
      simp only [hAfter, bind, Except.bind, pure, Except.pure,
        Except.ok.injEq] at hNext
      simp [later?, Event.dateAfter?, hAfter,
        Except.toOption, ← hNext]

theorem next?_of_nextAfter
    {p : WalkPlan}
    {date : Instant}
    {next : Option Instant}
    (hNext :
      p.event.recurrence.nextAfter p.zone p.timeOfDay date =
        .ok next) :
    ∃ later, p.next? date = .ok later := by
  rw [next?, hNext]
  exact ⟨_, rfl⟩

theorem next?_of_later?
    {p : WalkPlan}
    {date next : Instant}
    (hLater : p.later? date = some next) :
    ∃ found, p.next? date = .ok found := by
  rw [later?, Event.dateAfter?] at hLater
  cases hAfter : p.event.recurrence.nextAfter p.zone
      p.timeOfDay date with
  | error range => simp [hAfter, Except.toOption] at hLater
  | ok after => exact next?_of_nextAfter hAfter

theorem lt_of_later?
    {p : WalkPlan}
    (date next : Instant)
    (hNext : p.later? date = some next) :
    date < next :=
  Event.lt_of_dateAfter? hNext

end WalkPlan

end EventSeries
