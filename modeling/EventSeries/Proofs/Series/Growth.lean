import EventSeries.Proofs.Rule.NextStart
import EventSeries.Proofs.Series.Pipeline
import EventSeries.Proofs.Series.Sorting
import EventSeries.Zone.Tables.Asia

/-
  A series makes progress.  Each start stands on a date of its
  pattern, and the pattern steps past that date, so that the
  next start is later, unless the clocks move it back to the
  date before.  They cannot where the pattern goes over weeks,
  nor where two changes of the clocks lie two days apart.  A
  walk that nothing is taken out of then ends when it has as
  many occurrences as are wanted.

  Main declarations:
    * `Event.StepsInCalendar`
    * `Event.StaysInCalendar`
    * `Event.StaysInCalendar.step`
    * `WalkPlan.ShowsAll`
    * `WalkPlan.walkFrom_of_staysInCalendar`
    * `Generator.series_fills_count`
    * `Generator.series_short_of_count`
-/

namespace EventSeries

------------------------------------------------------------
-- Runs Of Steps
------------------------------------------------------------

/-
  So many steps of an event from a start stay in the calendar:
  their arithmetic does, and there is a next month where the
  rule steps to one.
-/
structure Event.StepsInCalendar
    (e : Event)
    (z : Zone)
    (time : ClockTime)
    (steps : Nat)
    (start : Instant) : Prop where
  arithmetic :
    ∃ starts,
      e.recurrence.startsAfter z time steps start = .ok starts
  months :
    e.recurrence.stepsByMonth = true →
      ∀ date ∈ datesFrom (e.dateAfter? z time) steps start,
        (z.wallTime date).date.HasNextMonth

/-
  So many steps of an event from a start stay in the calendar:
  their arithmetic does, there is a next month where the rule
  steps to one, and so do the times of the occurrences.
-/
structure Event.StaysInCalendar
    (e : Event)
    (z : Zone)
    (time : ClockTime)
    (steps : Nat)
    (start : Instant) : Prop where
  arithmetic :
    ∃ starts,
      e.recurrence.startsAfter z time steps start = .ok starts
  months :
    e.recurrence.stepsByMonth = true →
      ∀ date ∈ datesFrom (e.dateAfter? z time) steps start,
        (z.wallTime date).date.HasNextMonth
  times :
    ∀ date ∈ datesFrom (e.dateAfter? z time) (steps + 1) start,
      ∃ occurrence, e.occurrenceAt date = .ok occurrence

namespace Event.StepsInCalendar

variable {e : Event}
variable {z : Zone}
variable {time : ClockTime}
variable {steps : Nat}
variable {start : Instant}

/- There is a next start, and steps are left from there. -/
theorem exists_nextAfter
    (hRecurring : e.isRecurring = true)
    (hInside : e.StepsInCalendar z time (steps + 1) start) :
    ∃ next,
      e.recurrence.nextAfter z time start = .ok (some next) ∧
      ∃ starts,
        e.recurrence.startsAfter z time steps next =
          .ok starts := by
  rcases Rule.exists_nextAfter_of_startsAfter
      hInside.arithmetic with
    ⟨found, hNext, hRest⟩
  rcases Rule.nextAfter_cases hNext with ⟨hHere, hStep⟩
  rcases Rule.startAfterDate_cases hStep with
    ⟨_, hEnd⟩ | ⟨_, next, rfl, _⟩
  · rcases Rule.last_month_of_nextDate_none hRecurring
        (Rule.inCalendar_of_toLocal hHere) hEnd with
      ⟨hMonths, hLast⟩
    have hMember :
        start ∈
          datesFrom (e.dateAfter? z time) (steps + 1) start := by
      rw [datesFrom]
      exact List.mem_cons_self
    exact absurd (hInside.months hMonths start hMember) hLast
  · exact ⟨next, hNext, hRest next rfl⟩

/- A step to a later start leaves the others inside. -/
theorem of_dateAfter?
    {next : Instant}
    (hInside : e.StepsInCalendar z time (steps + 1) start)
    (hAfter : e.dateAfter? z time start = some next)
    (hRest :
      ∃ starts,
        e.recurrence.startsAfter z time steps next =
          .ok starts) :
    e.StepsInCalendar z time steps next := by
  refine ⟨hRest, ?_⟩
  intro hMonths date hMember
  apply hInside.months hMonths
  rw [datesFrom_of_next hAfter]
  exact List.mem_cons_of_mem start hMember

end Event.StepsInCalendar

/- A next start is the date that follows if it is later. -/
theorem Event.dateAfter?_of_nextAfter
    {e : Event}
    {z : Zone}
    {time : ClockTime}
    {start next : Instant}
    (hNext :
      e.recurrence.nextAfter z time start = .ok (some next))
    (hLess : start < next) :
    e.dateAfter? z time start = some next := by
  rw [Event.dateAfter?, hNext]
  exact Option.filter_eq_some_iff.mpr
    ⟨rfl, decide_eq_true hLess⟩

namespace Event.StaysInCalendar

variable {e : Event}
variable {z : Zone}
variable {time : ClockTime}
variable {d : Date}
variable {steps : Nat}
variable {start : Instant}

/- The first date has its times in the calendar. -/
theorem first
    (hInside : e.StaysInCalendar z time steps start) :
    ∃ occurrence, e.occurrenceAt start = .ok occurrence := by
  apply hInside.times
  rw [datesFrom]
  exact List.mem_cons_self

/- The steps stay in the calendar without the times. -/
theorem steps_inside
    (hInside : e.StaysInCalendar z time steps start) :
    e.StepsInCalendar z time steps start :=
  ⟨hInside.arithmetic, hInside.months⟩

section

variable (hRecurring : e.isRecurring = true)
variable (hNear : z.OffsetsNear)
variable (hForward :
  e.recurrence.stepsByMonth = true → z.MovesForward)
variable (hNanos : time.nanos < 2 * nanosPerSecond)
variable (hStands : e.recurrence.StandsOn z time d start)

include hRecurring hNear hForward hNanos hStands

/- One step: to a later date, from where the others go on. -/
theorem step
    (hInside : e.StaysInCalendar z time (steps + 1) start) :
    ∃ next later,
      e.recurrence.nextAfter z time start = .ok (some next) ∧
      e.dateAfter? z time start = some next ∧
      d < later ∧ e.recurrence.StandsOn z time later next ∧
      e.StaysInCalendar z time steps next := by
  have hSteps := hInside.steps_inside
  rcases hSteps.exists_nextAfter hRecurring with
    ⟨next, hNext, hStarts⟩
  rcases Rule.standsOn_of_nextAfter hNear hForward hNanos hStands
      hNext with
    ⟨hLess, later, hLater, hNextStands⟩
  have hAfter := dateAfter?_of_nextAfter hNext hLess
  have hRest := hSteps.of_dateAfter? hAfter hStarts
  refine ⟨next, later, hNext, hAfter, hLater, hNextStands,
    hRest.arithmetic, hRest.months, ?_⟩
  intro date hMember
  apply hInside.times
  rw [datesFrom_of_next hAfter]
  exact List.mem_cons_of_mem start hMember

/- All the steps are made. -/
theorem length_datesFrom
    (hInside : e.StaysInCalendar z time steps start) :
    (datesFrom (e.dateAfter? z time) (steps + 1) start).length =
      steps + 1 := by
  induction steps generalizing d start with
  | zero => cases hNext : e.dateAfter? z time start <;>
      simp [datesFrom, hNext]
  | succ steps ih =>
      rcases step hRecurring hNear hForward hNanos hStands
          hInside with
        ⟨next, _, _, hAfter, _, hNextStands, hRest⟩
      rw [datesFrom_of_next hAfter, List.length_cons,
        ih hNextStands hRest]

/- There are no more steps than days left in the calendar. -/
theorem steps_le
    (hInside : e.StaysInCalendar z time steps start) :
    d.dayNumber + steps ≤ Date.last.dayNumber := by
  induction steps generalizing d start with
  | zero =>
      rw [Int.ofNat_zero, Int.add_zero]
      exact hStands.inCalendar.2
  | succ steps ih =>
      rcases step hRecurring hNear hForward hNanos hStands
          hInside with
        ⟨next, later, _, _, hLater, hNextStands, hRest⟩
      have hLeft := ih hNextStands hRest
      rw [Date.lt_def] at hLater
      omega

end

end Event.StaysInCalendar

------------------------------------------------------------
-- Walks That Nothing Is Taken Out Of
------------------------------------------------------------

namespace WalkPlan

/-
  A plan without records and windows that keeps what is past
  and has no horizon.
-/
structure ShowsAll
    (p : WalkPlan) : Prop where
  unrecorded : ∀ date, p.index.record? date = none
  unhidden : p.windows = []
  past : p.options.includePast = true
  endless : p.options.horizonEnd = none

variable {p : WalkPlan}

theorem ShowsAll.visit
    {date : Instant}
    {occurrence : Occurrence}
    (hAll : p.ShowsAll)
    (hAt : p.event.occurrenceAt date = .ok occurrence) :
    p.visit date = .ok (.found occurrence) := by
  have hAdmits := admits_of_includePast hAll.past date
  rw [visit_of_shown
    (reaches_of_no_horizon hAll.endless date)
    (hAll.unrecorded date) (by simp [hAll.unhidden]),
    if_pos hAdmits, hAt]
  rfl

/- On each of its dates it gathers an occurrence. -/
theorem ShowsAll.exists_walkFrom
    {date : Instant}
    (hAll : p.ShowsAll)
    (hAt : ∃ o, p.event.occurrenceAt date = .ok o)
    (n : Nat)
    (s : WalkState) :
    ∃ o s', o.start = date ∧
      s'.collected.toList = s.collected.toList ++ [o] ∧
      s'.collected.size = s.collected.size + 1 ∧
      p.walkFrom (n + 1) date s =
        if p.isFilled s' then
          ⟨s', .filled⟩
        else
          match p.next? date with
          | .error range => ⟨s', .outOfRange range⟩
          | .ok none => ⟨s', .patternEnded⟩
          | .ok (some next) => p.walkFrom n next s' := by
  rcases hAt with ⟨o, hAt⟩
  exact ⟨o, s.record p.event.id date (.found o),
    (Event.occurrenceAt_start hAt).1,
    record_collected s p.event.id date (.found o),
    record_size s p.event.id date (.found o),
    walkFrom_of_finds (hAll.visit hAt) (by simp)⟩

theorem next?_of_later?_eq_some
    {date next : Instant}
    (hLater : p.later? date = some next) :
    p.next? date = .ok (some next) := by
  rcases next?_of_later? hLater with ⟨found, hNext⟩
  have hSame := later?_of_next? hNext
  rw [hLater] at hSame
  rw [hNext, ← hSame]

/-
  The walk shows its dates one after the other until it has as
  many occurrences as are wanted.  The induction is on the
  occurrences that are wanted besides the first one.
-/
theorem walkFrom_of_staysInCalendar
    {d : Date}
    {steps attempts : Nat}
    {start : Instant}
    {s : WalkState}
    (hAll : p.ShowsAll)
    (hRecurring : p.event.isRecurring = true)
    (hNear : p.zone.OffsetsNear)
    (hForward :
      p.event.recurrence.stepsByMonth = true →
        p.zone.MovesForward)
    (hNanos : p.timeOfDay.nanos < 2 * nanosPerSecond)
    (hStands :
      p.event.recurrence.StandsOn p.zone p.timeOfDay d start)
    (hInside :
      p.event.StaysInCalendar p.zone p.timeOfDay steps start)
    (hWanted :
      s.collected.size + (steps + 1) = p.options.maxOccurrences)
    (hAttempts : steps < attempts) :
    let finish := p.walkFrom attempts start s
    finish.stop = .filled ∧
      ∃ os,
        finish.state.collected.toList =
          s.collected.toList ++ os ∧
        os.map (·.start) = datesFrom p.later? (steps + 1) start := by
  induction steps generalizing d start s attempts with
  | zero =>
      rcases Nat.exists_eq_add_of_lt hAttempts with ⟨n, rfl⟩
      rcases hAll.exists_walkFrom hInside.first (0 + n) s with
        ⟨o, s', hStart, hCollected, hSize, hWalk⟩
      have hFilled : p.isFilled s' = true := by
        rw [isFilled, decide_eq_true_eq]
        omega
      rw [hWalk, if_pos hFilled]
      refine ⟨rfl, [o], hCollected, ?_⟩
      cases hNext : p.later? start <;>
        simp [datesFrom, hNext, hStart]
  | succ steps ih =>
      rcases Nat.exists_eq_add_of_lt hAttempts with ⟨n, rfl⟩
      rcases hAll.exists_walkFrom hInside.first (steps + 1 + n)
          s with
        ⟨o, s', hStart, hCollected, hSize, hWalk⟩
      have hOpen : ¬ p.isFilled s' = true := by
        rw [isFilled, decide_eq_true_eq]
        omega
      rcases hInside.step hRecurring hNear hForward hNanos
          hStands with
        ⟨next, _, _, hAfter, _, hNextStands, hRest⟩
      change p.later? start = some next at hAfter
      rw [hWalk, if_neg hOpen, next?_of_later?_eq_some hAfter]
      have hLeft : steps < steps + 1 + n := by omega
      rcases ih (s := s') hNextStands hRest (by omega) hLeft with
        ⟨hStop, os, hOs, hStarts⟩
      refine ⟨hStop, o :: os, ?_, ?_⟩
      · rw [hOs, hCollected, List.append_assoc]
        rfl
      · rw [datesFrom_of_next hAfter, List.map_cons, hStart,
          hStarts]

end WalkPlan

------------------------------------------------------------
-- Series That Fill Their Count
------------------------------------------------------------

theorem WalkEnd.occurrences_of_filled
    {finish : WalkEnd}
    (hStop : finish.stop = .filled) :
    finish.occurrences =
      .ok (sortOccurrences finish.state.collected.toList) := by
  rw [occurrences, hStop]

namespace Generator

/- No walk over days of the calendar lacks attempts. -/
theorem le_maxAttempts
    {g : Generator}
    {o : SeriesOptions}
    {d : Date}
    (hAttempts : 0 < g.attemptsPerOccurrence)
    (hInside : d.InCalendar)
    (hDays :
      d.dayNumber + (o.maxOccurrences - 1 : Nat) ≤
        Date.last.dayNumber) :
    o.maxOccurrences ≤ g.maxAttempts o := by
  have hFirst : Date.first.dayNumber ≤ d.dayNumber := hInside.1
  simp only [Date.first, Date.last] at hFirst hDays
  apply Nat.le_min.mpr
  constructor
  · exact Nat.le_mul_of_pos_right _ hAttempts
  · simp only [largestWord, UInt64.size]
    omega

/-
  A series without a cache, records, windows or horizon that
  keeps its past has as many occurrences as are wanted, from
  its start on, unless it leaves the calendar: its walk ends
  for no other reason.  The offsets of the zone lie less than
  a day apart.  A rule that goes from month to month may step
  by a single day, and needs a zone that moves no wall time
  back: one whose transitions are two days apart, with offsets
  that are shorter than a day.
-/
theorem series_fills_count
    {g : Generator}
    {e : Event}
    {o : SeriesOptions}
    {start : Instant}
    {here : LocalTime}
    (hRecurring : e.isRecurring = true)
    (hManual : (e.manualDates g.zone).value = .ok [])
    (hStart : e.startsAt = some start)
    (hUncached : e.nextStart = none)
    (hHere : g.zone.toLocal start = .ok here)
    (hNanos : start.nanos < 2 * nanosPerSecond)
    (hNear : g.zone.OffsetsNear)
    (hMonths :
      e.recurrence.stepsByMonth = true →
        g.zone.Spaced ∧ g.zone.OffsetsShort)
    (hAttempts : 0 < g.attemptsPerOccurrence)
    (hWanted : 0 < o.maxOccurrences)
    (hPast : o.includePast = true)
    (hEndless : o.horizonEnd = none)
    (hInside :
      e.StaysInCalendar g.zone here.time (o.maxOccurrences - 1)
        start) :
    ∃ os, g.series e [] [] o = .ok os ∧
      os.length = o.maxOccurrences ∧
      (os.map (·.start)).head? = some start ∧
      (os.map (·.start)).Pairwise (· < ·) ∧
      ((g.plan e {} [] o here.time).walk start).stop =
        .filled := by
  have hForward :
      e.recurrence.stepsByMonth = true →
        g.zone.MovesForward := by
    intro hByMonth
    rcases hMonths hByMonth with ⟨hSpaced, hShort⟩
    exact Zone.movesForward_of_spaced hSpaced hShort
  have hTime : g.timeOfDay e start = .ok here.time :=
    (timeOfDay_eq_ok_iff hStart).mpr ⟨here, hHere, rfl⟩
  have hClock : here.time.nanos < 2 * nanosPerSecond := by
    rcases Zone.eq_wallTime_of_toLocal hHere with ⟨rfl, _⟩
    exact hNanos
  have hStands :
      e.recurrence.StandsOn g.zone here.time here.date start :=
    Rule.standsOn_of_toLocal hHere
  have hCount :=
    hInside.length_datesFrom hRecurring hNear hForward hClock
      hStands
  have hDays :=
    hInside.steps_le hRecurring hNear hForward hClock hStands
  have hEnough :=
    le_maxAttempts hAttempts hStands.inCalendar hDays
  have hAll : (g.plan e {} [] o here.time).ShowsAll :=
    ⟨fun _ => rfl, rfl, hPast, hEndless⟩
  have hRoom :
      ({} : WalkState).collected.size + (o.maxOccurrences - 1 + 1) =
        o.maxOccurrences := by
    change 0 + _ = _
    omega
  have hLeft : o.maxOccurrences - 1 < g.maxAttempts o := by
    omega
  rcases WalkPlan.walkFrom_of_staysInCalendar hAll hRecurring
      hNear hForward hClock hStands hInside hRoom hLeft with
    ⟨hStop, os, hOs, hStarts⟩
  change os.map (·.start) =
    datesFrom (e.dateAfter? g.zone here.time) _ start at hStarts
  have hOrdered : (os.map (·.start)).Pairwise (· < ·) := by
    rw [hStarts]
    exact pairwise_datesFrom
      (fun _ _ hNext => Event.lt_of_dateAfter? hNext) _ start
  refine ⟨os, ?_, ?_, ?_, hOrdered, hStop⟩
  · have hWalk :
        ((g.plan e {} [] o here.time).walk start).occurrences =
          .ok os := by
      refine (WalkEnd.occurrences_of_filled hStop).trans ?_
      change Except.ok (sortOccurrences (WalkPlan.walkFrom _
        (g.maxAttempts o) start {}).state.collected.toList) = _
      rw [hOs]
      rw [List.pairwise_map] at hOrdered
      exact congrArg _
        (sortOccurrences_of_pairwise
          (hOrdered.imp Std.le_of_lt))
    exact (series_uncached hRecurring hManual hStart hWanted
      hTime hUncached []).trans hWalk
  · rw [← List.length_map (f := (·.start)), hStarts, hCount]
    omega
  · rw [hStarts, datesFrom]
    rfl

end Generator

/-
  A show on the first of every month at five past midnight, in
  a zone that skips that time in the second month.
-/
def monthlyShow : Event where
  id := ⟨3⟩
  title := "Midnight show"
  startsAt := some ⟨502223700, 0⟩
  endsAt := some ⟨502230900, 0⟩
  recurrence := .monthlyByDate (some 1)

theorem monthlyShow_toLocal :
    Zone.kathmandu.toLocal ⟨502223700, 0⟩ =
      .ok ⟨⟨5813⟩, ⟨300, 0, by decide⟩⟩ := by
  cbv

theorem monthlyShow_dates :
    datesFrom
        (monthlyShow.dateAfter? .kathmandu
          ⟨300, 0, by decide⟩) 3 ⟨502223700, 0⟩ =
      [⟨502223700, 0⟩, ⟨504902100, 0⟩, ⟨507579600, 0⟩] := by
  cbv

theorem Generator.series_fills_count_of_monthlyShow :
    ∃ os,
      Generator.series ⟨.kathmandu, ⟨0, 0⟩, 1⟩ monthlyShow [] []
        ⟨3, true, none⟩ = .ok os ∧ os.length = 3 := by
  have hStarts :
      monthlyShow.recurrence.startsAfter .kathmandu
          ⟨300, 0, by decide⟩ 2 ⟨502223700, 0⟩ =
        .ok [some ⟨504902100, 0⟩, some ⟨507579600, 0⟩] := by
    cbv
  have hInside :
      monthlyShow.StaysInCalendar .kathmandu
        ⟨300, 0, by decide⟩ 2 ⟨502223700, 0⟩ := by
    refine ⟨⟨_, hStarts⟩, ?_, ?_⟩
    · intro _
      decide
    · rw [monthlyShow_dates]
      intro date hMember
      simp only [List.mem_cons, List.not_mem_nil, or_false]
        at hMember
      rcases hMember with rfl | rfl | rfl
      · exact ⟨_, rfl⟩
      · exact ⟨_, rfl⟩
      · exact ⟨_, rfl⟩
  have hNear : Zone.kathmandu.OffsetsNear :=
    Zone.offsetsNear_of_between 0 (by decide)
  rcases series_fills_count (g := ⟨.kathmandu, ⟨0, 0⟩, 1⟩)
      (o := ⟨3, true, none⟩) rfl
      (Event.manualDates_of_nil rfl .kathmandu) rfl rfl
      monthlyShow_toLocal (by decide) hNear
      (fun _ => ⟨by decide, by decide⟩)
      (by decide) (by decide) rfl rfl hInside with
    ⟨os, hSeries, hLength, _⟩
  exact ⟨os, hSeries, hLength⟩

/-
  A zone that goes back two hours after midnight on the first
  of February, and forward again an hour later.
-/
def Zone.backAndForth : Zone where
  name := "Back and forth"
  initialOffset := 0
  transitions := [⟨2679000, -7200⟩, ⟨2682600, 0⟩]

/- A show on the first of every month at half past midnight. -/
def lateShow : Event :=
  { monthlyShow with
    startsAt := some ⟨1800, 0⟩
    endsAt := some ⟨9000, 0⟩ }

theorem lateShow_dates :
    datesFrom
        (lateShow.dateAfter? .backAndForth
          ⟨1800, 0, by decide⟩) 3 ⟨1800, 0⟩ =
      [⟨1800, 0⟩, ⟨2680200, 0⟩] := by
  cbv

/-
  The start in February is skipped, and shown on the last of
  January; the date after that is the first of February.
-/
theorem lateShow_held_up :
    lateShow.recurrence.startsAfter .backAndForth
        ⟨1800, 0, by decide⟩ 2 ⟨1800, 0⟩ =
      .ok [some ⟨2680200, 0⟩, some ⟨2680200, 0⟩] := by
  cbv

theorem lateShow_staysInCalendar :
    lateShow.StaysInCalendar .backAndForth
      ⟨1800, 0, by decide⟩ 2 ⟨1800, 0⟩ := by
  refine ⟨⟨_, lateShow_held_up⟩, ?_, ?_⟩
  · intro _
    decide
  · rw [lateShow_dates]
    intro date hMember
    simp only [List.mem_cons, List.not_mem_nil, or_false]
      at hMember
    rcases hMember with rfl | rfl
    · exact ⟨_, rfl⟩
    · exact ⟨_, rfl⟩

/-
  Three series that do not fill their count.  A zone that goes
  back and forth holds up a show that goes from month to
  month, though all its steps stay in the calendar.  In Tokyo
  an event on the last night of the calendar has no local
  start, even if it is the only one that is wanted.  And a
  night that ends then is too long for the next one to end.
-/
theorem Generator.series_short_of_count :
    let heldUp : Generator := ⟨.backAndForth, ⟨0, 0⟩, 6⟩
    let inTokyo : Generator := ⟨.tokyo, ⟨0, 0⟩, 6⟩
    let inUtc : Generator := ⟨.utc, ⟨0, 0⟩, 6⟩
    let late := { jazzNight with startsAt := some lastNight }
    let long := { jazzNight with endsAt := some lastNight }
    (heldUp.zone.Ordered ∧ heldUp.zone.OffsetsNear ∧
      heldUp.zone.OffsetsShort ∧
      lateShow.StaysInCalendar heldUp.zone
        ⟨1800, 0, by decide⟩ 2 ⟨1800, 0⟩ ∧
      ∃ os,
        heldUp.series lateShow [] [] ⟨3, true, none⟩ = .ok os ∧
          os.length = 2) ∧
    (lastNight.InCalendar ∧
      inTokyo.series late [] [] ⟨1, true, none⟩ =
        .error .calendar) ∧
    (long.StepsInCalendar .utc nightClock 1 (nightTime 0 0) ∧
      inUtc.series long [] [] ⟨2, true, none⟩ =
        .error .calendar) := by
  intro heldUp inTokyo inUtc late long
  have hNear : Zone.backAndForth.OffsetsNear :=
    Zone.offsetsNear_of_between (-7200) (by decide)
  have hStarts :
      long.recurrence.startsAfter .utc nightClock 1
          (nightTime 0 0) = .ok [some (nightTime 1 0)] := by
    cbv
  refine ⟨⟨by decide, hNear, by decide,
      lateShow_staysInCalendar, ⟨_, by cbv, rfl⟩⟩,
    ⟨by decide, by cbv⟩, ⟨⟨⟨_, hStarts⟩, ?_⟩, by cbv⟩⟩
  intro hMonths
  cases hMonths

end EventSeries
