import EventSeries.Proofs.Series.Modes
import EventSeries.Proofs.Series.Pattern

/-
  The dates from now on of a series that began in the past.
  The attempts of a walk count all its dates, and those that
  are over as well.  What the walk shows are therefore the
  first upcoming ones among as many dates as it has attempts:
  all that are wanted, if the attempts suffice for these and
  for the dates that are over, and fewer otherwise.

  Main declarations:
    * `Event.StepsInCalendar.length_datesFrom`
    * `exists_nextAfter_of_datesFrom`
    * `WalkPlan.Plain`
    * `WalkPlan.StepsOn`
    * `WalkPlan.Plain.staysInRange`
    * `Generator.attemptedDates`
    * `Generator.exists_walk_of_upcoming`
    * `Generator.series_of_upcoming`
-/

namespace EventSeries

------------------------------------------------------------
-- Dates That The Steps Lead To
------------------------------------------------------------

section

variable {e : Event}
variable {z : Zone}
variable {time : ClockTime}
variable {steps : Nat}
variable {start : Instant}

/- All steps are made whose arithmetic stays in the calendar. -/
theorem Event.StepsInCalendar.length_datesFrom
    (hRecurring : e.isRecurring = true)
    (hShort : z.OffsetsShort)
    (hMonths :
      e.recurrence.stepsByMonth = true →
        z.Spaced ∧ z.FoldsShort)
    (hNanos : time.nanos < 2 * nanosPerSecond)
    (hSet : z.SetAt time start)
    (hInside : e.StepsInCalendar z time steps start) :
    (datesFrom (e.dateAfter? z time) (steps + 1) start).length =
      steps + 1 := by
  induction steps generalizing start with
  | zero =>
      cases hNext : e.dateAfter? z time start <;>
        simp [datesFrom, hNext]
  | succ steps ih =>
      rcases hInside.exists_nextAfter hRecurring with
        ⟨next, hNext, hStarts⟩
      rcases Rule.lt_of_nextAfter hShort hMonths hNanos hSet
          hNext with
        ⟨hLess, hNextSet⟩
      have hAfter := Event.dateAfter?_of_nextAfter hNext hLess
      rw [datesFrom_of_next hAfter, List.length_cons,
        ih hNextSet (hInside.of_dateAfter? hAfter hStarts)]

/- From each date but the last the arithmetic leads on. -/
theorem exists_nextAfter_of_datesFrom
    {n k : Nat}
    {date : Instant}
    (hStarts :
      ∃ starts,
        e.recurrence.startsAfter z time steps start =
          .ok starts)
    (hDate :
      (datesFrom (e.dateAfter? z time) n start)[k]? =
        some date)
    (hStep : k < steps) :
    ∃ next, e.recurrence.nextAfter z time date = .ok next := by
  induction k generalizing n steps start with
  | zero =>
      rcases Nat.exists_eq_add_of_lt hStep with ⟨m, rfl⟩
      rcases Rule.exists_nextAfter_of_startsAfter hStarts with
        ⟨found, hNext, _⟩
      cases n with
      | zero => cases hDate
      | succ n =>
          rw [datesFrom, List.getElem?_cons_zero,
            Option.some.injEq] at hDate
          subst hDate
          exact ⟨found, hNext⟩
  | succ k ih =>
      rcases Nat.exists_eq_add_of_lt hStep with ⟨m, rfl⟩
      rcases Rule.exists_nextAfter_of_startsAfter hStarts with
        ⟨found, hNext, hRest⟩
      cases n with
      | zero => cases hDate
      | succ n =>
          cases hAfter : e.dateAfter? z time start with
          | none => simp [datesFrom, hAfter] at hDate
          | some next =>
              rw [datesFrom_of_next hAfter,
                List.getElem?_cons_succ] at hDate
              have hJoined :=
                (Option.filter_eq_some_iff.mp hAfter).1
              rw [hNext] at hJoined
              exact ih (hRest next hJoined) hDate (by omega)

end

------------------------------------------------------------
-- Walks Without Records And Windows
------------------------------------------------------------

namespace WalkPlan

/- A plan without records and windows. -/
structure Plain
    (p : WalkPlan) : Prop where
  unrecorded : ∀ date, p.index.record? date = none
  unhidden : p.windows = []

variable {p : WalkPlan}

theorem Plain.entry_eq
    (hPlain : p.Plain)
    (date : Instant) :
    p.entry date = some <$> p.event.occurrenceAt date :=
  entry_of_shown (hPlain.unrecorded date)
    (by simp [hPlain.unhidden])

/- A date that is left out for being past keeps nothing. -/
theorem Plain.kept?_of_not_admits
    {date : Instant}
    (hPlain : p.Plain)
    (hPast : ¬ p.options.admits p.now date = true) :
    p.kept? date = none := by
  rw [kept?, occurrence?, hPlain.entry_eq]
  cases hAt : p.event.occurrenceAt date with
  | error range => rfl
  | ok x =>
      have hStart := (Event.occurrenceAt_start hAt).1
      simp [Functor.map, Except.map, Except.toOption,
        Option.filter, admits, hStart, hPast]

/- Any other keeps its occurrence, with its times inside. -/
theorem Plain.kept?_of_admits
    {date : Instant}
    {x : Occurrence}
    (hPlain : p.Plain)
    (hAdmits : p.options.admits p.now date = true)
    (hAt : p.event.occurrenceAt date = .ok x) :
    p.kept? date = some x := by
  have hStart := (Event.occurrenceAt_start hAt).1
  rw [kept?, occurrence?, hPlain.entry_eq, hAt]
  simp [Functor.map, Except.map, Except.toOption,
    Option.filter, admits, hStart, hAdmits]

/-
  The walk can step on from each date up to which it has come
  by fewer admitted ones than are wanted.
-/
def StepsOn
    (p : WalkPlan)
    (wanted : Nat)
    (dates : List Instant) : Prop :=
  ∀ k date, dates[k]? = some date →
    (dates.take (k + 1)).countP (p.options.admits p.now) <
      wanted →
    ∃ next, p.next? date = .ok next

section

variable {date : Instant}
variable {later : List Instant}
variable {wanted : Nat}

/- An admitted date is one of those that are wanted. -/
theorem StepsOn.of_admitted
    (hSteps : p.StepsOn (wanted + 1) (date :: later))
    (hAdmits : p.options.admits p.now date = true) :
    p.StepsOn wanted later := by
  intro k next hDate hFewer
  apply hSteps (k + 1) next (by simpa using hDate)
  rw [List.take_succ_cons, List.countP_cons_of_pos hAdmits]
  omega

theorem StepsOn.of_passed
    (hSteps : p.StepsOn wanted (date :: later))
    (hPast : ¬ p.options.admits p.now date = true) :
    p.StepsOn wanted later := by
  intro k next hDate hFewer
  apply hSteps (k + 1) next (by simpa using hDate)
  rwa [List.take_succ_cons, List.countP_cons_of_neg hPast]

end

/-
  The walk stays in range if the first of its admitted dates,
  as many as are wanted, have their times in the calendar, and
  if it can step on until it has come to them.  Of each it
  shows the occurrence.  The induction is on the dates; one
  that is not admitted is passed, any other is wanted.
-/
theorem Plain.staysInRange
    {dates : List Instant}
    {wanted : Nat}
    (hPlain : p.Plain)
    (hTimes :
      ∀ date ∈ (dates.filter (p.options.admits p.now)).take wanted,
        ∃ x, p.event.occurrenceAt date = .ok x)
    (hSteps : p.StepsOn wanted dates) :
    p.StaysInRange wanted dates ∧
      ((dates.filter (p.options.admits p.now)).take wanted).map
          p.event.occurrenceAt =
        ((dates.filterMap p.kept?).take wanted).map .ok := by
  induction dates generalizing wanted with
  | nil => exact ⟨staysInRange_nil p wanted, by simp⟩
  | cons date later ih =>
      have hFirst := hSteps 0 date rfl
      rw [staysInRange_cons_iff]
      by_cases hAdmits : p.options.admits p.now date = true
      · rw [List.filter_cons_of_pos hAdmits] at hTimes ⊢
        cases wanted with
        | zero =>
            refine ⟨⟨?_, ?_, ?_⟩, rfl⟩
            · intro hNone
              omega
            · intro hNone
              omega
            · rw [Nat.zero_sub]
              exact staysInRange_zero p later
        | succ wanted =>
            rw [List.take_succ_cons] at hTimes ⊢
            rcases hTimes date List.mem_cons_self with ⟨x, hAt⟩
            have hKept := hPlain.kept?_of_admits hAdmits hAt
            rcases
                ih (fun d hMember =>
                  hTimes d (List.mem_cons_of_mem date hMember))
                  (hSteps.of_admitted hAdmits) with
              ⟨hRange, hList⟩
            rw [List.filterMap_cons_some hKept, hKept,
              List.take_succ_cons, List.map_cons, List.map_cons,
              hAt, hList]
            refine ⟨⟨?_, ?_, hRange⟩, rfl⟩
            · intro _ _
              exact ⟨some x, by rw [hPlain.entry_eq, hAt]; rfl⟩
            · intro hWanted
              apply hFirst
              simpa [hAdmits] using hWanted
      · rw [List.filter_cons_of_neg hAdmits] at hTimes ⊢
        have hNone := hPlain.kept?_of_not_admits hAdmits
        rcases ih hTimes (hSteps.of_passed hAdmits) with
          ⟨hRange, hList⟩
        rw [List.filterMap_cons_none hNone, hNone]
        refine ⟨⟨?_, ?_, hRange⟩, hList⟩
        · intro _ hAdmitted
          exact absurd hAdmitted hAdmits
        · intro hWanted
          exact hFirst (by simpa [hAdmits] using hWanted)

end WalkPlan

------------------------------------------------------------
-- Dates That Are Over
------------------------------------------------------------

/- Each date is over or is upcoming. -/
theorem countP_past_add_upcoming
    (now : Instant)
    (dates : List Instant) :
    dates.countP (· < now) + dates.countP (now ≤ ·) =
      dates.length := by
  rw [List.length_eq_countP_add_countP (· < now)]
  congr 2
  funext date
  simp only [decide_eq_true_eq, decide_eq_decide]
  exact Std.not_lt.symm

namespace Generator

/- As many dates from a start as a walk has attempts. -/
def attemptedDates
    (g : Generator)
    (e : Event)
    (o : SeriesOptions)
    (time : ClockTime)
    (start : Instant) : List Instant :=
  datesFrom (e.dateAfter? g.zone time) (g.maxAttempts o) start

/- How many of these dates are over. -/
def pastCount
    (g : Generator)
    (e : Event)
    (o : SeriesOptions)
    (time : ClockTime)
    (start : Instant) : Nat :=
  (g.attemptedDates e o time start).countP (· < g.now)

/- The first upcoming ones, as many as are wanted. -/
def upcomingDates
    (g : Generator)
    (e : Event)
    (o : SeriesOptions)
    (time : ClockTime)
    (start : Instant) : List Instant :=
  ((g.attemptedDates e o time start).filter (g.now ≤ ·)).take
    o.maxOccurrences

/-
  How many steps the walk makes: to the last of the dates that
  are wanted, if it has the attempts, and else from each date
  that it has an attempt for.
-/
def stepsMade
    (g : Generator)
    (e : Event)
    (o : SeriesOptions)
    (time : ClockTime)
    (start : Instant) : Nat :=
  min (g.maxAttempts o)
    (g.pastCount e o time start + (o.maxOccurrences - 1))

section

variable {g : Generator}
variable {e : Event}
variable {o : SeriesOptions}
variable {time : ClockTime}
variable {start : Instant}

/- A date before the last that is wanted is stepped from. -/
theorem lt_stepsMade
    {k : Nat}
    {date : Instant}
    (hDate :
      (g.attemptedDates e o time start)[k]? = some date)
    (hWanted :
      ((g.attemptedDates e o time start).take (k + 1)).countP
        (g.now ≤ ·) < o.maxOccurrences) :
    k < g.stepsMade e o time start := by
  have hLength := (List.getElem?_eq_some_iff.mp hDate).1
  have hAttempts :
      (g.attemptedDates e o time start).length ≤
        g.maxAttempts o :=
    length_datesFrom_le _ _ _
  have hSplit :=
    countP_past_add_upcoming g.now
      ((g.attemptedDates e o time start).take (k + 1))
  have hPast :
      ((g.attemptedDates e o time start).take (k + 1)).countP
          (· < g.now) ≤
        g.pastCount e o time start :=
    (List.take_sublist _ _).countP_le
  rw [List.length_take] at hSplit
  rw [stepsMade]
  omega

/-
  If all steps are made there are as many upcoming dates as
  are wanted, or as there are attempts besides those that the
  past takes.
-/
theorem length_upcomingDates
    (hWanted : 0 < o.maxOccurrences)
    (hMade :
      (datesFrom (e.dateAfter? g.zone time)
        (g.stepsMade e o time start + 1) start).length =
          g.stepsMade e o time start + 1) :
    (g.upcomingDates e o time start).length =
      min o.maxOccurrences
        (g.maxAttempts o - g.pastCount e o time start) := by
  have hAttempts :
      (g.attemptedDates e o time start).length ≤
        g.maxAttempts o :=
    length_datesFrom_le _ _ _
  have hSplit :=
    countP_past_add_upcoming g.now
      (g.attemptedDates e o time start)
  have hReached :=
    min_length_datesFrom_le (e.dateAfter? g.zone time)
      (g.maxAttempts o) (g.stepsMade e o time start + 1) start
  rw [hMade] at hReached
  rw [upcomingDates, List.length_take,
    ← List.countP_eq_length_filter]
  change g.pastCount e o time start + _ = _ at hSplit
  change _ ≤ (g.attemptedDates e o time start).length
    at hReached
  rw [stepsMade] at hReached
  omega

/-
  More dates add nothing to the first upcoming ones if there
  are as many of these as are wanted.
-/
theorem upcomingDates_of_more
    {n : Nat}
    (hFull :
      (g.upcomingDates e o time start).length =
        o.maxOccurrences)
    (hLe : g.maxAttempts o ≤ n) :
    ((datesFrom (e.dateAfter? g.zone time) n start).filter
        (g.now ≤ ·)).take o.maxOccurrences =
      g.upcomingDates e o time start := by
  have hFirst :
      (datesFrom (e.dateAfter? g.zone time) n start).take
          (g.maxAttempts o) =
        g.attemptedDates e o time start :=
    take_datesFrom hLe start
  have hEnough :
      o.maxOccurrences ≤
        ((g.attemptedDates e o time start).filter
          (g.now ≤ ·)).length := by
    rw [upcomingDates, List.length_take] at hFull
    omega
  rw [← List.take_append_drop (g.maxAttempts o)
      (datesFrom (e.dateAfter? g.zone time) n start),
    hFirst, List.filter_append,
    List.take_append_of_le_length hEnough]
  rfl

theorem pairwise_upcomingDates
    (g : Generator)
    (e : Event)
    (o : SeriesOptions)
    (time : ClockTime)
    (start : Instant) :
    (g.upcomingDates e o time start).Pairwise (· < ·) :=
  (pairwise_datesFrom
    (fun _ _ hNext => Event.lt_of_dateAfter? hNext) _ _).sublist
      ((List.take_sublist _ _).trans List.filter_sublist)

/- Without a horizon a walk goes over all these dates. -/
theorem reached_of_no_horizon
    (hEndless : o.horizonEnd = none) :
    let p := g.plan e {} [] o time
    p.reached p.maxAttempts start =
      g.attemptedDates e o time start := by
  intro p
  apply List.takeWhile_eq_self_iff.mpr
  intro date _
  exact WalkPlan.reaches_of_no_horizon hEndless date

/- What such a walk shows if it leaves out what is past. -/
theorem exists_walk_of_upcoming
    (hWanted : 0 < o.maxOccurrences)
    (hFuture : o.includePast = false)
    (hEndless : o.horizonEnd = none)
    (hInside :
      e.StepsInCalendar g.zone time
        (g.stepsMade e o time start) start)
    (hTimes :
      ∀ date ∈ g.upcomingDates e o time start,
        ∃ x, e.occurrenceAt date = .ok x) :
    ∃ os,
      ((g.plan e {} [] o time).walk start).occurrences =
        .ok os ∧
      (g.upcomingDates e o time start).map e.occurrenceAt =
        os.map .ok := by
  have hPlain : (g.plan e {} [] o time).Plain :=
    ⟨fun _ => rfl, rfl⟩
  have hAdmits : o.admits g.now = (g.now ≤ ·) := by
    funext date
    simp [SeriesOptions.admits, hFuture]
  have hSteps :
      (g.plan e {} [] o time).StepsOn o.maxOccurrences
        (g.attemptedDates e o time start) := by
    intro k date hDate hOpen
    change
      ((g.attemptedDates e o time start).take (k + 1)).countP
        (o.admits g.now) < o.maxOccurrences at hOpen
    rw [hAdmits] at hOpen
    rcases
        exists_nextAfter_of_datesFrom hInside.arithmetic hDate
          (lt_stepsMade hDate hOpen) with
      ⟨next, hNext⟩
    exact WalkPlan.next?_of_nextAfter hNext
  rw [upcomingDates, ← hAdmits] at hTimes
  rcases hPlain.staysInRange hTimes hSteps with ⟨hRange, hEach⟩
  let os :=
    ((g.attemptedDates e o time start).filterMap
      (g.plan e {} [] o time).kept?).take o.maxOccurrences
  have hList :
      (g.upcomingDates e o time start).map e.occurrenceAt =
        os.map .ok := by
    rw [upcomingDates, ← hAdmits]
    exact hEach
  have hSorted : sortOccurrences os = os := by
    have hOrdered := pairwise_upcomingDates g e o time start
    rw [← Event.starts_of_occurrences hList, List.pairwise_map]
      at hOrdered
    exact sortOccurrences_of_pairwise
      (hOrdered.imp Std.le_of_lt)
  refine ⟨os, ?_, hList⟩
  apply (WalkPlan.walk_occurrences_eq_ok_iff hWanted).mpr
  rw [reached_of_no_horizon hEndless]
  exact ⟨hRange, hSorted⟩

end

------------------------------------------------------------
-- Series From Now On
------------------------------------------------------------

/-
  Without a cache, records, windows or horizon a series that
  leaves out its past shows the first upcoming of the dates
  that its walk has attempts for.  The dates that are over
  take an attempt each, so that as many are shown as are
  wanted exactly if the attempts suffice for these and those;
  and then they are the first upcoming dates of all.  No date
  that is stepped to, and no time that is shown, may leave the
  calendar.  The offsets of the zone are shorter than a day;
  for a rule that goes from month to month its transitions lie
  two days apart, and set the clocks back by a day at most.
  The listed zones are such (`Zone.foldsShort_of_known`).
-/
theorem series_of_upcoming
    {g : Generator}
    {e : Event}
    {o : SeriesOptions}
    {start : Instant}
    {here : LocalTime}
    (hRecurring : e.isRecurring = true)
    (hManual : (e.manualDates g.zone).value = .ok [])
    (hStart : e.startsAt = some start)
    (hUncached : e.nextStart = none)
    (hHere : g.zone.toLocal start = .ok here)
    (hNanos : start.nanos < 2 * nanosPerSecond)
    (hShort : g.zone.OffsetsShort)
    (hMonths :
      e.recurrence.stepsByMonth = true →
        g.zone.Spaced ∧ g.zone.FoldsShort)
    (hWanted : 0 < o.maxOccurrences)
    (hFuture : o.includePast = false)
    (hEndless : o.horizonEnd = none)
    (hInside :
      e.StepsInCalendar g.zone here.time
        (g.stepsMade e o here.time start) start)
    (hTimes :
      ∀ date ∈ g.upcomingDates e o here.time start,
        ∃ x, e.occurrenceAt date = .ok x) :
    let past := g.pastCount e o here.time start
    ∃ os, g.series e [] [] o = .ok os ∧
      os.map (·.start) = g.upcomingDates e o here.time start ∧
      (∀ x ∈ os, e.occurrenceAt x.start = .ok x) ∧
      os.length =
        min o.maxOccurrences (g.maxAttempts o - past) ∧
      (past + o.maxOccurrences ≤ g.maxAttempts o →
        ∀ n, g.maxAttempts o ≤ n →
          os.map (·.start) =
            ((datesFrom (e.dateAfter? g.zone here.time) n
              start).filter (g.now ≤ ·)).take
                o.maxOccurrences) := by
  intro past
  have hTime : g.timeOfDay e start = .ok here.time :=
    (timeOfDay_eq_ok_iff hStart).mpr ⟨here, hHere, rfl⟩
  rcases Zone.eq_wallTime_of_toLocal hHere with ⟨rfl, _⟩
  have hMade :=
    hInside.length_datesFrom hRecurring hShort hMonths hNanos
      (Or.inl rfl)
  have hLength := length_upcomingDates hWanted hMade
  rcases
      exists_walk_of_upcoming hWanted hFuture hEndless hInside
        hTimes with
    ⟨os, hWalk, hEach⟩
  have hStarts := Event.starts_of_occurrences hEach
  have hCount :
      os.length = min o.maxOccurrences (g.maxAttempts o - past) := by
    rw [← List.length_map (f := (·.start)), hStarts, hLength]
  refine ⟨os, ?_, hStarts, ?_, hCount, ?_⟩
  · rw [series_uncached hRecurring hManual hStart hWanted hTime
      hUncached]
    exact hWalk
  · intro x hMember
    exact Event.occurrenceAt_start_of_occurrences hEach hMember
  · intro hEnough n hLe
    rw [hStarts]
    exact (upcomingDates_of_more (by omega) hLe).symm

/-
  Four attempts are enough for two Friday shows after one that
  is over, though Samoa sets its clocks forward by a day in
  between.
-/
theorem series_of_upcoming_fridayShow :
    let g : Generator := ⟨.apia, ⟨1325000000, 0⟩, 2⟩
    let o : SeriesOptions := ⟨2, false, none⟩
    ∃ os,
      g.series fridayShow [] [] o = .ok os ∧
      os.map (·.start) = [⟨1325311200, 0⟩, ⟨1326434400, 0⟩] ∧
      os.length = 2 := by
  intro g o
  have hHere :
      g.zone.toLocal ⟨1324706400, 0⟩ = .ok samoanEvening := by
    cbv
  have hSteps :
      g.stepsMade fridayShow o nightClock ⟨1324706400, 0⟩ =
        2 := by
    cbv
  have hStarts :
      fridayShow.recurrence.startsAfter .apia nightClock 2
          ⟨1324706400, 0⟩ =
        .ok [some ⟨1325311200, 0⟩, some ⟨1326434400, 0⟩] := by
    cbv
  have hDates :
      g.upcomingDates fridayShow o nightClock
          ⟨1324706400, 0⟩ =
        [⟨1325311200, 0⟩, ⟨1326434400, 0⟩] := by
    cbv
  have hInside :
      fridayShow.StepsInCalendar .apia nightClock
        (g.stepsMade fridayShow o nightClock ⟨1324706400, 0⟩)
        ⟨1324706400, 0⟩ := by
    rw [hSteps]
    refine ⟨⟨_, hStarts⟩, ?_⟩
    intro hMonths
    cases hMonths
  have hTimes :
      ∀ date ∈ g.upcomingDates fridayShow o nightClock
          ⟨1324706400, 0⟩,
        ∃ x, fridayShow.occurrenceAt date = .ok x := by
    rw [hDates]
    intro date _
    exact ⟨_, rfl⟩
  have hTables :=
    Zone.foldsShort_of_known (z := .apia)
      (by simp [Zone.known])
  rcases
      series_of_upcoming rfl (Event.manualDates_of_nil rfl .apia)
        rfl rfl hHere (by decide) hTables.2.1
        (fun _ => ⟨hTables.1, hTables.2.2⟩) (by decide) rfl rfl
        hInside hTimes with
    ⟨os, hSeries, hShown, _, _⟩
  have hList :
      os.map (·.start) =
        [⟨1325311200, 0⟩, ⟨1326434400, 0⟩] :=
    hShown.trans hDates
  refine ⟨os, hSeries, hList, ?_⟩
  rw [← List.length_map (f := (·.start)), hList]
  rfl

/-
  The seventh jazz night is the first from now on, and it is
  in the calendar.  The six attempts for one night are used up
  by those that are over, and none is shown.
-/
theorem upcoming_cut_of_jazzNight :
    let g : Generator := ⟨.utc, nightTime 6 0, 6⟩
    let o : SeriesOptions := ⟨1, false, none⟩
    let dates :=
      datesFrom (jazzNight.dateAfter? .utc nightClock) 7
        (nightTime 0 0)
    jazzNight.StepsInCalendar .utc nightClock 6
      (nightTime 0 0) ∧
    (dates.filter (g.now ≤ ·)).take o.maxOccurrences =
      [nightTime 6 0] ∧
    (∃ x, jazzNight.occurrenceAt (nightTime 6 0) = .ok x) ∧
    g.series jazzNight [] [] o = .ok [] ∧
    ¬ ∃ os, g.series jazzNight [] [] o = .ok os ∧
      os.length = o.maxOccurrences := by
  intro g o dates
  have hStarts :
      jazzNight.recurrence.startsAfter .utc nightClock 6
          (nightTime 0 0) =
        .ok [some (nightTime 1 0), some (nightTime 2 0),
          some (nightTime 3 0), some (nightTime 4 0),
          some (nightTime 5 0), some (nightTime 6 0)] := by
    cbv
  have hEmpty : g.series jazzNight [] [] o = .ok [] := by
    cbv
  refine ⟨⟨⟨_, hStarts⟩, ?_⟩, by cbv, ⟨_, rfl⟩, hEmpty, ?_⟩
  · intro hMonths
    cases hMonths
  · rintro ⟨os, hOs, hLength⟩
    rw [hEmpty, Except.ok.injEq] at hOs
    subst hOs
    cases hLength

end Generator

end EventSeries
