import EventSeries.Proofs.Series.Pipeline

/-
  Where the occurrences of a series come from: each of them is
  what some date stepped from the start of the walk leaves.
  And a walk with enough attempts shows what it keeps on any
  of the dates that the horizon reaches.

  Main declarations:
    * `WalkPlan.exists_date_of_mem_walk`
    * `WalkPlan.exists_mem_walk`
    * `WalkPlan.exists_mem_walk_of_horizon`
    * `Generator.exists_date_of_mem_series`
-/

namespace EventSeries

theorem mem_sortOccurrences
    {o : Occurrence}
    {os : List Occurrence} :
    o ∈ sortOccurrences os ↔ o ∈ os :=
  List.mem_mergeSort

namespace WalkPlan

variable {p : WalkPlan}
variable {anchor : Instant}
variable {o : Occurrence}

theorem exists_reached_of_mem_walk
    {os : List Occurrence}
    (hWalk : (p.walk anchor).occurrences = .ok os)
    (hWanted : 0 < p.options.maxOccurrences)
    (hMember : o ∈ os) :
    ∃ date ∈ p.reached p.maxAttempts anchor,
      p.kept? date = some o := by
  have hOut :=
    ((p.walkFrom_occurrences_eq_ok_iff p.maxAttempts anchor {} os
      hWanted).mp hWalk).2
  subst hOut
  rw [mem_sortOccurrences] at hMember
  have hTaken :
      o ∈ (p.reached p.maxAttempts anchor).filterMap
        p.kept? := by
    apply List.mem_of_mem_take
    simpa using hMember
  exact List.mem_filterMap.mp hTaken

theorem exists_date_of_mem_walk
    {os : List Occurrence}
    (hWalk : (p.walk anchor).occurrences = .ok os)
    (hWanted : 0 < p.options.maxOccurrences)
    (hMember : o ∈ os) :
    ∃ date ∈ datesFrom p.later? p.maxAttempts anchor,
      p.kept? date = some o := by
  rcases exists_reached_of_mem_walk hWalk hWanted hMember with
    ⟨date, hReached, hKept⟩
  exact ⟨date, (List.takeWhile_sublist _).mem hReached, hKept⟩

/-
  A walk that wants as many occurrences as it has attempts
  shows what it keeps on any date that it reaches, as long as
  no date on the way leaves the calendar.
-/
theorem exists_mem_walk
    {date : Instant}
    (hWanted : p.maxAttempts ≤ p.options.maxOccurrences)
    (hReached : date ∈ p.reached p.maxAttempts anchor)
    (hEntries :
      ∀ d ∈ p.reached p.maxAttempts anchor,
        ∃ found, p.entry d = .ok found)
    (hSteps :
      ∀ d ∈ p.reached p.maxAttempts anchor,
        ∃ next, p.next? d = .ok next)
    (hKept : p.kept? date = some o) :
    ∃ os, (p.walk anchor).occurrences = .ok os ∧ o ∈ os := by
  have hAttempts : 0 < p.maxAttempts := by
    rw [Nat.pos_iff_ne_zero]
    intro hNone
    rw [hNone, reached_zero] at hReached
    cases hReached
  have hRange :
      p.StaysInRange p.options.maxOccurrences
        (p.reached p.maxAttempts anchor) := by
    constructor
    · intro k d hMember _ _
      exact hEntries d (List.mem_of_getElem? hMember)
    · intro k d hMember _
      exact hSteps d (List.mem_of_getElem? hMember)
  have hAll :
      ((p.reached p.maxAttempts anchor).filterMap
        p.kept?).length ≤ p.options.maxOccurrences :=
    calc ((p.reached p.maxAttempts anchor).filterMap
          p.kept?).length
        ≤ (p.reached p.maxAttempts anchor).length :=
          List.length_filterMap_le _ _
      _ ≤ (datesFrom p.later? p.maxAttempts anchor).length :=
          (List.takeWhile_sublist _).length_le
      _ ≤ p.maxAttempts := length_datesFrom_le _ _ _
      _ ≤ p.options.maxOccurrences := hWanted
  have hWalk :=
    (p.walkFrom_occurrences_eq_ok_iff p.maxAttempts anchor {} _
      (Nat.lt_of_lt_of_le hAttempts hWanted)).mpr
        ⟨hRange, rfl⟩
  refine ⟨_, hWalk, ?_⟩
  rw [mem_sortOccurrences]
  apply List.mem_append_right
  change o ∈ List.take p.options.maxOccurrences _
  rw [List.take_of_length_le hAll]
  exact List.mem_filterMap.mpr ⟨date, hReached, hKept⟩

------------------------------------------------------------
-- Walks That A Date Fills
------------------------------------------------------------

/- The plan that wants another number of occurrences. -/
def wanting
    (p : WalkPlan)
    (wanted : Nat) : WalkPlan :=
  { p with
    options := { p.options with maxOccurrences := wanted } }

/-
  Some number of wanted occurrences is filled on a date, and
  the walk needs no arithmetic but that of the dates up to it.
  The induction is on the attempts; each date before gives the
  number of occurrences that it has.
-/
theorem exists_wanted_of_kept
    {n : Nat}
    {first date : Instant}
    (hReaches : ∀ d, p.reaches d = true)
    (hMember : date ∈ datesFrom p.later? n first)
    (hEntries :
      ∀ d, d < date → p.options.admits p.now d = true →
        ∃ found, p.entry d = .ok found)
    (hKept : p.kept? date = some o) :
    ∃ wanted, 0 < wanted ∧
      p.StaysInRange wanted (p.reached n first) ∧
      o ∈ ((p.reached n first).filterMap p.kept?).take
        wanted := by
  induction n generalizing first with
  | zero => cases hMember
  | succ n ih =>
      rw [datesFrom] at hMember
      rcases List.mem_cons.mp hMember with rfl | hLater
      · rcases exists_reached_eq_cons n (hReaches date) with
          ⟨rest, hReached⟩
        refine ⟨1, Nat.one_pos, ?_, ?_⟩
        · rw [hReached]
          exact staysInRange_of_filled rest
            (fun _ => exists_entry_of_kept? hKept) hKept
        · rw [hReached, List.filterMap_cons, hKept]
          exact List.mem_cons_self
      · cases hNext : p.later? first with
        | none =>
            rw [hNext] at hLater
            cases hLater
        | some next =>
            rw [hNext] at hLater
            have hBefore : first < date := by
              have hStep := lt_of_later? first next hNext
              have hFrom :=
                (dateFrom_of_mem_datesFrom hLater).first_le
                  lt_of_later?
              grind
            rcases ih hLater with
              ⟨wanted, hWanted, hRange, hShown⟩
            refine ⟨(p.kept? first).toList.length + wanted,
              by omega, ?_, ?_⟩
            · rw [reached_of_next (hReaches first) hNext,
                staysInRange_cons_iff, Nat.add_sub_cancel_left]
              refine ⟨fun _ => hEntries first hBefore, ?_,
                hRange⟩
              intro _
              exact next?_of_later? hNext
            · rw [reached_of_next (hReaches first) hNext,
                filterMap_take_cons _ (Nat.le_add_right _ _),
                Nat.add_sub_cancel_left]
              exact List.mem_append_right _ hShown

/-
  Among walks of a plan that differ in how much they want, one
  shows what the plan keeps on a date.
-/
theorem exists_mem_walk_wanting
    {n : Nat}
    {first date : Instant}
    (hReaches : ∀ d, p.reaches d = true)
    (hMember : date ∈ datesFrom p.later? n first)
    (hEntries :
      ∀ d, d < date → p.options.admits p.now d = true →
        ∃ found, p.entry d = .ok found)
    (hKept : p.kept? date = some o) :
    ∃ wanted os, 0 < wanted ∧
      ((p.wanting wanted).walkFrom n first {}).occurrences =
        .ok os ∧
      o ∈ os := by
  rcases exists_wanted_of_kept hReaches hMember hEntries hKept with
    ⟨wanted, hWanted, hRange, hShown⟩
  have hWalk :=
    ((p.wanting wanted).walkFrom_occurrences_eq_ok_iff n first {}
      _ hWanted).mpr ⟨⟨hRange.entry, hRange.step⟩, rfl⟩
  refine ⟨wanted, _, hWanted, hWalk, ?_⟩
  rw [mem_sortOccurrences]
  exact List.mem_append_right _ hShown

/-
  On its present, without the past, windows and a horizon, a
  walk shows the plain occurrence, whatever was before.
-/
theorem exists_mem_walk_of_present
    {n : Nat}
    {first date : Instant}
    (hPast : p.options.includePast = false)
    (hHorizon : p.options.horizonEnd = none)
    (hWindows : p.windows = [])
    (hNow : p.now = date)
    (hMember : date ∈ datesFrom p.later? n first)
    (hNew : p.index.record? date = none)
    (hAt : p.event.occurrenceAt date = .ok o) :
    ∃ wanted os, 0 < wanted ∧
      ((p.wanting wanted).walkFrom n first {}).occurrences =
        .ok os ∧
      o ∈ os := by
  have hAdmits (start : Instant) :
      p.options.admits p.now start = true ↔ date ≤ start := by
    simp [SeriesOptions.admits, hPast, hNow]
  have hShown :
      p.windows.any (·.hides p.event.audience date) = false := by
    rw [hWindows]
    rfl
  apply exists_mem_walk_wanting (reaches_of_no_horizon hHorizon)
    hMember
  · intro d hBefore hAdmitted
    have hNotBefore := (hAdmits d).mp hAdmitted
    grind
  · apply kept?_eq_some_iff.mpr
    refine ⟨?_, ?_⟩
    · rw [occurrence?, entry_of_shown hNew hShown, hAt]
      rfl
    · apply (hAdmits o.start).mpr
      exact Std.le_of_eq (Event.occurrenceAt_start hAt).1.symm

/- One attempt for one occurrence shows the first date. -/
theorem walk_of_first_kept
    (hWanted : p.options.maxOccurrences = 1)
    (hAttempts : p.maxAttempts = 1)
    (hReaches : p.reaches anchor = true)
    (hKept : p.kept? anchor = some o) :
    (p.walk anchor).occurrences = .ok [o] := by
  rcases exists_reached_eq_cons 0 hReaches with
    ⟨rest, hReached⟩
  have hRange :=
    staysInRange_of_filled rest
      (fun _ => exists_entry_of_kept? hKept) hKept
  rw [walk, hAttempts]
  apply (p.walkFrom_occurrences_eq_ok_iff 1 anchor {} [o]
    (by simp [hWanted])).mpr
  rw [hReached, hWanted]
  refine ⟨hRange, ?_⟩
  simp [hKept, sortOccurrences]

theorem slot_eq_of_mem_walk
    {os : List Occurrence}
    (hWanted : 0 < p.options.maxOccurrences)
    (hAttempts : p.maxAttempts = 1)
    (hWalk : (p.walk anchor).occurrences = .ok os)
    (hMember : o ∈ os) :
    o.slot = anchor := by
  rcases exists_date_of_mem_walk hWalk hWanted hMember with
    ⟨date, hDate, hKept⟩
  have hSlot :=
    slot_of_occurrence? (kept?_eq_some_iff.mp hKept).1
  rw [hAttempts, datesFrom] at hDate
  rcases List.mem_cons.mp hDate with rfl | hLater
  · exact hSlot
  · cases hNext : p.later? anchor with
    | none =>
        rw [hNext] at hLater
        cases hLater
    | some next =>
        rw [hNext] at hLater
        cases hLater

------------------------------------------------------------
-- Walks Up To A Date
------------------------------------------------------------

theorem mem_reached_of_horizon
    {n : Nat}
    {date : Instant}
    (hHorizon : p.options.horizonEnd = some date)
    (hUnreplaced :
      ∀ d r, DateFrom p.later? d date →
        p.index.record? d = some r → r.activeOverride? = none)
    (hMember : date ∈ datesFrom p.later? n anchor) :
    date ∈ p.reached n anchor := by
  apply mem_takeWhile_datesFrom hMember
  intro d _ hTo
  have hLe := hTo.first_le lt_of_later?
  have hWithin : p.options.withinHorizon d = true := by
    simpa [SeriesOptions.withinHorizon, hHorizon] using hLe
  rw [reaches, SeriesOptions.reaches, hWithin]
  cases hRecord : p.index.record? d with
  | none => rfl
  | some r =>
      simp [ExceptionIndex.overrideStart?,
        hUnreplaced d r hTo hRecord]

theorem le_of_mem_reached
    {n : Nat}
    {date d : Instant}
    (hHorizon : p.options.horizonEnd = some date)
    (hReached : d ∈ p.reached n anchor) :
    DateFrom p.later? anchor d ∧ d ≤ date := by
  have hWithin :=
    withinHorizon_of_reaches (List.mem_takeWhile_imp hReached)
  refine ⟨?_, ?_⟩
  · exact dateFrom_of_mem_datesFrom
      ((List.takeWhile_sublist _).mem hReached)
  · simpa [SeriesOptions.withinHorizon, hHorizon] using hWithin

/-
  A walk with the past and without windows, up to a date that
  has no record, shows that date if no earlier one is replaced
  and the calendar goes so far.
-/
theorem exists_mem_walk_of_horizon
    {date : Instant}
    (hWanted : p.maxAttempts ≤ p.options.maxOccurrences)
    (hPast : p.options.includePast = true)
    (hHorizon : p.options.horizonEnd = some date)
    (hWindows : p.windows = [])
    (hUnreplaced :
      ∀ d r, DateFrom p.later? d date →
        p.index.record? d = some r → r.activeOverride? = none)
    (hMember : date ∈ datesFrom p.later? p.maxAttempts anchor)
    (hRecord : p.index.record? date = none)
    (hTimes :
      ∀ d, DateFrom p.later? anchor d → d ≤ date →
        ∃ o, p.event.occurrenceAt d = .ok o)
    (hSteps :
      ∀ d, DateFrom p.later? anchor d → d ≤ date →
        ∃ next, p.event.recurrence.nextAfter p.zone p.timeOfDay
          d = .ok next) :
    ∃ os, (p.walk anchor).occurrences = .ok os ∧
      ∃ o ∈ os, o.isOverride = false ∧ o.start = date := by
  rcases hTimes date (dateFrom_of_mem_datesFrom hMember)
      (Std.le_refl date) with
    ⟨o, hAt⟩
  rcases Event.occurrenceAt_start hAt with ⟨hStart, hPlain⟩
  have hHidden (d : Instant) :
      p.windows.any (·.hides p.event.audience d) = false := by
    rw [hWindows]
    rfl
  have hEntries :
      ∀ d ∈ p.reached p.maxAttempts anchor,
        ∃ found, p.entry d = .ok found := by
    intro d hReached
    rcases le_of_mem_reached hHorizon hReached with ⟨hFrom, hLe⟩
    cases hRecorded : p.index.record? d with
    | some r => exact ⟨_, by rw [entry, hRecorded]; rfl⟩
    | none =>
        rcases hTimes d hFrom hLe with ⟨found, hFound⟩
        rw [entry_of_shown hRecorded (hHidden d), hFound]
        exact ⟨_, rfl⟩
  have hNexts :
      ∀ d ∈ p.reached p.maxAttempts anchor,
        ∃ next, p.next? d = .ok next := by
    intro d hReached
    rcases le_of_mem_reached hHorizon hReached with ⟨hFrom, hLe⟩
    rcases hSteps d hFrom hLe with ⟨next, hNext⟩
    exact next?_of_nextAfter hNext
  have hKept : p.kept? date = some o := by
    apply kept?_eq_some_iff.mpr
    refine ⟨?_, ?_⟩
    · rw [occurrence?, entry_of_shown hRecord (hHidden date),
        hAt]
      rfl
    · exact admits_of_includePast hPast o.start
  rcases
      exists_mem_walk hWanted
        (mem_reached_of_horizon hHorizon hUnreplaced hMember)
        hEntries hNexts hKept with
    ⟨os, hOs, hShown⟩
  exact ⟨os, hOs, o, hShown, hPlain, hStart⟩

end WalkPlan

/-
  An occurrence in the series of an event with some cache is
  what a date stepped from the start of the walk leaves.
-/
theorem Generator.exists_date_of_mem_series
    {g : Generator}
    {e : Event}
    {windows : List HolidayWindow}
    {o : SeriesOptions}
    {start : Instant}
    {records : List ExceptionRecord}
    {cached : Option Instant}
    {os : List Occurrence}
    {occurrence : Occurrence}
    (hRecurring : e.isRecurring = true)
    (hManual : (e.manualDates g.zone).value = .ok [])
    (hStart : e.startsAt = some start)
    (hSeries :
      g.series (e.withCache cached) records windows o = .ok os)
    (hMember : occurrence ∈ os) :
    let index := ExceptionIndex.ofList e.id records
    ∃ time date,
      g.timeOfDay e start = .ok time ∧
      date ∈ datesFrom (e.dateAfter? g.zone time) largestWord
        (index.walkStart start cached) ∧
      (g.plan e index windows o time).occurrence? date =
        some occurrence := by
  intro index
  by_cases hWanted : 0 < o.maxOccurrences
  · rcases
        exists_timeOfDay_of_series hRecurring hManual hStart
          hWanted hSeries with
      ⟨time, hTime⟩
    rw [series_withCache hRecurring hManual hStart hWanted
      hTime] at hSeries
    rcases
        WalkPlan.exists_date_of_mem_walk hSeries hWanted
          hMember with
      ⟨date, hDate, hKept⟩
    exact ⟨time, date, hTime,
      mem_datesFrom_of_le hDate (Nat.min_le_right _ _),
      (WalkPlan.kept?_eq_some_iff.mp hKept).1⟩
  · have hNone : o.maxOccurrences = 0 := by omega
    rw [series_of_none_wanted hNone, Except.ok.injEq] at hSeries
    subst hSeries
    cases hMember

/-
  With the most attempts, some number of wanted occurrences
  makes a series show what the rule has on the present.
-/
theorem Generator.exists_mem_series_of_present
    {g : Generator}
    {e : Event}
    {records : List ExceptionRecord}
    {start date : Instant}
    {here : LocalTime}
    {occurrence : Occurrence}
    (hRecurring : e.isRecurring = true)
    (hManual : (e.manualDates g.zone).value = .ok [])
    (hStart : e.startsAt = some start)
    (hHere : g.zone.toLocal start = .ok here)
    (hNow : g.now = date)
    (hAttempts : g.attemptsPerOccurrence = largestWord)
    (hMember :
      date ∈ datesFrom (e.dateAfter? g.zone here.time)
        largestWord
        ((ExceptionIndex.ofList e.id records).walkStart start
          e.nextStart))
    (hNew :
      (ExceptionIndex.ofList e.id records).record? date = none)
    (hAt : e.occurrenceAt date = .ok occurrence) :
    ∃ wanted os,
      g.series e records [] ⟨wanted, false, none⟩ = .ok os ∧
      occurrence ∈ os := by
  let p := g.plan e (.ofList e.id records) [] ⟨1, false, none⟩
    here.time
  rcases
      WalkPlan.exists_mem_walk_of_present (p := p) rfl rfl rfl
        hNow hMember hNew hAt with
    ⟨wanted, os, hWanted, hWalk, hShown⟩
  refine ⟨wanted, os, ?_, hShown⟩
  have hMax :
      g.maxAttempts ⟨wanted, false, none⟩ = largestWord := by
    rw [maxAttempts, hAttempts]
    exact cappedProduct_largestWord hWanted
  have hTime :=
    (timeOfDay_eq_ok_iff hStart).mpr ⟨here, hHere, rfl⟩
  rw [series_of_timeOfDay hRecurring hManual hStart hWanted hTime,
    WalkPlan.walk, ← hWalk, ← hMax]
  exact congrArg WalkEnd.occurrences
    (WalkPlan.walkFrom_congr
      (p := g.plan e _ [] ⟨wanted, false, none⟩ here.time)
      (q := p.wanting wanted) rfl rfl rfl rfl
      (g.maxAttempts ⟨wanted, false, none⟩) _ _)

end EventSeries
