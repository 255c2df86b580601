import EventSeries.Proofs.Series.Dates
import EventSeries.Proofs.Series.Entry
import EventSeries.Proofs.Series.Recurring

/-
  The walk over a recurring event, with its four ways to stop
  and its two tests of the horizon, is a pipeline on the list
  of its dates: take as many as there are attempts, cut the
  list at the horizon, keep what each date leaves, take as
  many occurrences as are wanted, and sort them by start.

  Main declarations:
    * `WalkPlan.reached`
    * `WalkPlan.StaysInRange`
    * `WalkPlan.GivesOn`
    * `WalkPlan.occurrences_of_finds`
    * `WalkPlan.walkFrom_occurrences_eq_ok_iff`
    * `Generator.pipeline`
    * `Generator.series_eq_pipeline_iff`
-/

namespace EventSeries

namespace WalkPlan

------------------------------------------------------------
-- Reached Dates
------------------------------------------------------------

/- The dates within `n` attempts that the horizon reaches. -/
def reached
    (p : WalkPlan)
    (n : Nat)
    (date : Instant) : List Instant :=
  (datesFrom p.later? n date).takeWhile p.reaches

/- How many occurrences the walk keeps on some dates. -/
def keptCount
    (p : WalkPlan)
    (dates : List Instant) : Nat :=
  (dates.filterMap p.kept?).length

@[simp] theorem reached_zero
    (p : WalkPlan)
    (date : Instant) :
    p.reached 0 date = [] := rfl

theorem reached_of_not_reaches
    {p : WalkPlan}
    {n : Nat}
    {date : Instant}
    (hCut : p.reaches date = false) :
    p.reached (n + 1) date = [] := by
  simp [reached, datesFrom, hCut]

theorem reached_of_next
    {p : WalkPlan}
    {n : Nat}
    {date next : Instant}
    (hReaches : p.reaches date = true)
    (hNext : p.later? date = some next) :
    p.reached (n + 1) date = date :: p.reached n next := by
  simp [reached, datesFrom, hReaches, hNext]

theorem reached_of_end
    {p : WalkPlan}
    {n : Nat}
    {date : Instant}
    (hReaches : p.reaches date = true)
    (hEnd : p.later? date = none) :
    p.reached (n + 1) date = [date] := by
  simp [reached, datesFrom, hReaches, hEnd]

@[simp] theorem keptCount_nil
    (p : WalkPlan) :
    p.keptCount [] = 0 := rfl

@[simp] theorem keptCount_cons
    (p : WalkPlan)
    (date : Instant)
    (dates : List Instant) :
    p.keptCount (date :: dates) =
      (p.kept? date).toList.length + p.keptCount dates := by
  unfold keptCount
  cases hKept : p.kept? date with
  | none => simp [hKept]
  | some occurrence =>
      simp only [List.filterMap_cons, hKept, List.length_cons,
        Option.toList_some, List.length_nil]
      omega

------------------------------------------------------------
-- Range Conditions
------------------------------------------------------------

/-
  The arithmetic of a walk over some dates stays in the
  calendar wherever the walk does it.  On a date it needs the
  times of an occurrence that is not left out for being past,
  as long as some are still wanted; it steps on from the date
  unless the date has given the last one.
-/
structure StaysInRange
    (p : WalkPlan)
    (wanted : Nat)
    (dates : List Instant) : Prop where
  entry :
    ∀ k date, dates[k]? = some date →
      p.keptCount (dates.take k) < wanted →
        p.options.admits p.now date = true →
          ∃ found, p.entry date = .ok found
  step :
    ∀ k date, dates[k]? = some date →
      p.keptCount (dates.take (k + 1)) < wanted →
        ∃ next, p.next? date = .ok next

theorem staysInRange_nil
    (p : WalkPlan)
    (wanted : Nat) :
    p.StaysInRange wanted [] := by
  constructor
  · intro k date hMember
    simp at hMember
  · intro k date hMember
    simp at hMember

/- A walk that wants nothing more does no arithmetic. -/
theorem staysInRange_zero
    (p : WalkPlan)
    (dates : List Instant) :
    p.StaysInRange 0 dates := by
  constructor
  · intro k date _ hWanted
    omega
  · intro k date _ hWanted
    omega

/- The conditions on the first date, and on those after it. -/
theorem staysInRange_cons_iff
    {p : WalkPlan}
    {wanted : Nat}
    {date : Instant}
    {dates : List Instant} :
    p.StaysInRange wanted (date :: dates) ↔
      (0 < wanted → p.options.admits p.now date = true →
        ∃ found, p.entry date = .ok found) ∧
      ((p.kept? date).toList.length < wanted →
        ∃ next, p.next? date = .ok next) ∧
      p.StaysInRange
        (wanted - (p.kept? date).toList.length) dates := by
  constructor
  · intro hRange
    refine ⟨?_, ?_, ?_, ?_⟩
    · intro hWanted
      exact hRange.entry 0 date rfl (by simpa using hWanted)
    · intro hWanted
      exact hRange.step 0 date rfl (by simpa using hWanted)
    · intro k d hMember hWanted
      apply hRange.entry (k + 1) d (by simpa using hMember)
      rw [List.take_succ_cons, keptCount_cons]
      omega
    · intro k d hMember hWanted
      apply hRange.step (k + 1) d (by simpa using hMember)
      rw [List.take_succ_cons, keptCount_cons]
      omega
  · rintro ⟨hEntry, hStep, hRest⟩
    constructor
    · intro k d hMember hWanted
      cases k with
      | zero =>
          have hDate : date = d := by simpa using hMember
          subst hDate
          exact hEntry (by simpa using hWanted)
      | succ k =>
          rw [List.take_succ_cons, keptCount_cons] at hWanted
          apply hRest.entry k d (by simpa using hMember)
          omega
    · intro k d hMember hWanted
      cases k with
      | zero =>
          have hDate : date = d := by simpa using hMember
          subst hDate
          exact hStep (by simpa using hWanted)
      | succ k =>
          rw [List.take_succ_cons, keptCount_cons] at hWanted
          apply hRest.step k d (by simpa using hMember)
          omega

/- What is kept of a first date leaves room for fewer. -/
theorem filterMap_take_cons
    {p : WalkPlan}
    {wanted : Nat}
    {date : Instant}
    (dates : List Instant)
    (hRoom : (p.kept? date).toList.length ≤ wanted) :
    ((date :: dates).filterMap p.kept?).take wanted =
      (p.kept? date).toList ++
        (dates.filterMap p.kept?).take
          (wanted - (p.kept? date).toList.length) := by
  cases hKept : p.kept? date with
  | none => simp [hKept]
  | some occurrence =>
      simp only [hKept, Option.toList_some,
        List.length_singleton] at hRoom
      rcases Nat.exists_eq_add_of_le' hRoom with ⟨room, rfl⟩
      simp [hKept]

------------------------------------------------------------
-- One Date Of A Walk
------------------------------------------------------------

theorem record_collected
    (s : WalkState)
    (event : Id)
    (date : Instant)
    (visit : Visit) :
    (s.record event date visit).collected.toList =
      s.collected.toList ++ visit.found?.toList := by
  cases visit with
  | found occurrence => simp [WalkState.record, Visit.found?]
  | pastHorizon => simp [WalkState.record, Visit.found?]
  | left => simp [WalkState.record, Visit.found?]
  | hidden w => simp [WalkState.record, Visit.found?]

theorem record_size
    (s : WalkState)
    (event : Id)
    (date : Instant)
    (visit : Visit) :
    (s.record event date visit).collected.size =
      s.collected.size + visit.found?.toList.length := by
  rw [← Array.length_toList, record_collected,
    List.length_append, Array.length_toList]

/- The date that fills a walk gives its last occurrence. -/
theorem kept?_of_filled
    {p : WalkPlan}
    {date : Instant}
    {size wanted : Nat}
    (hWanted : size < wanted)
    (hFilled :
      wanted ≤ size + (p.kept? date).toList.length) :
    (∃ occurrence, p.kept? date = some occurrence) ∧
      wanted - size = 1 := by
  cases hKept : p.kept? date with
  | none =>
      simp only [hKept, Option.toList_none, List.length_nil]
        at hFilled
      omega
  | some occurrence =>
      simp only [hKept, Option.toList_some,
        List.length_singleton] at hFilled
      exact ⟨⟨occurrence, rfl⟩, by omega⟩

/- A walk that its first date fills needs only that date. -/
theorem staysInRange_of_filled
    {p : WalkPlan}
    {date : Instant}
    {occurrence : Occurrence}
    (rest : List Instant)
    (hEntry :
      p.options.admits p.now date = true →
        ∃ found, p.entry date = .ok found)
    (hKept : p.kept? date = some occurrence) :
    p.StaysInRange 1 (date :: rest) := by
  apply staysInRange_cons_iff.mpr
  refine ⟨fun _ => hEntry, ?_, ?_⟩
  · simp [hKept]
  · simpa [hKept] using staysInRange_zero p rest

/- A walk ends on a date that the horizon does not reach. -/
theorem walkFrom_of_not_reaches
    {p : WalkPlan}
    {n : Nat}
    {date : Instant}
    {s : WalkState}
    (hCut : p.reaches date = false) :
    p.walkFrom (n + 1) date s =
      ⟨s.record p.event.id date .pastHorizon, .horizon⟩ := by
  simp [walkFrom, visit_of_not_reaches hCut]

/- Past any other date it goes on unless it is filled. -/
theorem walkFrom_of_finds
    {p : WalkPlan}
    {n : Nat}
    {date : Instant}
    {s : WalkState}
    {visit : Visit}
    (hVisit : p.visit date = .ok visit)
    (hHorizon : visit ≠ .pastHorizon) :
    p.walkFrom (n + 1) date s =
      let s := s.record p.event.id date visit
      if p.isFilled s then
        ⟨s, .filled⟩
      else
        match p.next? date with
        | .error range => ⟨s, .outOfRange range⟩
        | .ok none => ⟨s, .patternEnded⟩
        | .ok (some next) => p.walkFrom n next s := by
  rw [walkFrom, hVisit]
  exact if_neg hHorizon

/- A walk that leaves the range on a date has no result. -/
theorem walkFrom_of_visit_error
    {p : WalkPlan}
    {n : Nat}
    {date : Instant}
    {s : WalkState}
    {range : OutOfRange}
    (hVisit : p.visit date = .error range) :
    p.walkFrom (n + 1) date s = ⟨s, .outOfRange range⟩ := by
  simp [walkFrom, hVisit]

theorem exists_reached_eq_cons
    {p : WalkPlan}
    {date : Instant}
    (n : Nat)
    (hReaches : p.reaches date = true) :
    ∃ rest, p.reached (n + 1) date = date :: rest := by
  cases hLater : p.later? date with
  | none => exact ⟨_, reached_of_end hReaches hLater⟩
  | some next => exact ⟨_, reached_of_next hReaches hLater⟩

------------------------------------------------------------
-- What Is Left Of A Walk
------------------------------------------------------------

/-
  A walk that has gathered some occurrences goes over some
  dates with a result: its arithmetic stays in range there,
  and the result holds these occurrences and the wanted ones
  of those dates, by start.
-/
def GivesOn
    (p : WalkPlan)
    (s : WalkState)
    (dates : List Instant)
    (out : List Occurrence) : Prop :=
  p.StaysInRange
    (p.options.maxOccurrences - s.collected.size) dates ∧
  sortOccurrences (s.collected.toList ++
    (dates.filterMap p.kept?).take
      (p.options.maxOccurrences - s.collected.size)) = out

section

variable {p : WalkPlan}
variable {date : Instant}
variable {s s' : WalkState}
variable {out : List Occurrence}

theorem givesOn_nil :
    p.GivesOn s [] out ↔
      sortOccurrences s.collected.toList = out := by
  simp [GivesOn, staysInRange_nil]

variable (hWanted :
  s.collected.size < p.options.maxOccurrences)

include hWanted

/- There is no result past a date that leaves the range. -/
theorem not_givesOn_of_entry_error
    {range : OutOfRange}
    (hAdmits : p.options.admits p.now date = true)
    (hEntry : p.entry date = .error range)
    (rest : List Instant) :
    ¬ p.GivesOn s (date :: rest) out := by
  rintro ⟨hRange, _⟩
  rcases
      (staysInRange_cons_iff.mp hRange).1 (by omega) hAdmits with
    ⟨found, hFound⟩
  rw [hEntry] at hFound
  cases hFound

variable (hEntry :
  p.options.admits p.now date = true →
    ∃ found, p.entry date = .ok found)
variable (hList :
  s'.collected.toList =
    s.collected.toList ++ (p.kept? date).toList)
variable (hSize :
  s'.collected.size =
    s.collected.size + (p.kept? date).toList.length)

include hEntry hList hSize

/- The dates after one that fills the walk do not matter. -/
theorem givesOn_cons_of_filled
    (hFilled : p.options.maxOccurrences ≤ s'.collected.size)
    (rest : List Instant) :
    p.GivesOn s (date :: rest) out ↔
      sortOccurrences s'.collected.toList = out := by
  rw [hSize] at hFilled
  rcases kept?_of_filled hWanted hFilled with
    ⟨⟨occurrence, hKept⟩, hLast⟩
  have hRange := staysInRange_of_filled rest hEntry hKept
  simp [GivesOn, hLast, hRange, hKept, hList]

/- A date that leaves the walk open must lead to the others. -/
theorem givesOn_cons_iff
    (hOpen : s'.collected.size < p.options.maxOccurrences)
    (rest : List Instant) :
    p.GivesOn s (date :: rest) out ↔
      (∃ next, p.next? date = .ok next) ∧
        p.GivesOn s' rest out := by
  have hRoom :
      (p.kept? date).toList.length <
        p.options.maxOccurrences - s.collected.size := by
    omega
  have hLeft :
      p.options.maxOccurrences - s.collected.size
          - (p.kept? date).toList.length =
        p.options.maxOccurrences - s'.collected.size := by
    omega
  unfold GivesOn
  rw [staysInRange_cons_iff,
    filterMap_take_cons rest (Nat.le_of_lt hRoom), hLeft, hList,
    List.append_assoc, and_iff_right (fun _ => hEntry),
    imp_iff_right hRoom, and_assoc]

end

------------------------------------------------------------
-- Whole Walks
------------------------------------------------------------

/-
  One attempt that comes to a date and finds out what to show
  there: the walk is filled, or has no way on, or goes on as
  it does from the next date.
-/
theorem occurrences_of_finds
    {p : WalkPlan}
    {n : Nat}
    {date : Instant}
    {s : WalkState}
    {visit : Visit}
    {out : List Occurrence}
    (hWanted : s.collected.size < p.options.maxOccurrences)
    (hReaches : p.reaches date = true)
    (hVisit : p.visit date = .ok visit)
    (hHorizon : visit ≠ .pastHorizon)
    (hFound : visit.found? = p.kept? date)
    (hEntry :
      p.options.admits p.now date = true →
        ∃ found, p.entry date = .ok found)
    (hLater :
      ∀ next s', s'.collected.size < p.options.maxOccurrences →
        ((p.walkFrom n next s').occurrences = .ok out ↔
          p.GivesOn s' (p.reached n next) out)) :
    (p.walkFrom (n + 1) date s).occurrences = .ok out ↔
      p.GivesOn s (p.reached (n + 1) date) out := by
  rw [walkFrom_of_finds hVisit hHorizon]
  have hList := record_collected s p.event.id date visit
  have hSize := record_size s p.event.id date visit
  rw [hFound] at hList hSize
  generalize s.record p.event.id date visit = s' at hList hSize
  by_cases hFilled : p.isFilled s' = true
  · rw [if_pos hFilled]
    rw [isFilled, decide_eq_true_eq] at hFilled
    rcases exists_reached_eq_cons n hReaches with
      ⟨rest, hReached⟩
    rw [hReached,
      givesOn_cons_of_filled hWanted hEntry hList hSize hFilled]
    simp [WalkEnd.occurrences]
  · rw [if_neg hFilled]
    rw [isFilled, decide_eq_true_eq, Nat.not_le] at hFilled
    have hCons (rest : List Instant) :
        p.GivesOn s (date :: rest) out ↔
          (∃ next, p.next? date = .ok next) ∧
            p.GivesOn s' rest out :=
      givesOn_cons_iff hWanted hEntry hList hSize hFilled rest
    cases hNext : p.next? date with
    | error range =>
        rcases exists_reached_eq_cons n hReaches with
          ⟨rest, hReached⟩
        rw [hReached, hCons, hNext]
        simp [WalkEnd.occurrences]
    | ok next =>
        have hStep := later?_of_next? hNext
        cases next with
        | none =>
            rw [reached_of_end hReaches hStep, hCons,
              and_iff_right ⟨_, hNext⟩, givesOn_nil]
            simp [WalkEnd.occurrences]
        | some next =>
            rw [reached_of_next hReaches hStep, hCons,
              and_iff_right ⟨_, hNext⟩]
            exact hLater next s' hFilled

/-
  A walk that still wants occurrences has a result exactly if
  its arithmetic stays in range, and then the result is that
  of the pipeline.  The induction is on the attempts; the
  occurrences gathered before are carried along.
-/
theorem walkFrom_occurrences_eq_ok_iff
    (p : WalkPlan)
    (n : Nat)
    (date : Instant)
    (s : WalkState)
    (out : List Occurrence)
    (hWanted : s.collected.size < p.options.maxOccurrences) :
    (p.walkFrom n date s).occurrences = .ok out ↔
      p.StaysInRange
        (p.options.maxOccurrences - s.collected.size)
        (p.reached n date) ∧
      sortOccurrences (s.collected.toList ++
        ((p.reached n date).filterMap p.kept?).take
          (p.options.maxOccurrences
            - s.collected.size)) = out := by
  change _ ↔ p.GivesOn s (p.reached n date) out
  induction n generalizing date s with
  | zero =>
      rw [reached_zero, givesOn_nil]
      simp [walkFrom, WalkEnd.occurrences]
  | succ n ih =>
      cases hReaches : p.reaches date with
      | false =>
          rw [walkFrom_of_not_reaches hReaches,
            reached_of_not_reaches hReaches, givesOn_nil]
          simp [WalkEnd.occurrences, record_collected,
            Visit.found?]
      | true =>
          rcases visit_cases hReaches with
            ⟨⟨visit, hVisit, hHorizon, hFound⟩, hEntry⟩ |
            ⟨⟨range, hVisit⟩, hAdmits, other, hEntry⟩
          · exact occurrences_of_finds hWanted hReaches hVisit
              hHorizon hFound hEntry ih
          · rcases exists_reached_eq_cons n hReaches with
              ⟨rest, hReached⟩
            rw [walkFrom_of_visit_error hVisit, hReached]
            apply iff_of_false
            · intro hResult
              cases hResult
            · exact not_givesOn_of_entry_error hWanted hAdmits
                hEntry rest

/- A walk from its start on has gathered nothing before. -/
theorem walk_occurrences_eq_ok_iff
    {p : WalkPlan}
    {anchor : Instant}
    {out : List Occurrence}
    (hWanted : 0 < p.options.maxOccurrences) :
    (p.walk anchor).occurrences = .ok out ↔
      p.StaysInRange p.options.maxOccurrences
        (p.reached p.maxAttempts anchor) ∧
      sortOccurrences
        (((p.reached p.maxAttempts anchor).filterMap
          p.kept?).take p.options.maxOccurrences) = out :=
  p.walkFrom_occurrences_eq_ok_iff p.maxAttempts anchor {} out
    hWanted

end WalkPlan

------------------------------------------------------------
-- Series As Pipelines
------------------------------------------------------------

namespace Generator

/-
  The series of a recurring event from its first date on,
  each step of the pipeline applied to a whole list.
-/
def pipeline
    (g : Generator)
    (e : Event)
    (records : List ExceptionRecord)
    (windows : List HolidayWindow)
    (o : SeriesOptions)
    (time : ClockTime)
    (anchor : Instant) : List Occurrence :=
  let recordOn := ExceptionRecord.first? records e.id
  let attempts :=
    min (o.maxOccurrences * g.attemptsPerOccurrence) largestWord
  let dates :=
    (datesFrom (e.dateAfter? g.zone time) attempts
      anchor).takeWhile fun date => o.reaches (recordOn date) date
  let found := dates.filterMap fun date =>
    (e.occurrenceOn (recordOn date) windows
      date).toOption.join.filter fun occurrence =>
        o.admits g.now occurrence.start
  sortOccurrences (found.take o.maxOccurrences)

/-
  The arithmetic of a run stays in the calendar: that of the
  time of day, and then that of the walk.
-/
structure RunsInCalendar
    (g : Generator)
    (e : Event)
    (records : List ExceptionRecord)
    (windows : List HolidayWindow)
    (o : SeriesOptions)
    (time : ClockTime)
    (anchor : Instant) : Prop where
  timeOfDay : g.timeOfDay e anchor = .ok time
  walk :
    let p := g.plan e (.ofList e.id records) windows o time
    p.StaysInRange o.maxOccurrences
      (p.reached p.maxAttempts anchor)

/- The pipeline of a plan reads the records themselves. -/
theorem pipeline_eq
    (g : Generator)
    (e : Event)
    (records : List ExceptionRecord)
    (windows : List HolidayWindow)
    (o : SeriesOptions)
    (time : ClockTime)
    (anchor : Instant) :
    let p := g.plan e (.ofList e.id records) windows o time
    g.pipeline e records windows o time anchor =
      sortOccurrences
        (((p.reached p.maxAttempts anchor).filterMap
          p.kept?).take o.maxOccurrences) := by
  intro p
  have hReaches :
      p.reaches = fun date =>
        o.reaches (ExceptionRecord.first? records e.id date)
          date := by
    funext date
    simp only [p, WalkPlan.reaches, plan,
      ExceptionIndex.record?_ofList]
  have hKept :
      p.kept? = fun date =>
        (e.occurrenceOn
          (ExceptionRecord.first? records e.id date) windows
            date).toOption.join.filter fun occurrence =>
              o.admits g.now occurrence.start := by
    funext date
    simp only [p, WalkPlan.kept?, WalkPlan.occurrence?,
      WalkPlan.entry, plan, ExceptionIndex.record?_ofList]
    rfl
  rw [WalkPlan.reached, hReaches, hKept]
  rfl

/-
  The series of a recurring event is the pipeline over its
  dates for every run inside the calendar, and no other run
  has a result.
-/
theorem series_eq_pipeline_iff
    {g : Generator}
    {e : Event}
    {records : List ExceptionRecord}
    {windows : List HolidayWindow}
    {o : SeriesOptions}
    {anchor : Instant}
    (hRecurring : e.isRecurring = true)
    (hManual : (e.manualDates g.zone).value = .ok [])
    (hAnchor :
      anchor? e (.ofList e.id records) = some anchor)
    (hWanted : 0 < o.maxOccurrences)
    (out : List Occurrence) :
    g.series e records windows o = .ok out ↔
      ∃ time,
        g.RunsInCalendar e records windows o time anchor ∧
        out = g.pipeline e records windows o time anchor := by
  cases hTime : g.timeOfDay e anchor with
  | error range =>
      rw [series_of_time_error hRecurring hManual hAnchor
        hWanted hTime]
      constructor
      · intro hResult
        cases hResult
      · rintro ⟨time, ⟨hRange, _⟩, _⟩
        rw [hTime] at hRange
        cases hRange
  | ok time =>
      rw [series_eq_walk hRecurring hManual hAnchor hWanted
        hTime]
      have hWalk :=
        (g.plan e (.ofList e.id records) windows o
          time).walkFrom_occurrences_eq_ok_iff
            (g.maxAttempts o) anchor {} out hWanted
      rw [WalkPlan.walk]
      constructor
      · intro hResult
        rcases hWalk.mp hResult with ⟨hRange, hOut⟩
        refine ⟨time, ⟨hTime, hRange⟩, ?_⟩
        rw [pipeline_eq]
        exact hOut.symm
      · rintro ⟨other, ⟨hOther, hRange⟩, hOut⟩
        have hSame : time = other := by
          rw [hTime, Except.ok.injEq] at hOther
          exact hOther
        subst hSame
        rw [pipeline_eq] at hOut
        exact hWalk.mpr ⟨hRange, hOut.symm⟩

/-
  Of five jazz nights the second is skipped, the third moved,
  and the fourth hidden by a window.
-/
theorem series_eq_pipeline_of_jazzNight :
    let g : Generator := ⟨.utc, nightTime 0 0, 6⟩
    let records :=
      [.skip jazzNight.id (nightTime 1 0),
        movedNight 2 (nightTime 2 24)]
    let windows :=
      [HolidayWindow.named ⟨3⟩ "Closed" (nightTime 3 0)
        (nightTime 3 4)]
    let o : SeriesOptions := ⟨3, false, some (nightTime 5 0)⟩
    ∃ time,
      g.RunsInCalendar jazzNight records windows o time
        (nightTime 0 0) ∧
      (g.pipeline jazzNight records windows o time
        (nightTime 0 0)).map (·.start) =
          [nightTime 0 0, nightTime 2 24, nightTime 4 0] := by
  intro g records windows o
  have hAnchor :
      anchor? jazzNight (.ofList jazzNight.id records) =
        some (nightTime 0 0) := by
    cbv
  have hStarts :
      (g.series jazzNight records windows o).map
          (·.map (·.start)) =
        .ok [nightTime 0 0, nightTime 2 24, nightTime 4 0] := by
    cbv
  rcases exists_ok_of_map hStarts with ⟨out, hSeries, hOutStarts⟩
  rcases
      (series_eq_pipeline_iff rfl
        (Event.manualDates_of_nil rfl .utc) hAnchor (by decide)
        out).mp hSeries with
    ⟨time, hRuns, hOut⟩
  refine ⟨time, hRuns, ?_⟩
  rw [← hOut]
  exact hOutStarts

end Generator

end EventSeries
