import EventSeries.Proofs.Series.Modes
import EventSeries.Proofs.Series.Pipeline

/-
  Series that are cut short for want of attempts.  A walk that
  ends in any other way ends so with more attempts too, and
  says nothing; a walk that has used up its attempts has gone
  over as many dates and is the only one to report a cap.  The
  report is therefore exact: without it no more attempts find
  more, and with it the numbers are those of the walk.

  Main declarations:
    * `LogEntry.reportsCap`
    * `WalkPlan.walkFrom_succ_cases`
    * `WalkPlan.walkFrom_of_more`
    * `WalkPlan.Exhausts`
    * `WalkPlan.exhausts_of_stop`
    * `Generator.series_of_cap_reports`
-/

namespace EventSeries

------------------------------------------------------------
-- Reports
------------------------------------------------------------

/- The entry says that a series was cut short. -/
def LogEntry.reportsCap
    (entry : LogEntry) : Bool :=
  entry.message ==
    "Stepping-attempts cap reached; series truncated"

/- The reports of a cap in a log. -/
def capReports
    (log : List LogEntry) : List LogEntry :=
  log.filter (·.reportsCap)

theorem capReports_append
    (log more : List LogEntry) :
    capReports (log ++ more) =
      capReports log ++ capReports more :=
  List.filter_append log more

/- Dates listed by hand report no cap. -/
theorem capReports_readEntries
    (z : Zone)
    (event : Id)
    (entries : List String) :
    capReports (Event.readEntries z event entries).log = [] := by
  induction entries with
  | nil => rfl
  | cons entry entries ih =>
      rw [Event.readEntries]
      split
      · exact ih
      · rfl
      · exact ih

/- Records report none either. -/
theorem capReports_index
    (index : ExceptionIndex) :
    capReports index.log = [] := by
  rw [capReports, ExceptionIndex.log, List.filter_map,
    List.map_eq_nil_iff, List.filter_eq_nil_iff]
  intro r _
  exact (by decide : ¬ false = true)

theorem capReports_record
    (s : WalkState)
    (event : Id)
    (date : Instant)
    (visit : Visit) :
    capReports (s.record event date visit).log.toList =
      capReports s.log.toList := by
  cases visit with
  | hidden w =>
      simp only [WalkState.record, Array.toList_push,
        capReports_append]
      exact List.append_nil _
  | found occurrence => rfl
  | left => rfl
  | pastHorizon => rfl

------------------------------------------------------------
-- One Date Of A Walk
------------------------------------------------------------

namespace WalkPlan

variable {p : WalkPlan}

/- What a walk records on a date before it goes on. -/
def GoesOn
    (p : WalkPlan)
    (date : Instant)
    (s : WalkState)
    (next : Instant)
    (s' : WalkState) : Prop :=
  ∃ visit, p.visit date = .ok visit ∧ visit ≠ .pastHorizon ∧
    s' = s.record p.event.id date visit ∧
      p.isFilled s' = false ∧ p.next? date = .ok (some next)

/-
  On a date the walk stops, however many attempts are left, or
  it goes on to the next date.
-/
theorem walkFrom_succ_cases
    (p : WalkPlan)
    (date : Instant)
    (s : WalkState) :
    (∃ finish : WalkEnd,
      finish.stop ≠ .attemptsExhausted ∧
        capReports finish.state.log.toList =
          capReports s.log.toList ∧
        ∀ n, p.walkFrom (n + 1) date s = finish) ∨
    ∃ next s', p.GoesOn date s next s' ∧
      ∀ n, p.walkFrom (n + 1) date s = p.walkFrom n next s' := by
  cases hVisit : p.visit date with
  | error range =>
      exact Or.inl ⟨⟨s, .outOfRange range⟩, by simp, rfl,
        fun n => walkFrom_of_visit_error hVisit⟩
  | ok visit =>
      have hLog := capReports_record s p.event.id date visit
      by_cases hHorizon : visit = .pastHorizon
      · left
        refine ⟨⟨s.record p.event.id date visit, .horizon⟩,
          by simp, hLog, ?_⟩
        intro n
        rw [walkFrom, hVisit]
        exact if_pos hHorizon
      · have hWalk (n : Nat) :=
          walkFrom_of_finds (n := n) (s := s) hVisit hHorizon
        simp only at hWalk
        generalize hRecord :
          s.record p.event.id date visit = s' at hWalk hLog
        cases hFilled : p.isFilled s' with
        | true =>
            refine Or.inl ⟨⟨s', .filled⟩, by simp, hLog, ?_⟩
            intro n
            rw [hWalk, if_pos hFilled]
        | false =>
            simp only [hFilled, Bool.false_eq_true, if_false]
              at hWalk
            cases hNext : p.next? date with
            | error range =>
                refine Or.inl
                  ⟨⟨s', .outOfRange range⟩, by simp, hLog, ?_⟩
                intro n
                rw [hWalk, hNext]
            | ok next =>
                cases next with
                | none =>
                    refine Or.inl
                      ⟨⟨s', .patternEnded⟩, by simp, hLog, ?_⟩
                    intro n
                    rw [hWalk, hNext]
                | some next =>
                    refine Or.inr ⟨next, s',
                      ⟨visit, hVisit, hHorizon, hRecord.symm,
                        hFilled, hNext⟩, ?_⟩
                    intro n
                    rw [hWalk, hNext]

/- A date that a walk goes on from is reached, and kept. -/
theorem GoesOn.reaches
    {date next : Instant}
    {s s' : WalkState}
    (hGoesOn : p.GoesOn date s next s') :
    p.reaches date = true := by
  rcases hGoesOn with ⟨visit, hVisit, hHorizon, _⟩
  by_contra hCut
  rw [Bool.not_eq_true] at hCut
  rw [visit_of_not_reaches hCut] at hVisit
  cases hVisit
  exact hHorizon rfl

theorem GoesOn.collected
    {date next : Instant}
    {s s' : WalkState}
    (hGoesOn : p.GoesOn date s next s') :
    s'.collected.toList =
      s.collected.toList ++ (p.kept? date).toList := by
  have hReaches := hGoesOn.reaches
  rcases hGoesOn with ⟨visit, hVisit, _, rfl, _⟩
  rw [record_collected]
  rcases visit_cases hReaches with
    ⟨⟨other, hOther, hFinds⟩, _⟩ | ⟨⟨range, hError⟩, _⟩
  · rw [hVisit] at hOther
    cases hOther
    rw [hFinds.2]
  · rw [hVisit] at hError
    cases hError

theorem GoesOn.examined
    {date next : Instant}
    {s s' : WalkState}
    (hGoesOn : p.GoesOn date s next s') :
    s'.examined = s.examined + 1 := by
  rcases hGoesOn with ⟨visit, _, _, rfl, _⟩
  cases visit <;> rfl

------------------------------------------------------------
-- Walks With More Attempts
------------------------------------------------------------

/- A walk that stops for another reason needs no more. -/
theorem walkFrom_of_more
    {n m : Nat}
    {date : Instant}
    {s : WalkState}
    (hLe : n ≤ m)
    (hStop :
      (p.walkFrom n date s).stop ≠ .attemptsExhausted) :
    p.walkFrom m date s = p.walkFrom n date s := by
  induction n generalizing m date s with
  | zero => exact absurd rfl hStop
  | succ n ih =>
      rcases Nat.exists_eq_add_of_le' hLe with ⟨more, rfl⟩
      rcases p.walkFrom_succ_cases date s with
        ⟨finish, _, _, hStops⟩ | ⟨next, s', _, hGoes⟩
      · rw [hStops, ← Nat.add_assoc, hStops]
      · rw [hGoes] at hStop
        rw [hGoes, ← Nat.add_assoc, hGoes]
        exact ih (Nat.le_add_left n more) hStop

/- No walk reports a cap before it is over. -/
theorem capReports_walkFrom
    (p : WalkPlan)
    (n : Nat)
    (date : Instant)
    (s : WalkState) :
    capReports (p.walkFrom n date s).state.log.toList =
      capReports s.log.toList := by
  induction n generalizing date s with
  | zero => rfl
  | succ n ih =>
      rcases p.walkFrom_succ_cases date s with
        ⟨finish, _, hLog, hStops⟩ |
        ⟨next, s', ⟨visit, _, _, rfl, _⟩, hGoes⟩
      · rw [hStops, hLog]
      · rw [hGoes, ih, capReports_record]

------------------------------------------------------------
-- Walks Without Attempts Left
------------------------------------------------------------

/-
  A walk has gone over so many dates from a date on, none of
  them past the horizon, and has gathered what they leave
  without being filled.
-/
structure Exhausts
    (p : WalkPlan)
    (n : Nat)
    (date : Instant)
    (s finish : WalkState) : Prop where
  length : (datesFrom p.later? n date).length = n
  reached :
    ∀ d ∈ datesFrom p.later? n date, p.reaches d = true
  examined : finish.examined = s.examined + n
  collected :
    finish.collected.toList =
      s.collected.toList ++
        (datesFrom p.later? n date).filterMap p.kept?
  unfilled : p.isFilled s = false → p.isFilled finish = false

/- One date more before the others. -/
theorem Exhausts.cons
    {n : Nat}
    {date next : Instant}
    {s s' finish : WalkState}
    (hGoesOn : p.GoesOn date s next s')
    (hRest : p.Exhausts n next s' finish) :
    p.Exhausts (n + 1) date s finish := by
  have hReaches := hGoesOn.reaches
  have hCollected := hGoesOn.collected
  have hExamined := hGoesOn.examined
  rcases hGoesOn with ⟨_, _, _, _, hFilled, hNext⟩
  have hDates :=
    datesFrom_of_next (later?_of_next? hNext) n
  constructor
  · rw [hDates, List.length_cons, hRest.length]
  · rw [hDates, List.forall_mem_cons]
    exact ⟨hReaches, hRest.reached⟩
  · rw [hRest.examined, hExamined]
    omega
  · rw [hRest.collected, hCollected, hDates,
      List.append_assoc]
    cases hKept : p.kept? date <;> simp [hKept]
  · intro _
    exact hRest.unfilled hFilled

/- That is what using up the attempts means. -/
theorem exhausts_of_stop
    {n : Nat}
    {date : Instant}
    {s : WalkState}
    (hStop :
      (p.walkFrom n date s).stop = .attemptsExhausted) :
    p.Exhausts n date s (p.walkFrom n date s).state := by
  induction n generalizing date s with
  | zero =>
      exact ⟨rfl, nofun, rfl, (List.append_nil _).symm, id⟩
  | succ n ih =>
      rcases p.walkFrom_succ_cases date s with
        ⟨finish, hOther, _, hStops⟩ |
        ⟨next, s', hGoesOn, hGoes⟩
      · rw [hStops] at hStop
        exact absurd hStop hOther
      · rw [hGoes] at hStop ⊢
        exact (ih hStop).cons hGoesOn

/- A walk reports a cap exactly if its attempts are used up. -/
theorem capReports_walk
    (p : WalkPlan)
    (anchor : Instant)
    (event : Id)
    (requested : Nat) :
    capReports ((p.walk anchor).log event requested) =
      if (p.walk anchor).stop = .attemptsExhausted then
        [.attemptsExhausted event
          (p.walk anchor).state.examined
          (p.walk anchor).state.collected.size requested]
      else
        [] := by
  have hLog : capReports (p.walk anchor).state.log.toList = [] :=
    p.capReports_walkFrom p.maxAttempts anchor {}
  rw [WalkEnd.log, capReports_append, hLog, List.nil_append]
  cases (p.walk anchor).stop <;> rfl

end WalkPlan

------------------------------------------------------------
-- Series
------------------------------------------------------------

namespace Generator

variable {g : Generator}
variable {e : Event}
variable {records : List ExceptionRecord}
variable {windows : List HolidayWindow}
variable {o : SeriesOptions}

theorem capReports_of_manual
    {first : Instant}
    {rest : List Instant}
    (hManual :
      (e.manualDates g.zone).value = .ok (first :: rest)) :
    capReports (g.tracedSeries e records windows o).log = [] := by
  rw [tracedSeries]
  split
  · rfl
  · simp only [hManual]
    exact capReports_readEntries g.zone e.id e.manualEntries

/- Without manual dates the reports are those of the anchor. -/
theorem capReports_of_anchored
    (hWanted : 0 < o.maxOccurrences)
    (hManual : (e.manualDates g.zone).value = .ok []) :
    capReports (g.tracedSeries e records windows o).log =
      capReports
        (g.anchoredSeries e (.ofList e.id records) windows
          o).log := by
  have hCount : o.maxOccurrences ≠ 0 := by omega
  have hRead : capReports (e.manualDates g.zone).log = [] :=
    capReports_readEntries g.zone e.id e.manualEntries
  rw [tracedSeries, if_neg hCount]
  simp only [hManual]
  rw [capReports_append, capReports_append, hRead,
    capReports_index]
  rfl

theorem maxAttempts_le_withAttempts
    {more : Nat}
    (hMore : g.attemptsPerOccurrence ≤ more)
    (o : SeriesOptions) :
    g.maxAttempts o ≤ (g.withAttempts more).maxAttempts o := by
  have hFactor :
      g.attemptsPerOccurrence ≤
        (g.withAttempts more).attemptsPerOccurrence :=
    Nat.le_trans hMore (Nat.le_max_left more 1)
  exact Nat.le_min.mpr
    ⟨(Nat.min_le_left _ _).trans (Nat.mul_le_mul_left _ hFactor),
      Nat.min_le_right _ _⟩

section

variable {anchor : Instant}
variable {time : ClockTime}

variable (hWanted : 0 < o.maxOccurrences)
variable (hRecurring : e.isRecurring = true)
variable (hManual : (e.manualDates g.zone).value = .ok [])
variable (hAnchor :
  anchor? e (.ofList e.id records) = some anchor)
variable (hTime : g.timeOfDay e anchor = .ok time)

include hWanted hRecurring hManual hAnchor hTime

theorem capReports_of_walk :
    let walk :=
      (g.plan e (.ofList e.id records) windows o time).walk
        anchor
    capReports (g.tracedSeries e records windows o).log =
      if walk.stop = .attemptsExhausted then
        [.attemptsExhausted e.id walk.state.examined
          walk.state.collected.size o.maxOccurrences]
      else
        [] := by
  rw [capReports_of_anchored hWanted hManual]
  simp only [anchoredSeries, hAnchor, hRecurring, if_true,
    recurringSeries, hTime]
  exact WalkPlan.capReports_walk _ anchor e.id o.maxOccurrences

/- A walk that has attempts left is that of every larger number. -/
theorem series_withAttempts_of_walk
    {more : Nat}
    (hMore : g.attemptsPerOccurrence ≤ more)
    (hStop :
      ((g.plan e (.ofList e.id records) windows o time).walk
        anchor).stop ≠ .attemptsExhausted) :
    (g.withAttempts more).series e records windows o =
      g.series e records windows o := by
  rw [series_eq_walk hRecurring hManual hAnchor hWanted hTime,
    series_eq_walk (g := g.withAttempts more) hRecurring hManual
      hAnchor hWanted hTime]
  apply congrArg WalkEnd.occurrences
  have hSame :=
    WalkPlan.walkFrom_congr
      (p := (g.withAttempts more).plan e (.ofList e.id records)
        windows o time)
      (q := g.plan e (.ofList e.id records) windows o time)
      rfl rfl rfl rfl
      ((g.withAttempts more).maxAttempts o) anchor {}
  refine hSame.trans ?_
  exact WalkPlan.walkFrom_of_more
    (maxAttempts_le_withAttempts hMore o) hStop

/-
  A walk that has used up its attempts gives what it has
  gathered on its dates, and that is less than is wanted.
-/
theorem series_of_exhausted_walk
    {out : List Occurrence}
    (hOut : g.series e records windows o = .ok out)
    (hStop :
      ((g.plan e (.ofList e.id records) windows o time).walk
        anchor).stop = .attemptsExhausted) :
    let p := g.plan e (.ofList e.id records) windows o time
    let dates := datesFrom p.later? (g.maxAttempts o) anchor
    capReports (g.tracedSeries e records windows o).log =
        [.attemptsExhausted e.id (g.maxAttempts o) out.length
          o.maxOccurrences] ∧
      out.length < o.maxOccurrences ∧
      dates.length = g.maxAttempts o ∧
      (∀ date ∈ dates, p.reaches date = true) ∧
      out = sortOccurrences (dates.filterMap p.kept?) := by
  intro p dates
  have hWalk :
      p.Exhausts (g.maxAttempts o) anchor {}
        (p.walk anchor).state :=
    WalkPlan.exhausts_of_stop hStop
  have hCollected :
      (p.walk anchor).state.collected.toList =
        dates.filterMap p.kept? := hWalk.collected
  have hExamined :
      (p.walk anchor).state.examined = g.maxAttempts o := by
    rw [hWalk.examined]
    exact Nat.zero_add _
  rw [series_eq_walk hRecurring hManual hAnchor hWanted hTime,
    WalkEnd.occurrences, hStop] at hOut
  have hSorted :
      out = sortOccurrences (dates.filterMap p.kept?) := by
    rw [← hCollected]
    exact (Except.ok.inj hOut).symm
  have hLength :
      (p.walk anchor).state.collected.size = out.length := by
    rw [hSorted, ← hCollected, sortOccurrences,
      List.length_mergeSort, Array.length_toList]
  have hUnfilled :
      p.isFilled (p.walk anchor).state = false := by
    apply hWalk.unfilled
    exact decide_eq_false (Nat.not_le.mpr hWanted)
  rw [WalkPlan.isFilled, decide_eq_false_iff_not, hLength]
    at hUnfilled
  refine ⟨?_, Nat.not_le.mp hUnfilled, hWalk.length,
    hWalk.reached, hSorted⟩
  rw [capReports_of_walk hWanted hRecurring hManual hAnchor
    hTime, if_pos hStop, ← hLength, ← hExamined]

end

/-
  A series that is no walk makes no attempts: it reports no
  cap, and does not depend on how many there are.
-/
theorem unwalked_or_walk
    {out : List Occurrence}
    (hWanted : 0 < o.maxOccurrences)
    (hOut : g.series e records windows o = .ok out) :
    (capReports (g.tracedSeries e records windows o).log = [] ∧
      ∀ more,
        (g.withAttempts more).series e records windows o =
          .ok out) ∨
    (e.manualDates g.zone).value = .ok [] ∧
      e.isRecurring = true ∧
      ∃ anchor time,
        anchor? e (.ofList e.id records) = some anchor ∧
          g.timeOfDay e anchor = .ok time := by
  rcases mode_cases hWanted hOut with
    ⟨first, rest, hManual⟩ | ⟨hManual, hAnchored⟩
  · refine Or.inl ⟨capReports_of_manual hManual, ?_⟩
    intro more
    rw [← hOut, series_of_manual hManual hWanted]
    exact series_of_manual (g := g.withAttempts more) hManual
      hWanted
  · rcases hAnchored with
      hAnchor | ⟨start, hSingle, hStart⟩ |
      ⟨anchor, hRecurring, hAnchor⟩
    · left
      constructor
      · rw [capReports_of_anchored hWanted hManual,
          anchoredSeries, hAnchor]
        rfl
      · intro more
        rw [← hOut, series_of_no_anchor hManual hAnchor]
        exact series_of_no_anchor (g := g.withAttempts more)
          hManual hAnchor windows
    · left
      constructor
      · rw [capReports_of_anchored hWanted hManual,
          anchoredSeries, anchor?_of_single hSingle, hStart]
        simp only [hSingle]
        rfl
      · intro more
        rw [← hOut,
          series_of_single hSingle hManual hStart hWanted]
        exact series_of_single (g := g.withAttempts more)
          hSingle hManual hStart hWanted
    · rcases exists_walk_of_series hRecurring hManual hAnchor
          hWanted hOut with
        ⟨time, hTime, _⟩
      exact Or.inr
        ⟨hManual, hRecurring, anchor, time, hAnchor, hTime⟩

/-
  A series that reports no cap is the same with any larger
  number of attempts.  One that does reports it once: its walk
  has gone over so many dates as there are attempts in all,
  has gathered fewer occurrences than are wanted, and gives
  all of them; and these are the numbers of the report.
-/
theorem series_of_cap_reports
    {out : List Occurrence}
    (hWanted : 0 < o.maxOccurrences)
    (hOut : g.series e records windows o = .ok out) :
    let attempts :=
      min (o.maxOccurrences * g.attemptsPerOccurrence)
        largestWord
    let reports :=
      capReports (g.tracedSeries e records windows o).log
    (reports = [] →
      ∀ more, g.attemptsPerOccurrence ≤ more →
        (g.withAttempts more).series e records windows o =
          .ok out) ∧
    (reports ≠ [] →
      ∃ anchor time,
        anchor? e (.ofList e.id records) = some anchor ∧
        g.timeOfDay e anchor = .ok time ∧
        let p := g.plan e (.ofList e.id records) windows o time
        let dates := datesFrom p.later? attempts anchor
        reports =
            [.attemptsExhausted e.id attempts out.length
              o.maxOccurrences] ∧
          out.length < o.maxOccurrences ∧
          dates.length = attempts ∧
          (∀ date ∈ dates, p.reaches date = true) ∧
          out = sortOccurrences (dates.filterMap p.kept?)) := by
  intro attempts reports
  rcases unwalked_or_walk hWanted hOut with
    ⟨hNone, hSteady⟩ |
    ⟨hManual, hRecurring, anchor, time, hAnchor, hTime⟩
  · exact ⟨fun _ more _ => hSteady more,
      fun hSome => absurd hNone hSome⟩
  · have hWalk : reports = _ :=
      capReports_of_walk hWanted hRecurring hManual hAnchor hTime
    constructor
    · intro hNone more hMore
      rw [series_withAttempts_of_walk hWanted hRecurring
        hManual hAnchor hTime hMore, hOut]
      intro hStop
      rw [hNone, if_pos hStop] at hWalk
      cases hWalk
    · intro hSome
      refine ⟨anchor, time, hAnchor, hTime, ?_⟩
      apply series_of_exhausted_walk hWanted hRecurring
        hManual hAnchor hTime hOut
      by_contra hStop
      rw [if_neg hStop] at hWalk
      exact hSome hWalk

/-
  Six attempts for one jazz night are used up by those that
  are over, which is reported.  The seventh attempt finds the
  night, and no more attempts than these find another one.
-/
theorem series_of_cap_reports_jazzNight :
    let g : Generator := ⟨.utc, nightTime 6 0, 6⟩
    let o : SeriesOptions := ⟨1, false, none⟩
    capReports (g.tracedSeries jazzNight [] [] o).log =
        [.attemptsExhausted jazzNight.id 6 0 1] ∧
      ∃ night,
        night.start = nightTime 6 0 ∧
        ∀ more, 7 ≤ more →
          (g.withAttempts more).series jazzNight [] [] o =
            .ok [night] := by
  intro g o
  have hEmpty : g.series jazzNight [] [] o = .ok [] := by
    cbv
  have hReported :
      (capReports
        (g.tracedSeries jazzNight [] [] o).log).length = 1 := by
    cbv
  have hSome :
      capReports (g.tracedSeries jazzNight [] [] o).log ≠ [] := by
    intro hNone
    rw [hNone] at hReported
    cases hReported
  rcases (series_of_cap_reports (by decide) hEmpty).2 hSome with
    ⟨anchor, time, _, _, hReports, _⟩
  have hNight :
      ∃ night,
        (g.withAttempts 7).series jazzNight [] [] o =
            .ok [night] ∧
          night.start = nightTime 6 0 :=
    ⟨_, by cbv, by cbv⟩
  rcases hNight with ⟨night, hSeries, hStart⟩
  have hSilent :
      capReports
        ((g.withAttempts 7).tracedSeries jazzNight [] []
          o).log = [] := by
    cbv
  exact ⟨hReports, night, hStart,
    (series_of_cap_reports (by decide) hSeries).1 hSilent⟩

end Generator

end EventSeries
