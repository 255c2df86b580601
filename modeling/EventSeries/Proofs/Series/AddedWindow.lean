import EventSeries.Proofs.Series.Modes
import EventSeries.Proofs.Series.Settled
import EventSeries.Proofs.Series.Sorting
import EventSeries.Proofs.Series.Windowed

/-
  One window more, put anywhere among the others.  A walk that
  nothing cuts short goes over the same dates as before.  It
  loses the plain occurrences that the window hides, where no
  other window did, and keeps its overrides; nothing moves.

  Main declarations:
    * `HolidayWindow.spares`
    * `WalkPlan.occurrence?_insert_window`
    * `WalkPlan.walk_insert_window`
    * `Generator.WalksUncut`
    * `Generator.series_insert_window`
-/

namespace EventSeries

/- A window leaves overrides, and dates that it does not hide. -/
def HolidayWindow.spares
    (w : HolidayWindow)
    (audience : Audience)
    (x : Occurrence) : Bool :=
  x.isOverride || !w.hides audience x.start

/- A window that is not for an audience leaves its series. -/
theorem HolidayWindow.filter_spares
    (w : HolidayWindow)
    (audience : Audience)
    (os : List Occurrence) :
    os.filter (w.spares audience) =
      if w.appliesTo audience then
        os.filter fun x => x.isOverride || !w.contains x.start
      else
        os := by
  by_cases hApplies : w.appliesTo audience = true
  · rw [if_pos hApplies]
    apply List.filter_congr
    intro x _
    rw [spares, hides, hApplies, Bool.true_and]
  · rw [if_neg hApplies]
    apply List.filter_eq_self.mpr
    intro x _
    simp [spares, hides, hApplies]

namespace WalkPlan

------------------------------------------------------------
-- Dates Under One Window More
------------------------------------------------------------

section

variable {p : WalkPlan}
variable {before after : List HolidayWindow}
variable (hWindows : p.windows = before ++ after)
variable (w : HolidayWindow)

include hWindows

/-
  The window hides a date that no record is on if it is for
  the audience and holds the date, or if another one did so
  before.
-/
theorem any_hides_insert
    (audience : Audience)
    (date : Instant) :
    (before ++ w :: after).any (·.hides audience date) =
      (p.windows.any (·.hides audience date) ||
        w.hides audience date) := by
  rw [hWindows, List.any_append, List.any_cons, List.any_append,
    Bool.or_left_comm, Bool.or_comm]

/- An occurrence stays unless the window takes it away. -/
theorem occurrence?_insert_window
    (date : Instant) :
    (p.withWindows (before ++ w :: after)).occurrence? date =
      (p.occurrence? date).filter
        (w.spares p.event.audience) := by
  have hAny := any_hides_insert hWindows w p.event.audience date
  simp only [occurrence?, entry, withWindows,
    Event.occurrenceOn]
  cases p.index.record? date with
  | some r =>
      cases hActive : r.activeOverride? with
      | none => simp [hActive, Except.toOption]
      | some replacement =>
          simp [hActive, Except.toOption, Option.filter,
            HolidayWindow.spares, Event.overrideOccurrence]
  | none =>
      simp only [hAny]
      cases hHidden :
          p.windows.any (·.hides p.event.audience date) with
      | true => rfl
      | false =>
          cases hAt : p.event.occurrenceAt date with
          | error range =>
              cases w.hides p.event.audience date <;> rfl
          | ok x =>
              have hTimes := Event.occurrenceAt_start hAt
              cases hHides : w.hides p.event.audience date with
              | true =>
                  simp [Functor.map, Except.map,
                    Except.toOption, Option.filter,
                    HolidayWindow.spares, hTimes, hHides]
              | false =>
                  simp [Functor.map, Except.map,
                    Except.toOption, Option.filter,
                    HolidayWindow.spares, hTimes, hHides]

/- The window can only spare the times of an occurrence. -/
theorem exists_entry_insert_window
    {date : Instant}
    (hEntry : ∃ found, p.entry date = .ok found) :
    ∃ found,
      (p.withWindows (before ++ w :: after)).entry date =
        .ok found := by
  have hAny := any_hides_insert hWindows w p.event.audience date
  simp only [entry, withWindows, Event.occurrenceOn]
    at hEntry ⊢
  cases hRecord : p.index.record? date with
  | some r => exact ⟨_, rfl⟩
  | none =>
      rw [hRecord] at hEntry
      simp only [hAny]
      cases w.hides p.event.audience date with
      | true => exact ⟨none, by simp⟩
      | false => simpa using hEntry

theorem filterMap_kept?_insert_window
    (dates : List Instant) :
    dates.filterMap
        (p.withWindows (before ++ w :: after)).kept? =
      (dates.filterMap p.kept?).filter
        (w.spares p.event.audience) := by
  have hOn :
      (p.withWindows (before ++ w :: after)).occurrencesOn
          dates =
        (p.occurrencesOn dates).filter
          (w.spares p.event.audience) := by
    rw [occurrencesOn, occurrencesOn, List.filter_filterMap]
    apply congrArg (List.filterMap · dates)
    funext date
    exact occurrence?_insert_window hWindows w date
  rw [filterMap_kept?, filterMap_kept?, hOn, List.filter_filter,
    List.filter_filter]
  simp only [Bool.and_comm]
  rfl

------------------------------------------------------------
-- Walks Under One Window More
------------------------------------------------------------

/-
  A walk that is not cut short steps over the same dates with
  the window as without, and has a result again, from which
  only what the window hides is missing.
-/
theorem walk_insert_window
    {first : Instant}
    {os : List Occurrence}
    (hWanted : 0 < p.options.maxOccurrences)
    (hOs : (p.walk first).occurrences = .ok os)
    (hFilled : (p.walk first).stop ≠ .filled)
    (hAttempts : (p.walk first).stop ≠ .attemptsExhausted) :
    ((p.withWindows (before ++ w :: after)).walk
        first).occurrences =
      .ok (os.filter (w.spares p.event.audience)) := by
  rcases
      settlesWithin_of_walkFrom hOs hFilled hAttempts hWanted with
    ⟨dates, hSettles, hEntries, hRoom⟩
  rw [occurrences_of_settlesWithin hWanted hSettles hEntries
    (by simpa using Nat.le_of_lt hRoom), Except.ok.injEq] at hOs
  subst hOs
  have hKept := filterMap_kept?_insert_window hWindows w dates
  rw [filter_sortOccurrences, ← hKept]
  apply occurrences_of_settlesWithin
    (p := p.withWindows (before ++ w :: after)) hWanted hSettles
  · intro date hMember hAdmits
    exact exists_entry_insert_window hWindows w
      (hEntries date hMember hAdmits)
  · rw [keptCount, hKept]
    have hFewer :=
      List.length_filter_le (w.spares p.event.audience)
        (dates.filterMap p.kept?)
    have hCount : p.keptCount dates < p.options.maxOccurrences := by
      simpa using hRoom
    exact Nat.le_trans hFewer (Nat.le_of_lt hCount)

end

end WalkPlan

------------------------------------------------------------
-- Series Under One Window More
------------------------------------------------------------

namespace Generator

/-
  The walk of an event, from wherever it begins, is stopped
  neither by the count of occurrences nor by the number of
  attempts.
-/
def WalksUncut
    (g : Generator)
    (e : Event)
    (records : List ExceptionRecord)
    (windows : List HolidayWindow)
    (o : SeriesOptions) : Prop :=
  ∀ anchor time,
    anchor? e (.ofList e.id records) = some anchor →
      g.timeOfDay e anchor = .ok time →
        let finish :=
          (g.plan e (.ofList e.id records) windows o time).walk
            anchor
        finish.stop ≠ .filled ∧
          finish.stop ≠ .attemptsExhausted

/- A walk that the horizon stops is not cut short. -/
theorem WalksUncut.of_horizon
    {g : Generator}
    {e : Event}
    {records : List ExceptionRecord}
    {windows : List HolidayWindow}
    {o : SeriesOptions}
    {anchor : Instant}
    {time : ClockTime}
    (hAnchor :
      anchor? e (.ofList e.id records) = some anchor)
    (hTime : g.timeOfDay e anchor = .ok time)
    (hStop :
      ((g.plan e (.ofList e.id records) windows o time).walk
        anchor).stop = .horizon) :
    g.WalksUncut e records windows o := by
  intro other otherTime hOther hOtherTime
  rw [hAnchor, Option.some.injEq] at hOther
  subst hOther
  rw [hTime, Except.ok.injEq] at hOtherTime
  subst hOtherTime
  simp [hStop]

/-
  A window put anywhere among the others takes away the plain
  occurrences that start inside it, if it is for the audience
  of the event, and nothing else.
-/
theorem series_insert_window
    {g : Generator}
    {e : Event}
    {records : List ExceptionRecord}
    {before after : List HolidayWindow}
    {w : HolidayWindow}
    {o : SeriesOptions}
    {os : List Occurrence}
    (hRecurring : e.isRecurring = true)
    (hManual : (e.manualDates g.zone).value = .ok [])
    (hUncut : g.WalksUncut e records (before ++ after) o)
    (hOs : g.series e records (before ++ after) o = .ok os) :
    g.series e records (before ++ w :: after) o =
      .ok (if w.appliesTo e.audience then
        os.filter fun x => x.isOverride || !w.contains x.start
      else
        os) := by
  rw [← HolidayWindow.filter_spares]
  by_cases hNone : o.maxOccurrences = 0
  · rw [series_of_none_wanted hNone, Except.ok.injEq] at hOs ⊢
    subst hOs
    rfl
  · have hWanted : 0 < o.maxOccurrences := by omega
    cases hAnchor : anchor? e (.ofList e.id records) with
    | none =>
        rw [series_of_no_anchor hManual hAnchor,
          Except.ok.injEq] at hOs ⊢
        subst hOs
        rfl
    | some anchor =>
        rcases exists_walk_of_series hRecurring hManual hAnchor
            hWanted hOs with
          ⟨time, hTime, hWalk⟩
        have hStops := hUncut anchor time hAnchor hTime
        rw [series_eq_walk hRecurring hManual hAnchor hWanted
          hTime]
        exact WalkPlan.walk_insert_window
          (p := g.plan e _ (before ++ after) o time) rfl w
          hWanted hWalk hStops.1 hStops.2

/-
  From the second jazz night on, a window that opens with the
  third and closes with the fifth takes away the third.  The
  fourth, which is moved inside the window, stays; the fifth
  and the sixth were hidden before.
-/
theorem series_insert_window_jazzNight :
    let g : Generator := ⟨.utc, nightTime 0 0, 6⟩
    let e := jazzNight.withCache (some (nightTime 1 0))
    let records := [movedNight 3 (nightTime 3 2)]
    let works :=
      HolidayWindow.named ⟨3⟩ "Works" (nightTime 5 0)
        (nightTime 5 4)
    let fair :=
      HolidayWindow.named ⟨4⟩ "Fair" (nightTime 4 (-1))
        (nightTime 4 1)
    let w :=
      HolidayWindow.named ⟨5⟩ "Closed" (nightTime 2 0)
        (nightTime 4 0)
    let o : SeriesOptions := ⟨10, false, some (nightTime 7 0)⟩
    ∃ os,
      g.series e records [works, fair] o = .ok os ∧
      os.map (·.start) =
        [nightTime 1 0, nightTime 2 0, nightTime 3 2,
          nightTime 6 0, nightTime 7 0] ∧
      g.series e records [works, w, fair] o =
        .ok (os.filter fun x =>
          x.isOverride || !w.contains x.start) := by
  intro g e records works fair w o
  have hStarts :
      (g.series e records [works, fair] o).map
          (·.map (·.start)) =
        .ok [nightTime 1 0, nightTime 2 0, nightTime 3 2,
          nightTime 6 0, nightTime 7 0] := by
    cbv
  rcases exists_ok_of_map hStarts with ⟨os, hOs, hOsStarts⟩
  have hAnchor :
      anchor? e (.ofList e.id records) =
        some (nightTime 1 0) := by
    cbv
  have hUncut : g.WalksUncut e records ([works] ++ [fair]) o :=
    .of_horizon hAnchor
      (jazzNight_timeOfDay (nightTime 0 0) 6) (by cbv)
  have hInserted :
      g.series e records ([works] ++ w :: [fair]) o =
        .ok (os.filter fun x =>
          x.isOverride || !w.contains x.start) :=
    series_insert_window rfl (Event.manualDates_of_nil rfl .utc)
      hUncut hOs
  exact ⟨os, hOs, hOsStarts, hInserted⟩

end Generator

end EventSeries
