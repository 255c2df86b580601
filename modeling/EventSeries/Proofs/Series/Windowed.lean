import EventSeries.Proofs.Series.Pipeline

/-
  Series of one event under other holiday windows.  Windows
  decide neither where a walk begins nor where it goes on, so
  that walks agree which find the same on their dates, for
  whatever reason a date is left out.  Windows that end before
  all that a series can list, or begin after its horizon,
  can therefore be left out.

  Main declarations:
    * `WalkPlan.withWindows`
    * `Visit.unexplained`
    * `WalkPlan.walkFrom_occurrences_congr`
    * `HolidayWindow.blocking?_overlapping`
    * `Generator.series_congr_of_walks`
    * `Generator.series_of_overlapping`
-/

namespace EventSeries

------------------------------------------------------------
-- Visits Without Their Reasons
------------------------------------------------------------

/- A visit that does not tell which window hides its date. -/
def Visit.unexplained : Visit → Visit
  | .hidden _ => .left
  | .pastHorizon => .pastHorizon
  | .found occurrence => .found occurrence
  | .left => .left

namespace Visit

@[simp] theorem found?_unexplained
    (v : Visit) :
    v.unexplained.found? = v.found? := by
  cases v <;> rfl

theorem unexplained_eq_pastHorizon_iff
    {v : Visit} :
    v.unexplained = .pastHorizon ↔ v = .pastHorizon := by
  cases v <;> simp [unexplained]

/- Visits leave the range alike, or differ in a reason at most. -/
theorem cases_of_unexplained
    {v w : Bounded Visit}
    (hSame : v.map unexplained = w.map unexplained) :
    (∃ range, v = .error range ∧ w = .error range) ∨
    ∃ here there, v = .ok here ∧ w = .ok there ∧
      here.unexplained = there.unexplained := by
  cases v with
  | error range =>
      cases w with
      | error other =>
          cases hSame
          exact Or.inl ⟨range, rfl, rfl⟩
      | ok there => cases hSame
  | ok here =>
      cases w with
      | error other => cases hSame
      | ok there =>
          exact Or.inr ⟨here, there, rfl, rfl, Except.ok.inj hSame⟩

/- What is gathered on a date does not depend on the reason. -/
theorem collected_record_congr
    {s t : WalkState}
    {v w : Visit}
    (hCollected : s.collected = t.collected)
    (hSame : v.unexplained = w.unexplained)
    (id other : Id)
    (date : Instant) :
    (s.record id date v).collected =
      (t.record other date w).collected := by
  have hFound : v.found? = w.found? := by
    rw [← found?_unexplained v, hSame, found?_unexplained]
  rw [← Array.toList_inj, WalkPlan.record_collected,
    WalkPlan.record_collected, hCollected, hFound]

end Visit

------------------------------------------------------------
-- Walks That Differ In Reasons
------------------------------------------------------------

namespace WalkPlan

/-
  Walks give the same occurrences that step alike and, on each
  date that they may come to, find the same or leave it out.
  The induction is on the attempts.
-/
theorem walkFrom_occurrences_congr
    {p q : WalkPlan}
    (hCount : p.options.maxOccurrences = q.options.maxOccurrences)
    (hNext : p.next? = q.next?)
    {n : Nat}
    {first : Instant}
    {s t : WalkState}
    (hCollected : s.collected = t.collected)
    (hVisit :
      ∀ date ∈ datesFrom p.later? n first,
        (p.visit date).map Visit.unexplained =
          (q.visit date).map Visit.unexplained) :
    (p.walkFrom n first s).occurrences =
      (q.walkFrom n first t).occurrences := by
  induction n generalizing first s t with
  | zero => simp [walkFrom, WalkEnd.occurrences, hCollected]
  | succ n ih =>
      rw [datesFrom] at hVisit
      rcases Visit.cases_of_unexplained
          (hVisit first List.mem_cons_self) with
        ⟨range, hV, hW⟩ | ⟨v, w, hV, hW, hSame⟩
      · rw [walkFrom_of_visit_error hV, walkFrom_of_visit_error hW]
        rfl
      · have hAfter :=
          Visit.collected_record_congr hCollected hSame p.event.id
            q.event.id first
        have hEnds : v = .pastHorizon ↔ w = .pastHorizon := by
          rw [← Visit.unexplained_eq_pastHorizon_iff, hSame,
            Visit.unexplained_eq_pastHorizon_iff]
        rw [walkFrom, walkFrom, hV, hW]
        simp only
        generalize s.record p.event.id first v = s' at hAfter
        generalize t.record q.event.id first w = t' at hAfter
        simp only [hEnds, isFilled, hCount, hAfter, ← hNext]
        split
        · simp [WalkEnd.occurrences, hAfter]
        · split
          · simp [WalkEnd.occurrences, hAfter]
          · cases hStep : p.next? first with
            | error range => rfl
            | ok next =>
                cases next with
                | none => simp [WalkEnd.occurrences, hAfter]
                | some next =>
                    apply ih hAfter
                    intro date hMember
                    apply hVisit
                    rw [later?_of_next? hStep]
                    exact List.mem_cons_of_mem first hMember

/- The same plan under other windows. -/
def withWindows
    (p : WalkPlan)
    (windows : List HolidayWindow) : WalkPlan :=
  { p with windows := windows }

end WalkPlan

------------------------------------------------------------
-- Windows That Meet A Range
------------------------------------------------------------

theorem all_le_trans
    {start : Option Instant}
    {t date : Instant}
    (hStart : start.all (· ≤ t) = true)
    (hLe : t ≤ date) :
    start.all (· ≤ date) = true := by
  cases start with
  | none => rfl
  | some lo =>
      rw [Option.all_some, decide_eq_true_eq] at hStart ⊢
      exact Std.le_trans hStart hLe

/- A window around a date meets each range with that date. -/
theorem HolidayWindow.blocking?_overlapping
    {start stop : Option Instant}
    {date : Instant}
    (hStart : start.all (· ≤ date) = true)
    (hStop : stop.all (date ≤ ·) = true)
    (windows : List HolidayWindow)
    (audience : Audience) :
    blocking? (overlapping windows start stop) audience date =
      blocking? windows audience date := by
  unfold blocking? overlapping
  rw [List.find?_filter]
  congr 1
  funext w
  rw [Bool.eq_iff_iff]
  simp only [contains, Option.all_eq_true, decide_eq_true_eq,
    Bool.and_eq_true] at hStart hStop ⊢
  constructor
  · rintro ⟨_, hHides⟩
    exact hHides
  · rintro ⟨hApplies, hOpen, hClose⟩
    refine ⟨⟨?_, ?_⟩, hApplies, hOpen, hClose⟩
    · intro lo hLo
      exact Std.le_trans (hStart lo hLo) hClose
    · intro hi hHi
      exact Std.le_trans hOpen (hStop hi hHi)

namespace WalkPlan

/- A date left out for being past is left out at any rate. -/
theorem visitPlain_of_not_admits
    {p : WalkPlan}
    {date : Instant}
    (hPast : ¬ p.options.admits p.now date = true) :
    (p.visitPlain date).map Visit.unexplained = .ok .left := by
  rw [visitPlain, if_neg hPast]
  split <;> rfl

section

variable {p : WalkPlan}
variable {start : Option Instant}
variable {date : Instant}
variable (hBound :
  p.options.admits p.now date = true →
    start.all (· ≤ date) = true)

include hBound

/-
  On a date not before the bound the windows that meet the
  range hide the same; on one that is left out for being past
  they can only give another reason for it.
-/
theorem visitPlain_overlapping
    (hWithin : p.options.withinHorizon date = true) :
    ((p.withWindows
        (HolidayWindow.overlapping p.windows start
          p.options.horizonEnd)).visitPlain date).map
        Visit.unexplained =
      (p.visitPlain date).map Visit.unexplained := by
  by_cases hAdmits : p.options.admits p.now date = true
  · rw [visitPlain, visitPlain, withWindows,
      HolidayWindow.blocking?_overlapping (hBound hAdmits)
        hWithin]
  · have hOther :
        ¬ (p.withWindows
            (HolidayWindow.overlapping p.windows start
              p.options.horizonEnd)).options.admits p.now date =
          true :=
      hAdmits
    rw [visitPlain_of_not_admits hAdmits,
      visitPlain_of_not_admits hOther]

theorem visit_overlapping :
    ((p.withWindows
        (HolidayWindow.overlapping p.windows start
          p.options.horizonEnd)).visit date).map
        Visit.unexplained =
      (p.visit date).map Visit.unexplained := by
  by_cases hWithin : p.options.withinHorizon date = true
  · have hPlain := visitPlain_overlapping hBound hWithin
    simp only [visit, withWindows, hWithin, Bool.not_true,
      Bool.false_eq_true, if_false]
    cases p.index.resolve date with
    | override r replacement => rfl
    | suppressed r => rfl
    | unchanged => exact hPlain
  · simp [visit, withWindows, hWithin]

end

end WalkPlan

------------------------------------------------------------
-- Series Under The Windows Of Their Range
------------------------------------------------------------

namespace Generator

/- Windows show in a series only through its walk. -/
theorem series_congr_of_walks
    {g : Generator}
    {e : Event}
    {records : List ExceptionRecord}
    {windows others : List HolidayWindow}
    {o : SeriesOptions}
    (hWalks :
      ∀ anchor time,
        e.isRecurring = true →
          anchor? e (.ofList e.id records) = some anchor →
            ((g.plan e (.ofList e.id records) windows o
                time).walk anchor).occurrences =
              ((g.plan e (.ofList e.id records) others o
                time).walk anchor).occurrences) :
    g.series e records windows o =
      g.series e records others o := by
  simp only [series, tracedSeries]
  split
  · rfl
  · split
    · rfl
    · rfl
    · simp only [anchoredSeries]
      split
      · rfl
      · rename_i hAnchor
        split
        · rename_i hRecurring
          simp only [recurringSeries]
          split
          · rfl
          · rename_i time _
            exact hWalks _ time hRecurring hAnchor
        · rfl

/-
  The windows that meet a range give the series that all of
  them give, if the range ends with the horizon and begins no
  later than the series can: now if past dates are left out,
  and else the first date of the walk.
-/
theorem series_of_overlapping
    {g : Generator}
    {e : Event}
    {records : List ExceptionRecord}
    {o : SeriesOptions}
    {start : Option Instant}
    (hPresent :
      o.includePast = false → start.all (· ≤ g.now) = true)
    (hPast :
      o.includePast = true → e.isRecurring = true →
        ∀ anchor,
          anchor? e (.ofList e.id records) = some anchor →
            start.all (· ≤ anchor) = true)
    (windows : List HolidayWindow) :
    g.series e records
        (HolidayWindow.overlapping windows start o.horizonEnd) o =
      g.series e records windows o := by
  apply series_congr_of_walks
  intro anchor time hRecurring hAnchor
  let p := g.plan e (.ofList e.id records) windows o time
  apply WalkPlan.walkFrom_occurrences_congr
    (p := p.withWindows
      (HolidayWindow.overlapping windows start o.horizonEnd))
    (q := p) rfl rfl rfl
  intro date hMember
  apply WalkPlan.visit_overlapping (p := p)
  intro hAdmits
  cases hIncluded : o.includePast with
  | false =>
      have hNow : g.now ≤ date := by
        simpa [SeriesOptions.admits, p, plan, hIncluded]
          using hAdmits
      exact all_le_trans (hPresent hIncluded) hNow
  | true =>
      have hAnchorDate :=
        (dateFrom_of_mem_datesFrom hMember).first_le
          WalkPlan.lt_of_later?
      exact all_le_trans
        (hPast hIncluded hRecurring anchor hAnchor) hAnchorDate

/-
  From the second jazz night to the sixth, a window that
  closes on the first instant of that range counts, and so
  does one with its ends the wrong way round; one that is
  over and one that is still to come do not.
-/
theorem series_of_overlapping_jazzNight :
    let g : Generator := ⟨.utc, nightTime 1 0, 6⟩
    let o : SeriesOptions := ⟨6, false, some (nightTime 5 0)⟩
    let windows :=
      [HolidayWindow.named ⟨3⟩ "Over" (nightTime 0 0)
          (nightTime 1 (-1)),
        HolidayWindow.named ⟨4⟩ "Closing" (nightTime 0 1)
          (nightTime 1 0),
        HolidayWindow.named ⟨5⟩ "Inverted" (nightTime 4 1)
          (nightTime 4 (-1)),
        HolidayWindow.named ⟨6⟩ "Coming" (nightTime 5 1)
          (nightTime 6 0)]
    let near :=
      HolidayWindow.overlapping windows (some (nightTime 1 0))
        o.horizonEnd
    near.map (·.name) = ["Closing", "Inverted"] ∧
    g.series jazzNight [] near o =
      g.series jazzNight [] windows o ∧
    (g.series jazzNight [] near o).map (·.map (·.start)) =
      .ok [nightTime 2 0, nightTime 3 0, nightTime 4 0,
        nightTime 5 0] := by
  intro g o windows near
  refine ⟨by decide, ?_, by cbv⟩
  apply series_of_overlapping
  · intro _
    decide
  · intro hIncluded
    cases hIncluded

end Generator

end EventSeries
