import EventSeries.Proofs.Series.Entry
import EventSeries.Proofs.Series.Recurring

/-
  The three ways in which a series comes about: from dates
  listed by hand, from the one start of an event, and from a
  walk by the rule.

  Main declarations:
    * `mapM_eq_ok_iff`
    * `exists_mapM_eq_ok`
    * `Generator.series_of_manual`
    * `Generator.series_of_single`
    * `Generator.exists_walk_of_series`
    * `Generator.mode_cases`
-/

namespace EventSeries

/- A list is mapped if each of its members is. -/
theorem mapM_eq_ok_iff
    {ε α β : Type}
    {f : α → Except ε β}
    {xs : List α}
    {ys : List β} :
    xs.mapM f = .ok ys ↔ xs.map f = ys.map .ok := by
  induction xs generalizing ys with
  | nil =>
      cases ys with
      | nil => exact iff_of_true rfl rfl
      | cons y ys => exact iff_of_false nofun nofun
  | cons x xs ih =>
      rw [List.mapM_cons, List.map_cons]
      cases hFirst : f x with
      | error e => cases ys <;> simp [bind, Except.bind]
      | ok y =>
          cases ys with
          | nil =>
              cases xs.mapM f <;>
                simp [bind, Except.bind, pure, Except.pure]
          | cons y' ys =>
              rw [List.map_cons, List.cons.injEq, ← ih]
              cases xs.mapM f <;>
                simp [bind, Except.bind, pure, Except.pure]

/- A list is mapped if each of its members can be. -/
theorem exists_mapM_eq_ok
    {ε α β : Type}
    {f : α → Except ε β}
    {xs : List α}
    (hEach : ∀ x ∈ xs, ∃ y, f x = .ok y) :
    ∃ ys, xs.mapM f = .ok ys := by
  induction xs with
  | nil => exact ⟨[], rfl⟩
  | cons x xs ih =>
      rcases hEach x List.mem_cons_self with ⟨y, hFirst⟩
      rcases ih fun other hOther =>
          hEach other (List.mem_cons_of_mem x hOther) with
        ⟨ys, hRest⟩
      refine ⟨y :: ys, ?_⟩
      rw [List.mapM_cons, hFirst, hRest]
      rfl

/- The occurrences of some dates start on them. -/
theorem Event.starts_of_occurrences
    {e : Event}
    {dates : List Instant}
    {os : List Occurrence}
    (hEach : dates.map e.occurrenceAt = os.map .ok) :
    os.map (·.start) = dates := by
  induction os generalizing dates with
  | nil => simpa using hEach.symm
  | cons x os ih =>
      cases dates with
      | nil => cases hEach
      | cons date dates =>
          rw [List.map_cons, List.map_cons, List.cons.injEq]
            at hEach
          rw [List.map_cons, ih hEach.2,
            (Event.occurrenceAt_start hEach.1).1]

/- Each of them is the one of its start. -/
theorem Event.occurrenceAt_start_of_occurrences
    {e : Event}
    {dates : List Instant}
    {os : List Occurrence}
    {x : Occurrence}
    (hEach : dates.map e.occurrenceAt = os.map .ok)
    (hMember : x ∈ os) :
    e.occurrenceAt x.start = .ok x := by
  have hListed : Except.ok x ∈ dates.map e.occurrenceAt := by
    rw [hEach]
    exact List.mem_map_of_mem hMember
  rcases List.mem_map.mp hListed with ⟨date, _, hAt⟩
  rw [(Event.occurrenceAt_start hAt).1]
  exact hAt

namespace Generator

variable {g : Generator}
variable {e : Event}
variable {records : List ExceptionRecord}
variable {windows : List HolidayWindow}
variable {o : SeriesOptions}

------------------------------------------------------------
-- Dates Listed By Hand
------------------------------------------------------------

theorem series_of_manual_error
    {range : OutOfRange}
    (hManual : (e.manualDates g.zone).value = .error range)
    (hWanted : 0 < o.maxOccurrences) :
    g.series e records windows o = .error range := by
  have hCount : o.maxOccurrences ≠ 0 := by omega
  simp [series, tracedSeries, hCount, hManual]

theorem series_of_manual
    {first : Instant}
    {rest : List Instant}
    (hManual :
      (e.manualDates g.zone).value = .ok (first :: rest))
    (hWanted : 0 < o.maxOccurrences) :
    g.series e records windows o =
      (g.keptDates o (first :: rest)).mapM e.occurrenceAt := by
  have hCount : o.maxOccurrences ≠ 0 := by omega
  simp [series, tracedSeries, hCount, hManual, manualSeries]

/- Each date that is kept has its occurrence. -/
theorem occurrenceAt_of_manual
    {first : Instant}
    {rest : List Instant}
    {os : List Occurrence}
    (hManual :
      (e.manualDates g.zone).value = .ok (first :: rest))
    (hWanted : 0 < o.maxOccurrences)
    (hOs : g.series e records windows o = .ok os) :
    (g.keptDates o (first :: rest)).map e.occurrenceAt =
      os.map .ok := by
  rw [series_of_manual hManual hWanted] at hOs
  exact mapM_eq_ok_iff.mp hOs

/- Each occurrence is the one of a date that is kept. -/
theorem exists_keptDate_of_manual
    {first : Instant}
    {rest : List Instant}
    {os : List Occurrence}
    {x : Occurrence}
    (hManual :
      (e.manualDates g.zone).value = .ok (first :: rest))
    (hWanted : 0 < o.maxOccurrences)
    (hOs : g.series e records windows o = .ok os)
    (hMember : x ∈ os) :
    ∃ date ∈ g.keptDates o (first :: rest),
      e.occurrenceAt date = .ok x := by
  have hListed :
      Except.ok x ∈
        (g.keptDates o (first :: rest)).map e.occurrenceAt := by
    rw [occurrenceAt_of_manual hManual hWanted hOs]
    exact List.mem_map_of_mem hMember
  exact List.mem_map.mp hListed

/- The dates listed by hand decide where the series starts. -/
theorem starts_of_manual
    {first : Instant}
    {rest : List Instant}
    {os : List Occurrence}
    (hManual :
      (e.manualDates g.zone).value = .ok (first :: rest))
    (hWanted : 0 < o.maxOccurrences)
    (hOs : g.series e records windows o = .ok os) :
    os.map (·.start) = g.keptDates o (first :: rest) :=
  Event.starts_of_occurrences
    (occurrenceAt_of_manual hManual hWanted hOs)

------------------------------------------------------------
-- Single Events
------------------------------------------------------------

theorem anchor?_of_single
    (hSingle : e.isRecurring = false)
    (index : ExceptionIndex) :
    anchor? e index = e.startsAt := by
  unfold anchor? Event.anchorStart?
  rw [hSingle]
  cases e.startsAt <;> rfl

theorem series_of_single
    {start : Instant}
    (hSingle : e.isRecurring = false)
    (hManual : (e.manualDates g.zone).value = .ok [])
    (hStart : e.startsAt = some start)
    (hWanted : 0 < o.maxOccurrences) :
    g.series e records windows o = g.singleSeries e o start := by
  have hCount : o.maxOccurrences ≠ 0 := by omega
  have hAnchor := anchor?_of_single hSingle (.ofList e.id records)
  rw [hStart] at hAnchor
  simp [series, tracedSeries, hCount, hManual, anchoredSeries,
    hAnchor, hSingle]

------------------------------------------------------------
-- Walks
------------------------------------------------------------

/- A series by the rule that has an anchor is a walk from it. -/
theorem exists_walk_of_series
    {anchor : Instant}
    {os : List Occurrence}
    (hRecurring : e.isRecurring = true)
    (hManual : (e.manualDates g.zone).value = .ok [])
    (hAnchor :
      anchor? e (.ofList e.id records) = some anchor)
    (hWanted : 0 < o.maxOccurrences)
    (hOs : g.series e records windows o = .ok os) :
    ∃ time, g.timeOfDay e anchor = .ok time ∧
      ((g.plan e (.ofList e.id records) windows o time).walk
        anchor).occurrences = .ok os := by
  cases hTime : g.timeOfDay e anchor with
  | error range =>
      rw [series_of_time_error hRecurring hManual hAnchor
        hWanted hTime] at hOs
      cases hOs
  | ok time =>
      rw [series_eq_walk hRecurring hManual hAnchor hWanted
        hTime] at hOs
      exact ⟨time, rfl, hOs⟩

------------------------------------------------------------
-- All Series
------------------------------------------------------------

/-
  A series that has a result is one of listed dates, has no
  anchor, is that of a single event, or is a walk.
-/
theorem mode_cases
    {os : List Occurrence}
    (hWanted : 0 < o.maxOccurrences)
    (hOs : g.series e records windows o = .ok os) :
    (∃ first rest,
      (e.manualDates g.zone).value = .ok (first :: rest)) ∨
    (e.manualDates g.zone).value = .ok [] ∧
      (anchor? e (.ofList e.id records) = none ∨
      (∃ start, e.isRecurring = false ∧
        e.startsAt = some start) ∨
      ∃ anchor, e.isRecurring = true ∧
        anchor? e (.ofList e.id records) = some anchor) := by
  cases hManual : (e.manualDates g.zone).value with
  | error range =>
      rw [series_of_manual_error hManual hWanted] at hOs
      cases hOs
  | ok dates =>
      cases dates with
      | cons first rest => exact Or.inl ⟨first, rest, rfl⟩
      | nil =>
          refine Or.inr ⟨rfl, ?_⟩
          cases hAnchor : anchor? e (.ofList e.id records) with
          | none => exact Or.inl rfl
          | some anchor =>
              right
              cases hRecurring : e.isRecurring with
              | true => exact Or.inr ⟨anchor, rfl, rfl⟩
              | false =>
                  rw [anchor?_of_single hRecurring] at hAnchor
                  exact Or.inl ⟨anchor, rfl, hAnchor⟩

end Generator

end EventSeries
