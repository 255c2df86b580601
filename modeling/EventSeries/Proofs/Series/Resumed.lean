import EventSeries.Proofs.Series.Settled
import EventSeries.Refresh

/-
  Walks that begin later than the first date of a series.  As
  long as everything on the dates left out has started before
  some moment, such a walk shows the same occurrences from
  that moment on.

  Main declarations:
    * `WalkPlan.seenAt`
    * `WalkPlan.Resumes`
    * `WalkPlan.Resumes.exists_settled`
    * `WalkPlan.resumes_of_mem`
-/

namespace EventSeries

------------------------------------------------------------
-- Upcoming Occurrences
------------------------------------------------------------

/- The occurrences that start at some moment or later. -/
def upcoming
    (now : Instant)
    (os : List Occurrence) : List Occurrence :=
  os.filter (now ≤ ·.start)

theorem mem_upcoming
    {now : Instant}
    {os : List Occurrence}
    {o : Occurrence} :
    o ∈ upcoming now os ↔ o ∈ os ∧ now ≤ o.start := by
  simp [upcoming]

theorem upcoming_eq_nil
    {now : Instant}
    {os : List Occurrence}
    (hPast : ∀ o ∈ os, o.start < now) :
    upcoming now os = [] := by
  apply List.filter_eq_nil_iff.mpr
  intro o hMember
  have hBefore := hPast o hMember
  rw [decide_eq_true_eq]
  grind

theorem upcoming_append
    {now : Instant}
    (earlier later : List Occurrence) :
    upcoming now (earlier ++ later) =
      upcoming now earlier ++ upcoming now later :=
  List.filter_append earlier later

/- The earliest upcoming start is that of an occurrence. -/
theorem earliestUpcoming?_eq_some_iff
    {now t : Instant}
    {os : List Occurrence} :
    earliestUpcoming? now os = some t ↔
      (∃ o ∈ os, o.start = t) ∧ now ≤ t ∧
        ∀ o ∈ os, now ≤ o.start → t ≤ o.start := by
  rw [earliestUpcoming?, Instant.earliest?_eq_some_iff]
  simp only [List.mem_filter, List.mem_map, decide_eq_true_eq]
  constructor
  · rintro ⟨⟨hSome, hNow⟩, hLeast⟩
    refine ⟨hSome, hNow, ?_⟩
    intro o hMember hUpcoming
    exact hLeast o.start ⟨⟨o, hMember, rfl⟩, hUpcoming⟩
  · rintro ⟨hSome, hNow, hLeast⟩
    refine ⟨⟨hSome, hNow⟩, ?_⟩
    rintro u ⟨⟨o, hMember, rfl⟩, hUpcoming⟩
    exact hLeast o hMember hUpcoming

theorem earliestUpcoming?_eq_none_iff
    {now : Instant}
    {os : List Occurrence} :
    earliestUpcoming? now os = none ↔
      ∀ o ∈ os, o.start < now := by
  rw [earliestUpcoming?, Instant.earliest?_eq_none_iff,
    List.filter_eq_nil_iff]
  simp only [List.mem_map, decide_eq_true_eq,
    forall_exists_index, and_imp, forall_apply_eq_imp_iff₂]
  constructor
  · intro hNone o hMember
    have hNotUpcoming := hNone o hMember
    grind
  · intro hPast o hMember
    have hBefore := hPast o hMember
    grind

theorem earliestUpcoming?_congr
    {now : Instant}
    {os others : List Occurrence}
    (hSame :
      ∀ o, o ∈ upcoming now os ↔ o ∈ upcoming now others) :
    earliestUpcoming? now os = earliestUpcoming? now others := by
  have hStarts (os : List Occurrence) :
      (os.map (·.start)).filter (now ≤ ·) =
        (upcoming now os).map (·.start) := by
    rw [upcoming, List.filter_map]
    rfl
  rw [earliestUpcoming?, earliestUpcoming?, hStarts, hStarts]
  apply Instant.earliest?_congr
  intro t
  simp only [List.mem_map, hSame]

------------------------------------------------------------
-- Plans At Other Times
------------------------------------------------------------

namespace WalkPlan

/- The plan at another present, with or without the past. -/
def seenAt
    (p : WalkPlan)
    (now : Instant)
    (includePast : Bool) : WalkPlan :=
  { p with
    now := now
    options := { p.options with includePast := includePast } }

variable {p : WalkPlan}

/- With past occurrences a walk is the same at any present. -/
theorem walk_seenAt
    (hPast : p.options.includePast = true)
    (now first : Instant) :
    (p.seenAt now true).walk first = p.walk first := by
  have hAdmits (start : Instant) :
      (p.seenAt now true).options.admits now start =
        p.options.admits p.now start := by
    simp [WalkPlan.seenAt, SeriesOptions.admits, hPast]
  have hVisit : (p.seenAt now true).visit = p.visit := by
    funext date
    unfold visit visitOverride visitPlain
    simp only [WalkPlan.seenAt] at hAdmits ⊢
    simp only [hAdmits]
    rfl
  exact walkFrom_congr (p := p.seenAt now true) (q := p) rfl rfl
    hVisit rfl _ _ _

/- What settles does so at any time. -/
theorem Settled.seenAt
    {first : Instant}
    {dates : List Instant}
    (hSettled : p.Settled first dates)
    (now : Instant)
    (includePast : Bool) :
    (p.seenAt now includePast).Settled first dates :=
  ⟨hSettled.settles, hSettled.entries, hSettled.room⟩

theorem Settled.occurrences_withPast
    {first : Instant}
    {dates : List Instant}
    (hSettled : p.Settled first dates)
    (now : Instant) :
    ((p.seenAt now true).walk first).occurrences =
      .ok (sortOccurrences (p.occurrencesOn dates)) := by
  rw [(hSettled.seenAt now true).occurrences_eq]
  have hAll :
      (p.occurrencesOn dates).filter
        (p.seenAt now true).admits = p.occurrencesOn dates :=
    List.filter_eq_self.mpr fun _ _ => rfl
  exact congrArg (Except.ok ∘ sortOccurrences) hAll

theorem Settled.occurrences_upcoming
    {first : Instant}
    {dates : List Instant}
    (hSettled : p.Settled first dates)
    (now : Instant) :
    ((p.seenAt now false).walk first).occurrences =
      .ok (sortOccurrences
        (upcoming now (p.occurrencesOn dates))) := by
  rw [(hSettled.seenAt now false).occurrences_eq]
  rfl

------------------------------------------------------------
-- Resumed Walks
------------------------------------------------------------

/-
  A walk from `anchor` goes over all dates but some first
  ones, on which everything starts before `now`.
-/
def Resumes
    (p : WalkPlan)
    (dates : List Instant)
    (now anchor : Instant) : Prop :=
  ∃ earlier later, dates = earlier ++ later ∧
    SettlesWithin p.next? p.reaches p.maxAttempts anchor
      later ∧
    ∀ o ∈ p.occurrencesOn earlier, o.start < now

/- A walk from the first date leaves nothing out. -/
theorem Settled.resumes
    {first : Instant}
    {dates : List Instant}
    (hSettled : p.Settled first dates)
    (now : Instant) :
    p.Resumes dates now first := by
  refine ⟨[], dates, rfl, hSettled.settles, ?_⟩
  intro o hMember
  cases hMember

/- A walk may begin at any date without upcoming ones before. -/
theorem resumes_of_mem
    {first anchor now : Instant}
    {dates : List Instant}
    (hSettled : p.Settled first dates)
    (hAnchor : anchor ∈ dates)
    (hEarlier :
      ∀ date ∈ dates, date < anchor →
        ∀ o, p.occurrence? date = some o → o.start < now) :
    p.Resumes dates now anchor := by
  rcases hSettled.settles.split hAnchor with
    ⟨earlier, later, hDates, hSettles⟩
  refine ⟨earlier, later, hDates, hSettles, ?_⟩
  intro o hMember
  rcases List.mem_filterMap.mp hMember with ⟨date, hDate, hOn⟩
  have hSorted := pairwise_lt_of_settlesWithin hSettled.settles
  rw [hDates] at hSorted
  have hReaches := hSettled.settles.reaches_of_mem hAnchor
  have hBefore : date < anchor :=
    (List.pairwise_append.mp hSorted).2.2 date hDate anchor
      (hSettles.first_mem hReaches)
  apply hEarlier date _ hBefore o hOn
  rw [hDates]
  exact List.mem_append_left later hDate

/-
  From `now` on, the dates of a resumed walk have the same
  upcoming occurrences as all dates.
-/
theorem Resumes.exists_settled
    {first anchor now present : Instant}
    {dates : List Instant}
    (hResumes : p.Resumes dates now anchor)
    (hSettled : p.Settled first dates)
    (hLe : now ≤ present) :
    ∃ later, p.Settled anchor later ∧
      upcoming present (p.occurrencesOn later) =
        upcoming present (p.occurrencesOn dates) := by
  rcases hResumes with ⟨earlier, later, rfl, hSettles, hPast⟩
  refine ⟨later, hSettled.of_append hSettles, ?_⟩
  have hNone :
      upcoming present (p.occurrencesOn earlier) = [] := by
    apply upcoming_eq_nil
    intro o hMember
    have hBefore := hPast o hMember
    grind
  have hOn :
      p.occurrencesOn (earlier ++ later) =
        p.occurrencesOn earlier ++ p.occurrencesOn later :=
    List.filterMap_append
  rw [hOn, upcoming_append, hNone, List.nil_append]

end WalkPlan

end EventSeries
