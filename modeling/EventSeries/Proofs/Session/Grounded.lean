import EventSeries.Proofs.Series.Resumed
import EventSeries.Proofs.Session.Run

/-
  Cached starts that lead a walk back to a date of the series:
  those that are a date, or at which an override in force
  starts, or to which or past which an earlier date has been
  moved.  Only an edit or the loss of an override can take
  this away from a cached start.

  Main declarations:
    * `Session.Grounded`
    * `Session.Follows.hasDate_anchorFor_iff`
    * `Session.Grounded.grows`
    * `Session.grounded_of_growth`
-/

namespace EventSeries

namespace Session

variable {s₀ s s' : Session}

------------------------------------------------------------
-- Grounded Caches
------------------------------------------------------------

/- The series has a record for a date. -/
def HasRecord
    (s : Session)
    (date : Instant) : Prop :=
  ∃ r ∈ s.records, r.series = s.event.id ∧
    r.occurrenceStart = date

/- Where the override in force on a date starts. -/
def overrideStartOn?
    (s : Session)
    (date : Instant) : Option Instant :=
  (ExceptionIndex.ofList s.event.id s.records).overrideStartOn?
    date

/-
  The cached start is a date of the series, or an override in
  force starts then, or one in force starts no earlier and is
  for an earlier date.
-/
def Grounded
    (s : Session) : Prop :=
  ∀ cached, s.event.nextStart = some cached →
    s.event.HasDate s.scheduler.zone cached ∨
    ∃ date start, s.overrideStartOn? date = some start ∧
      (start = cached ∨ date < cached ∧ cached ≤ start)

theorem record?_eq_none_iff
    {date : Instant} :
    (ExceptionIndex.ofList s.event.id s.records).record? date =
        none ↔
      ¬ s.HasRecord date := by
  rw [ExceptionIndex.record?_ofList_eq_none_iff, HasRecord]
  constructor
  · rintro hNone ⟨r, hMember, hSeries, hDate⟩
    exact hNone r hMember hSeries hDate
  · intro hNone r hMember hSeries hDate
    exact hNone ⟨r, hMember, hSeries, hDate⟩

/- An override in force is for a date of the series. -/
theorem Follows.hasDate_of_override
    (hFollows : Follows s₀ s)
    {date start : Instant}
    (hStart : s.overrideStartOn? date = some start) :
    s.event.HasDate s.scheduler.zone date := by
  rcases
      ExceptionIndex.overrideStartOn?_eq_some_iff.mp hStart with
    ⟨r, replacement, hRecord, hActive, _⟩
  rcases ExceptionIndex.mem_of_record?_ofList hRecord with
    ⟨hMember, _, rfl⟩
  exact hFollows.hasDate_iff.mpr
    (hFollows.replaced r hMember
      (ExceptionRecord.kind_of_activeOverride? hActive))

/- A walk begins on a date, or on the cached start itself. -/
theorem Follows.anchorFor_of_not_hasDate
    (hFollows : Follows s₀ s)
    {cached : Instant}
    (hLost :
      ¬ s.event.HasDate s.scheduler.zone
        ((ExceptionIndex.ofList s.event.id s.records).anchorFor
          cached)) :
    (ExceptionIndex.ofList s.event.id s.records).anchorFor
      cached = cached := by
  have hFirst :=
    ExceptionIndex.isFirst_ofList s.event.id s.records
  rcases ExceptionIndex.anchorFor_cases hFirst cached with
    ⟨start, hStart⟩ | ⟨hSelf, _⟩
  · exact absurd (hFollows.hasDate_of_override hStart) hLost
  · exact hSelf

/-
  A walk from a cached start begins on a date of the series
  exactly if that start is grounded.
-/
theorem Follows.hasDate_anchorFor_iff
    (hFollows : Follows s₀ s)
    {cached : Instant} :
    s.event.HasDate s.scheduler.zone
        ((ExceptionIndex.ofList s.event.id s.records).anchorFor
          cached) ↔
      s.event.HasDate s.scheduler.zone cached ∨
      ∃ date start, s.overrideStartOn? date = some start ∧
        (start = cached ∨ date < cached ∧ cached ≤ start) := by
  have hFirst :=
    ExceptionIndex.isFirst_ofList s.event.id s.records
  rw [ExceptionIndex.anchorFor]
  have hReplaced :=
    ExceptionIndex.replacedStart?_getD_cases hFirst cached
  generalize
    ((ExceptionIndex.ofList s.event.id s.records).replacedStart?
      cached).getD cached = replaced at hReplaced ⊢
  rcases ExceptionIndex.movedPast?_getD_cases hFirst replaced with
    ⟨hMoved, hLeast⟩
  change s.event.HasDate s.scheduler.zone
    (((ExceptionIndex.ofList s.event.id s.records).movedPast?
      replaced).getD replaced) ↔ _
  generalize
    ((ExceptionIndex.ofList s.event.id s.records).movedPast?
      replaced).getD replaced = anchor at hMoved hLeast ⊢
  rcases hMoved with ⟨hBefore, start, hStart, hLe⟩ | rfl
  · have hAnchor := hFollows.hasDate_of_override hStart
    rcases hReplaced with ⟨hCached, _⟩ | ⟨rfl, _⟩
    · exact iff_of_true hAnchor
        (Or.inr ⟨replaced, cached, hCached, Or.inl rfl⟩)
    · exact iff_of_true hAnchor
        (Or.inr ⟨anchor, start, hStart, Or.inr ⟨hBefore, hLe⟩⟩)
  · rcases hReplaced with ⟨hCached, _⟩ | ⟨rfl, hNone⟩
    · exact iff_of_true (hFollows.hasDate_of_override hCached)
        (Or.inr ⟨anchor, cached, hCached, Or.inl rfl⟩)
    · constructor
      · exact Or.inl
      · rintro (hDate | ⟨date, start, hStart, hWhere⟩)
        · exact hDate
        · exfalso
          rcases hWhere with rfl | ⟨hBefore, hLe⟩
          · exact hNone date hStart
          · have hNotBefore :=
              hLeast date ⟨hBefore, start, hStart, hLe⟩
            grind

------------------------------------------------------------
-- Growth
------------------------------------------------------------

/- Added records leave a cached start grounded. -/
theorem Grounded.append
    (hGrounded : s.Grounded)
    (more : List ExceptionRecord) :
    Grounded { s with records := s.records ++ more } := by
  intro cached hCached
  rcases hGrounded cached hCached with
    hDate | ⟨date, start, hStart, hWhere⟩
  · exact Or.inl hDate
  · exact Or.inr
      ⟨date, start,
        ExceptionIndex.overrideStartOn?_ofList_append hStart more,
        hWhere⟩

/-
  A refresh caches the start of an occurrence.  By the rule
  that is a date of the series, and otherwise the start of an
  override in force.
-/
theorem Grounded.refresh
    (hGrounded : s.Grounded)
    (hFollows : Follows s₀ s)
    (hSeries : s₀.IsSeries)
    (now : Instant)
    (windows : List HolidayWindow)
    (maxOccurrences : Option Nat)
    (horizonEnd : Option Instant) :
    Grounded
      (({ s.movedTo now with windows := windows }).refresh
        maxOccurrences horizonEnd).2 := by
  rcases
      s.refresh_cases now windows maxOccurrences horizonEnd with
    ⟨hSame, hEvent⟩
  rw [hSame]
  rcases hEvent with
    hUnchanged | ⟨out, o, _, hOs, hNext, hCached⟩
  · rw [hUnchanged]
    exact hGrounded
  · rw [hCached]
    intro cached hSome
    change out.nextStart = some cached at hSome
    have hRecurring :=
      (hFollows.isSeries hSeries).recurring
    rw [hSome, Event.upcomingStart?, if_pos hRecurring] at hNext
    rcases earliestUpcoming?_eq_some_iff.mp hNext.symm with
      ⟨⟨occurrence, hMember, rfl⟩, _⟩
    rcases
        (hFollows.isSeries hSeries).exists_source hOs hMember with
      ⟨p, first, date, hIndex, hFound, hLeads, hFirst⟩
    rcases WalkPlan.start_of_occurrence? hFound with
      hPlain | hOverride
    · left
      rw [hPlain]
      apply hLeads.hasDate
      rcases hFirst with hDate | ⟨before, hBefore, rfl⟩
      · exact hDate
      · exact hFollows.hasDate_anchorFor_iff.mpr
          (hGrounded before hBefore)
    · right
      rw [hIndex] at hOverride
      exact ⟨date, occurrence.start, hOverride, Or.inl rfl⟩

theorem Grounded.grows
    (hGrounded : s.Grounded)
    (hFollows : Follows s₀ s)
    (hSeries : s₀.IsSeries)
    (hGrows : Grows s s') :
    s'.Grounded := by
  cases hGrows with
  | skip _ => exact hGrounded.append _
  | @attach between id date clone replacement _ hClone =>
      rw [slugs_of_clone hClone]
      exact hGrounded.append _
  | refresh _ =>
      exact hGrounded.refresh hFollows hSeries _ _ _ _

/-
  Whatever is added to a session, in any order with refreshes,
  its cached start stays grounded.
-/
theorem grounded_of_growth
    (hFresh : s₀.Fresh)
    (hRun : Relation.ReflTransGen Grows s₀ s) :
    s.Grounded := by
  have hBoth : Follows s₀ s ∧ s.Grounded := by
    induction hRun with
    | refl =>
        refine ⟨hFresh.follows, ?_⟩
        intro cached hCached
        rw [hFresh.uncached] at hCached
        cases hCached
    | tail _ hGrows ih =>
        rcases ih with ⟨hFollows, hGrounded⟩
        exact ⟨hFollows.grows hFresh.toIsSeries hGrows,
          hGrounded.grows hFollows hFresh.toIsSeries hGrows⟩
  exact hBoth.2

end Session

end EventSeries
