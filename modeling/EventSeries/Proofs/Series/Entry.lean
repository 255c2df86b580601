import EventSeries.Proofs.Exception.Lookup
import EventSeries.Series.Walk

/-
  What a series has on one date, told apart from the walk
  that visits it: the occurrence that records and windows
  leave there, and whether the horizon reaches so far.  The
  visit of a walk is determined by the two.

  Main declarations:
    * `Event.occurrenceOn`
    * `Occurrence.slot`
    * `SeriesOptions.reaches`
    * `WalkPlan.entry`
    * `WalkPlan.kept?`
    * `WalkPlan.visit_of_not_reaches`
    * `WalkPlan.visit_cases`
-/

namespace EventSeries

------------------------------------------------------------
-- Dates, Records And Windows
------------------------------------------------------------

/- A window that hides the events of an audience at a start. -/
def HolidayWindow.hides
    (w : HolidayWindow)
    (audience : Audience)
    (start : Instant) : Bool :=
  w.appliesTo audience && w.contains start

/-
  The occurrence of a series on a date, given the record of
  that date.  The override of the record keeps its own times,
  and any other record leaves nothing; without a record, a
  window may hide the date.
-/
def Event.occurrenceOn
    (e : Event)
    (record : Option ExceptionRecord)
    (windows : List HolidayWindow)
    (date : Instant) : Bounded (Option Occurrence) :=
  match record with
  | some r =>
      .ok (r.activeOverride?.map fun replacement =>
        replacement.overrideOccurrence r.key
          (replacement.startsAt.getD date))
  | none =>
      if windows.any (·.hides e.audience date) then
        .ok none
      else
        some <$> e.occurrenceAt date

/- The date of the series that an occurrence stands on. -/
def Occurrence.slot
    (o : Occurrence) : Instant :=
  match o.sourceException with
  | some key => key.occurrenceStart
  | none => o.start

/- The horizon reaches a date, and the override put there. -/
def SeriesOptions.reaches
    (o : SeriesOptions)
    (record : Option ExceptionRecord)
    (date : Instant) : Bool :=
  o.withinHorizon date &&
    (record.bind ExceptionIndex.overrideStart?).all
      o.withinHorizon

theorem SeriesOptions.withinHorizon_of_le
    {o : SeriesOptions}
    {start other : Instant}
    (hLe : start ≤ other)
    (hWithin : o.withinHorizon other = true) :
    o.withinHorizon start = true := by
  rw [withinHorizon, Option.all_eq_true] at hWithin ⊢
  intro horizon hHorizon
  have hOther := hWithin horizon hHorizon
  rw [decide_eq_true_eq] at hOther ⊢
  exact Std.le_trans hLe hOther

/-
  A plain occurrence has its times at the offsets of its
  event, its date as start and no source.
-/
theorem Event.times_of_occurrenceAt
    {e : Event}
    {date : Instant}
    {x : Occurrence}
    (hAt : e.occurrenceAt date = .ok x) :
    e.offsets.doorsAt date = .ok x.doors ∧
      e.offsets.endAt date = .ok x.finish ∧
      e.offsets.curfewAt date = .ok x.curfew ∧
      x = ⟨e.id, date, x.doors, x.finish, x.curfew, false,
        none⟩ := by
  unfold occurrenceAt at hAt
  cases hDoors : e.offsets.doorsAt date with
  | error range =>
      rw [hDoors] at hAt
      cases hAt
  | ok doors =>
      cases hEnd : e.offsets.endAt date with
      | error range =>
          rw [hDoors, hEnd] at hAt
          cases hAt
      | ok finish =>
          cases hCurfew : e.offsets.curfewAt date with
          | error range =>
              rw [hDoors, hEnd, hCurfew] at hAt
              cases hAt
          | ok curfew =>
              rw [hDoors, hEnd, hCurfew] at hAt
              cases hAt
              exact ⟨rfl, rfl, rfl, rfl⟩

theorem Event.eq_of_occurrenceAt
    {e : Event}
    {date : Instant}
    {occurrence : Occurrence}
    (hAt : e.occurrenceAt date = .ok occurrence) :
    ∃ doors finish curfew, occurrence =
      ⟨e.id, date, doors, finish, curfew, false, none⟩ := by
  rcases times_of_occurrenceAt hAt with ⟨_, _, _, hEq⟩
  exact ⟨_, _, _, hEq⟩

theorem Event.occurrenceAt_start
    {e : Event}
    {date : Instant}
    {occurrence : Occurrence}
    (hAt : e.occurrenceAt date = .ok occurrence) :
    occurrence.start = date ∧ occurrence.isOverride = false := by
  rcases Event.eq_of_occurrenceAt hAt with ⟨_, _, _, rfl⟩
  exact ⟨rfl, rfl⟩

theorem HolidayWindow.blocking?_eq_none_iff
    {windows : List HolidayWindow}
    {audience : Audience}
    {date : Instant} :
    HolidayWindow.blocking? windows audience date = none ↔
      windows.any (·.hides audience date) = false := by
  simp [HolidayWindow.blocking?, HolidayWindow.hides]

------------------------------------------------------------
-- Dates Of A Plan
------------------------------------------------------------

/- The occurrence that a visit finds. -/
def Visit.found? : Visit → Option Occurrence
  | .found occurrence => some occurrence
  | .pastHorizon | .left | .hidden _ => none

/- A visit inside the horizon that finds so much. -/
def Visit.Finds
    (v : Visit)
    (found : Option Occurrence) : Prop :=
  v ≠ .pastHorizon ∧ v.found? = found

namespace WalkPlan

/- The occurrence on a date of the walk, past or not. -/
def entry
    (p : WalkPlan)
    (date : Instant) : Bounded (Option Occurrence) :=
  p.event.occurrenceOn (p.index.record? date) p.windows date

/- The horizon of the walk reaches a date. -/
def reaches
    (p : WalkPlan)
    (date : Instant) : Bool :=
  p.options.reaches (p.index.record? date) date

/- An occurrence that is not left out for being past. -/
def admits
    (p : WalkPlan)
    (occurrence : Occurrence) : Bool :=
  p.options.admits p.now occurrence.start

/- The occurrence on a date, whatever its start. -/
def occurrence?
    (p : WalkPlan)
    (date : Instant) : Option Occurrence :=
  (p.entry date).toOption.join

/- The occurrence that the walk keeps on a date. -/
def kept?
    (p : WalkPlan)
    (date : Instant) : Option Occurrence :=
  (p.occurrence? date).filter p.admits

/-
  An occurrence on a date is either the plain one, on a date
  without a record, or that of the override which the record
  puts there.
-/
theorem eq_of_occurrence?
    {p : WalkPlan}
    {date : Instant}
    {o : Occurrence}
    (hOn : p.occurrence? date = some o) :
    (p.index.record? date = none ∧
      p.event.occurrenceAt date = .ok o) ∨
    ∃ r replacement,
      p.index.record? date = some r ∧
        r.activeOverride? = some replacement ∧
          o = replacement.overrideOccurrence r.key
            (replacement.startsAt.getD date) := by
  unfold occurrence? entry Event.occurrenceOn at hOn
  cases hRecord : p.index.record? date with
  | some r =>
      cases hActive : r.activeOverride? with
      | none => simp [hRecord, hActive, Except.toOption] at hOn
      | some replacement =>
          simp only [hRecord, hActive, Except.toOption,
            Option.map_some, Option.join_some,
            Option.some.injEq] at hOn
          right
          exact ⟨r, replacement, rfl, hActive, hOn.symm⟩
  | none =>
      simp only [hRecord] at hOn
      split at hOn
      · simp [Except.toOption] at hOn
      · cases hAt : p.event.occurrenceAt date with
        | error range =>
            simp [hAt, Functor.map, Except.map,
              Except.toOption] at hOn
        | ok occurrence =>
            simp only [hAt, Functor.map, Except.map,
              Except.toOption, Option.join_some,
              Option.some.injEq] at hOn
            left
            exact ⟨rfl, congrArg Except.ok hOn⟩

/-
  The plain occurrence of a date starts then, and that of an
  override where the override says so.
-/
theorem occurrence?_cases
    {p : WalkPlan}
    {date : Instant}
    {o : Occurrence}
    (hOn : p.occurrence? date = some o) :
    (o.isOverride = false ∧ o.start = date ∧
      p.index.record? date = none) ∨
    (o.isOverride = true ∧ ∃ r replacement,
      p.index.record? date = some r ∧
        r.activeOverride? = some replacement ∧
          o.start = replacement.startsAt.getD date) := by
  rcases eq_of_occurrence? hOn with
    ⟨hRecord, hAt⟩ | ⟨r, replacement, hRecord, hActive, rfl⟩
  · have hTimes := Event.occurrenceAt_start hAt
    exact Or.inl ⟨hTimes.2, hTimes.1, hRecord⟩
  · exact Or.inr ⟨rfl, r, replacement, hRecord, hActive, rfl⟩

/- The slot of an occurrence is the date that it is on. -/
theorem slot_of_occurrence?
    {p : WalkPlan}
    {date : Instant}
    {o : Occurrence}
    (hOn : p.occurrence? date = some o) :
    o.slot = date := by
  rcases eq_of_occurrence? hOn with
    ⟨_, hAt⟩ | ⟨r, _, hRecord, _, rfl⟩
  · rcases Event.eq_of_occurrenceAt hAt with ⟨_, _, _, rfl⟩
    rfl
  · have hDate : r.occurrenceStart = date := by
      simpa using List.find?_some hRecord
    exact hDate

theorem start_of_occurrence?
    {p : WalkPlan}
    {date : Instant}
    {o : Occurrence}
    (hOn : p.occurrence? date = some o) :
    o.start = date ∨
      p.index.overrideStartOn? date = some o.start := by
  rcases occurrence?_cases hOn with
    ⟨_, hStart, _⟩ |
    ⟨_, r, replacement, hRecord, hActive, hStart⟩
  · exact Or.inl hStart
  · cases hStarts : replacement.startsAt with
    | none =>
        left
        simpa [hStarts] using hStart
    | some start =>
        right
        have hSame : o.start = start := by
          simpa [hStarts] using hStart
        simp [ExceptionIndex.overrideStartOn?, hRecord,
          ExceptionIndex.overrideStart?, hActive, hStarts,
          hSame]

theorem kept?_eq_some_iff
    {p : WalkPlan}
    {date : Instant}
    {o : Occurrence} :
    p.kept? date = some o ↔
      p.occurrence? date = some o ∧ p.admits o = true :=
  Option.filter_eq_some_iff

theorem occurrence?_of_entry
    {p : WalkPlan}
    {date : Instant}
    {found : Option Occurrence}
    (hEntry : p.entry date = .ok found) :
    p.occurrence? date = found := by
  rw [occurrence?, hEntry]
  rfl

/- With past occurrences nothing is left out for its start. -/
theorem admits_of_includePast
    {p : WalkPlan}
    (hPast : p.options.includePast = true)
    (start : Instant) :
    p.options.admits p.now start = true := by
  simp [SeriesOptions.admits, hPast]

theorem kept?_of_includePast
    {p : WalkPlan}
    (hPast : p.options.includePast = true)
    (date : Instant) :
    p.kept? date = p.occurrence? date := by
  rw [kept?]
  cases p.occurrence? date with
  | none => rfl
  | some o =>
      exact Option.filter_some_pos
        (admits_of_includePast hPast o.start)

/- A date with an override in force has an occurrence. -/
theorem exists_occurrence?_of_override
    {p : WalkPlan}
    {date start : Instant}
    (hOverride :
      p.index.overrideStartOn? date = some start) :
    ∃ o, p.occurrence? date = some o := by
  rcases
      ExceptionIndex.overrideStartOn?_eq_some_iff.mp hOverride with
    ⟨r, replacement, hRecord, hActive, _⟩
  refine ⟨replacement.overrideOccurrence r.key
    (replacement.startsAt.getD date), ?_⟩
  simp [occurrence?, entry, Event.occurrenceOn, hRecord, hActive,
    Except.toOption]

theorem exists_entry_of_kept?
    {p : WalkPlan}
    {date : Instant}
    {o : Occurrence}
    (hKept : p.kept? date = some o) :
    ∃ found, p.entry date = .ok found := by
  have hOn := (kept?_eq_some_iff.mp hKept).1
  unfold occurrence? at hOn
  cases hEntry : p.entry date with
  | error range => simp [hEntry, Except.toOption] at hOn
  | ok found => exact ⟨found, rfl⟩

------------------------------------------------------------
-- Visits
------------------------------------------------------------

theorem resolve_eq
    (index : ExceptionIndex)
    (date : Instant) :
    index.resolve date =
      match index.record? date with
      | none => .unchanged
      | some r =>
          match r.activeOverride? with
          | some event => .override r event
          | none => .suppressed r :=
  rfl

theorem withinHorizon_of_reaches
    {p : WalkPlan}
    {date : Instant}
    (hReaches : p.reaches date = true) :
    p.options.withinHorizon date = true := by
  simp only [reaches, SeriesOptions.reaches,
    Bool.and_eq_true] at hReaches
  exact hReaches.1

theorem reaches_of_no_horizon
    {p : WalkPlan}
    (hNone : p.options.horizonEnd = none)
    (date : Instant) :
    p.reaches date = true := by
  cases hOverride :
      (p.index.record? date).bind
        ExceptionIndex.overrideStart? with
  | none =>
      simp [reaches, SeriesOptions.reaches, hOverride,
        SeriesOptions.withinHorizon, hNone]
  | some start =>
      simp [reaches, SeriesOptions.reaches, hOverride,
        SeriesOptions.withinHorizon, hNone]

/- A date that the horizon does not reach ends the walk. -/
theorem visit_of_not_reaches
    {p : WalkPlan}
    {date : Instant}
    (hCut : p.reaches date = false) :
    p.visit date = .ok .pastHorizon := by
  unfold visit
  by_cases hDate : p.options.withinHorizon date = true
  · simp only [reaches, SeriesOptions.reaches, hDate,
      Bool.true_and] at hCut
    cases hRecord : p.index.record? date with
    | none => simp [hRecord] at hCut
    | some r =>
        cases hActive : r.activeOverride? with
        | none =>
            simp [hRecord, ExceptionIndex.overrideStart?,
              hActive] at hCut
        | some replacement =>
            cases hStart : replacement.startsAt with
            | none =>
                simp [hRecord, ExceptionIndex.overrideStart?,
                  hActive, hStart] at hCut
            | some start =>
                have hOutside :
                    p.options.withinHorizon start = false := by
                  simpa [hRecord, hActive, hStart,
                    ExceptionIndex.overrideStart?] using hCut
                simp [hDate, resolve_eq, hRecord, hActive,
                  visitOverride, hStart, hOutside]
  · simp [hDate]

/- The horizon that reaches a date reaches its override. -/
theorem withinHorizon_of_override
    {p : WalkPlan}
    {date : Instant}
    {r : ExceptionRecord}
    {replacement : Event}
    (hReaches : p.reaches date = true)
    (hRecord : p.index.record? date = some r)
    (hActive : r.activeOverride? = some replacement) :
    p.options.withinHorizon
      (replacement.startsAt.getD date) = true := by
  simp only [reaches, SeriesOptions.reaches, hRecord,
    Option.bind_some, ExceptionIndex.overrideStart?,
    hActive, Bool.and_eq_true] at hReaches
  cases hStart : replacement.startsAt with
  | none => simpa [hStart] using hReaches.1
  | some start => simpa [hStart] using hReaches.2

/- An override that the horizon reaches is found if admitted. -/
theorem visitOverride_of_reaches
    {p : WalkPlan}
    {date : Instant}
    {r : ExceptionRecord}
    {replacement : Event}
    (hReaches : p.reaches date = true)
    (hRecord : p.index.record? date = some r)
    (hActive : r.activeOverride? = some replacement) :
    p.visitOverride r replacement date =
      let start := replacement.startsAt.getD date
      if p.options.admits p.now start then
        .found (replacement.overrideOccurrence r.key start)
      else
        .left := by
  have hWithin :=
    withinHorizon_of_override hReaches hRecord hActive
  simp [visitOverride, hWithin]

/- On a date with a record the walk finds what it keeps. -/
theorem visit_of_recorded
    {p : WalkPlan}
    {date : Instant}
    {r : ExceptionRecord}
    (hReaches : p.reaches date = true)
    (hRecord : p.index.record? date = some r) :
    ∃ visit, p.visit date = .ok visit ∧
      visit.Finds (p.kept? date) := by
  have hDate := withinHorizon_of_reaches hReaches
  cases hActive : r.activeOverride? with
  | none =>
      refine ⟨.left, ?_, by simp, ?_⟩
      · simp [visit, hDate, resolve_eq, hRecord, hActive]
      · simp [Visit.found?, kept?, occurrence?, entry,
          Event.occurrenceOn, hRecord, hActive,
          Except.toOption]
  | some replacement =>
      refine ⟨p.visitOverride r replacement date, ?_, ?_⟩
      · simp [visit, hDate, resolve_eq, hRecord, hActive]
      · rw [visitOverride_of_reaches hReaches hRecord hActive]
        by_cases hAdmits :
            p.options.admits p.now
              (replacement.startsAt.getD date) = true
        · simp [Visit.Finds, Visit.found?, kept?, occurrence?,
            entry, Event.occurrenceOn, hRecord, hActive,
            Except.toOption, admits, hAdmits,
            Event.overrideOccurrence, Option.filter]
        · simp [Visit.Finds, Visit.found?, kept?, occurrence?,
            entry, Event.occurrenceOn, hRecord, hActive,
            Except.toOption, admits, hAdmits,
            Event.overrideOccurrence, Option.filter]

/- A date that a window hides leaves nothing. -/
theorem visit_of_hidden
    {p : WalkPlan}
    {date : Instant}
    (hReaches : p.reaches date = true)
    (hRecord : p.index.record? date = none)
    (hHidden :
      p.windows.any (·.hides p.event.audience date) = true) :
    ∃ visit, p.visit date = .ok visit ∧
      visit.Finds (p.kept? date) := by
  have hDate := withinHorizon_of_reaches hReaches
  cases hBlocking : HolidayWindow.blocking? p.windows
      p.event.audience date with
  | none =>
      rw [HolidayWindow.blocking?_eq_none_iff] at hBlocking
      rw [hBlocking] at hHidden
      cases hHidden
  | some w =>
      refine ⟨.hidden w, ?_, by simp, ?_⟩
      · simp [visit, hDate, resolve_eq, hRecord, visitPlain,
          hBlocking]
      · simp [Visit.found?, kept?, occurrence?, entry,
          Event.occurrenceOn, hRecord, hHidden,
          Except.toOption]

/- Any other date has the plain occurrence, if admitted. -/
theorem visit_of_shown
    {p : WalkPlan}
    {date : Instant}
    (hReaches : p.reaches date = true)
    (hRecord : p.index.record? date = none)
    (hShown :
      p.windows.any (·.hides p.event.audience date) = false) :
    p.visit date =
      if p.options.admits p.now date = true then
        .found <$> p.event.occurrenceAt date
      else
        .ok .left := by
  have hDate := withinHorizon_of_reaches hReaches
  have hBlocking :=
    HolidayWindow.blocking?_eq_none_iff.mpr hShown
  simp [visit, hDate, resolve_eq, hRecord, visitPlain,
    hBlocking]

theorem entry_of_shown
    {p : WalkPlan}
    {date : Instant}
    (hRecord : p.index.record? date = none)
    (hShown :
      p.windows.any (·.hides p.event.audience date) = false) :
    p.entry date = some <$> p.event.occurrenceAt date := by
  simp [entry, Event.occurrenceOn, hRecord, hShown]

/-
  A visit within the horizon either stays in range and finds
  what the walk keeps on the date, or an occurrence that is
  not left out for being past has times out of range.
-/
theorem visit_cases
    {p : WalkPlan}
    {date : Instant}
    (hReaches : p.reaches date = true) :
    ((∃ visit, p.visit date = .ok visit ∧
        visit.Finds (p.kept? date)) ∧
      (p.options.admits p.now date = true →
        ∃ found, p.entry date = .ok found)) ∨
    ((∃ range, p.visit date = .error range) ∧
      p.options.admits p.now date = true ∧
      ∃ range, p.entry date = .error range) := by
  cases hRecord : p.index.record? date with
  | some r =>
      left
      refine ⟨visit_of_recorded hReaches hRecord, ?_⟩
      intro _
      exact ⟨_, by rw [entry, hRecord]; rfl⟩
  | none =>
      cases hHidden :
          p.windows.any (·.hides p.event.audience date) with
      | true =>
          left
          refine ⟨visit_of_hidden hReaches hRecord hHidden, ?_⟩
          intro _
          refine ⟨none, ?_⟩
          simp [entry, Event.occurrenceOn, hRecord, hHidden]
      | false =>
          rw [visit_of_shown hReaches hRecord hHidden,
            kept?, occurrence?, entry_of_shown hRecord hHidden]
          by_cases hAdmits :
              p.options.admits p.now date = true
          · rw [if_pos hAdmits]
            cases hAt : p.event.occurrenceAt date with
            | error range =>
                right
                exact ⟨⟨range, rfl⟩, hAdmits, range, rfl⟩
            | ok occurrence =>
                have hStart :=
                  (Event.occurrenceAt_start hAt).1
                left
                refine ⟨⟨.found occurrence, rfl, by simp, ?_⟩,
                  fun _ => ⟨some occurrence, rfl⟩⟩
                simp [Visit.found?, Functor.map, Except.map,
                  Except.toOption, Option.filter, admits,
                  hStart, hAdmits]
          · rw [if_neg hAdmits]
            left
            refine ⟨⟨.left, rfl, by simp, ?_⟩,
              fun h => absurd h hAdmits⟩
            cases hAt : p.event.occurrenceAt date with
            | error range => rfl
            | ok occurrence =>
                have hStart :=
                  (Event.occurrenceAt_start hAt).1
                simp [Visit.found?, Functor.map, Except.map,
                  Except.toOption, Option.filter, admits,
                  hStart, hAdmits]

end WalkPlan

end EventSeries
