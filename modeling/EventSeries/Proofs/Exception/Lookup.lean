import EventSeries.Exception.Index
import EventSeries.Proofs.Time.Order

/-
  Looking up a date in the index of a series finds the first
  record for that date, and the two searches by the start of
  an override find the earliest date that qualifies.

  Main declarations:
    * `ExceptionRecord.first?`
    * `ExceptionIndex.record?_ofList`
    * `ExceptionIndex.overrideStartOn?`
    * `ExceptionIndex.replacedStart?_getD_cases`
    * `ExceptionIndex.MovedPast`
    * `ExceptionIndex.movedPast?_getD_cases`
    * `ExceptionIndex.replacedStart?_congr`
    * `ExceptionIndex.movedPast?_congr`
-/

namespace EventSeries

------------------------------------------------------------
-- The First Record Of A Date
------------------------------------------------------------

/- The first of some records for a date of a series. -/
def ExceptionRecord.first?
    (records : List ExceptionRecord)
    (series : Id)
    (date : Instant) : Option ExceptionRecord :=
  records.find? fun r =>
    r.series == series && r.occurrenceStart == date

theorem ExceptionRecord.kind_of_activeOverride?
    {r : ExceptionRecord}
    {replacement : Event}
    (hActive : r.activeOverride? = some replacement) :
    r.kind = .replace := by
  unfold activeOverride? at hActive
  cases hKind : r.kind with
  | replace => rfl
  | skip => simp [hKind] at hActive
  | holiday => simp [hKind] at hActive

namespace ExceptionIndex

/- An added record is found unless its date had one before. -/
theorem record?_add
    (index : ExceptionIndex)
    (r : ExceptionRecord)
    (date : Instant) :
    (index.add r).record? date =
      (index.record? date).or
        ([r].find? (·.occurrenceStart == date)) := by
  unfold add
  split
  · rename_i hKnown
    by_cases hDate : r.occurrenceStart = date
    · subst hDate
      rcases Option.isSome_iff_exists.mp hKnown with ⟨old, hOld⟩
      rw [hOld]
      change index.record? r.occurrenceStart = some old
      exact hOld
    · have hMiss :
          [r].find? (·.occurrenceStart == date) = none := by
        simpa using hDate
      rw [hMiss, Option.or_none]
      rfl
  · simp only [record?, List.find?_append]

/- Adding records one by one keeps the first of each date. -/
theorem record?_foldl_add
    (index : ExceptionIndex)
    (records : List ExceptionRecord)
    (date : Instant) :
    (records.foldl add index).record? date =
      (index.record? date).or
        (records.find? (·.occurrenceStart == date)) := by
  induction records generalizing index with
  | nil => simp
  | cons r records ih =>
      rw [List.foldl_cons, ih, record?_add, Option.or_assoc,
        ← List.find?_append, List.singleton_append]

/- The index of a series finds the first record of a date. -/
theorem record?_ofList
    (series : Id)
    (records : List ExceptionRecord)
    (date : Instant) :
    (ofList series records).record? date =
      ExceptionRecord.first? records series date := by
  rw [ofList, record?_foldl_add, List.find?_filter]
  simp only [record?, List.find?_nil, Option.none_or,
    ExceptionRecord.first?, Bool.decide_and,
    Bool.decide_eq_true]

/- The record of a date is one of the given ones. -/
theorem mem_of_record?_ofList
    {series : Id}
    {records : List ExceptionRecord}
    {date : Instant}
    {r : ExceptionRecord}
    (hRecord : (ofList series records).record? date = some r) :
    r ∈ records ∧ r.series = series ∧
      r.occurrenceStart = date := by
  rw [record?_ofList, ExceptionRecord.first?] at hRecord
  have hMatches := List.find?_some hRecord
  simp only [Bool.and_eq_true, beq_iff_eq] at hMatches
  exact ⟨List.mem_of_find?_eq_some hRecord, hMatches⟩

/- The record of a date stays when others are added. -/
theorem record?_ofList_append
    {series : Id}
    {records : List ExceptionRecord}
    {date : Instant}
    {r : ExceptionRecord}
    (hRecord : (ofList series records).record? date = some r)
    (more : List ExceptionRecord) :
    (ofList series (records ++ more)).record? date =
      some r := by
  rw [record?_ofList, ExceptionRecord.first?] at hRecord ⊢
  rw [List.find?_append, hRecord, Option.some_or]

theorem record?_ofList_eq_none_iff
    {series : Id}
    {records : List ExceptionRecord}
    {date : Instant} :
    (ofList series records).record? date = none ↔
      ∀ r ∈ records, r.series = series →
        r.occurrenceStart ≠ date := by
  rw [record?_ofList, ExceptionRecord.first?,
    List.find?_eq_none]
  simp only [Bool.and_eq_true, beq_iff_eq, not_and, ne_eq]

------------------------------------------------------------
-- Records Of An Index
------------------------------------------------------------

/- Every record of the index is the one of its date. -/
def IsFirst
    (index : ExceptionIndex) : Prop :=
  ∀ r ∈ index.records, index.record? r.occurrenceStart = some r

theorem isFirst_add
    {index : ExceptionIndex}
    (hFirst : index.IsFirst)
    (r : ExceptionRecord) :
    (index.add r).IsFirst := by
  intro old hMember
  rw [record?_add]
  unfold add at hMember
  split at hMember
  · rw [hFirst old hMember, Option.some_or]
  · rename_i hNew
    rcases List.mem_append.mp hMember with hOld | hAdded
    · rw [hFirst old hOld, Option.some_or]
    · have hSame : old = r := by simpa using hAdded
      subst hSame
      have hNone : index.record? old.occurrenceStart = none := by
        simpa using hNew
      simp [hNone]

theorem isFirst_ofList
    (series : Id)
    (records : List ExceptionRecord) :
    (ofList series records).IsFirst := by
  have hFold :
      ∀ (rs : List ExceptionRecord) (index : ExceptionIndex),
        index.IsFirst → (rs.foldl add index).IsFirst := by
    intro rs
    induction rs with
    | nil => exact fun _ hFirst => hFirst
    | cons r rs ih =>
        intro index hFirst
        exact ih (index.add r) (isFirst_add hFirst r)
  apply hFold
  intro r hMember
  cases hMember

theorem record?_eq_some_iff
    {index : ExceptionIndex}
    (hFirst : index.IsFirst)
    {date : Instant}
    {r : ExceptionRecord} :
    index.record? date = some r ↔
      r ∈ index.records ∧ r.occurrenceStart = date := by
  constructor
  · intro hFound
    have hDate := List.find?_some hFound
    exact ⟨List.mem_of_find?_eq_some hFound, by simpa using hDate⟩
  · rintro ⟨hMember, rfl⟩
    exact hFirst r hMember

------------------------------------------------------------
-- Searches By The Start Of An Override
------------------------------------------------------------

/- Where the override on a date starts, if it says so. -/
def overrideStartOn?
    (index : ExceptionIndex)
    (date : Instant) : Option Instant :=
  (index.record? date).bind overrideStart?

theorem overrideStartOn?_eq_some_iff
    {index : ExceptionIndex}
    {date start : Instant} :
    index.overrideStartOn? date = some start ↔
      ∃ r replacement, index.record? date = some r ∧
        r.activeOverride? = some replacement ∧
          replacement.startsAt = some start := by
  simp only [overrideStartOn?, overrideStart?,
    Option.bind_eq_some_iff]
  constructor
  · rintro ⟨r, hRecord, replacement, hActive, hStart⟩
    exact ⟨r, replacement, hRecord, hActive, hStart⟩
  · rintro ⟨r, replacement, hRecord, hActive, hStart⟩
    exact ⟨r, hRecord, replacement, hActive, hStart⟩

/- An override in force stays so when records are added. -/
theorem overrideStartOn?_ofList_append
    {series : Id}
    {records : List ExceptionRecord}
    {date start : Instant}
    (hStart :
      (ofList series records).overrideStartOn? date =
        some start)
    (more : List ExceptionRecord) :
    (ofList series (records ++ more)).overrideStartOn? date =
      some start := by
  rcases overrideStartOn?_eq_some_iff.mp hStart with
    ⟨r, replacement, hRecord, hActive, hStarts⟩
  exact overrideStartOn?_eq_some_iff.mpr
    ⟨r, replacement, record?_ofList_append hRecord more,
      hActive, hStarts⟩

theorem mem_datesWhere_iff
    {index : ExceptionIndex}
    (hFirst : index.IsFirst)
    {ok : ExceptionRecord → Bool}
    {date : Instant} :
    date ∈ index.datesWhere ok ↔
      ∃ r, index.record? date = some r ∧ ok r = true := by
  simp only [datesWhere, List.mem_map, List.mem_filter,
    record?_eq_some_iff hFirst]
  constructor
  · rintro ⟨r, ⟨hMember, hOk⟩, hDate⟩
    exact ⟨r, ⟨hMember, hDate⟩, hOk⟩
  · rintro ⟨r, ⟨hMember, hDate⟩, hOk⟩
    exact ⟨r, ⟨hMember, hOk⟩, hDate⟩

theorem mem_replacedDates_iff
    {index : ExceptionIndex}
    (hFirst : index.IsFirst)
    {start date : Instant} :
    date ∈ index.datesWhere
        (fun r => overrideStart? r == some start) ↔
      index.overrideStartOn? date = some start := by
  rw [mem_datesWhere_iff hFirst, overrideStartOn?,
    Option.bind_eq_some_iff]
  simp

/- The date replaced by an override that starts then. -/
theorem replacedStart?_eq_some_iff
    {index : ExceptionIndex}
    (hFirst : index.IsFirst)
    {start date : Instant} :
    index.replacedStart? start = some date ↔
      index.overrideStartOn? date = some start ∧
        ∀ other, index.overrideStartOn? other = some start →
          date ≤ other := by
  rw [replacedStart?, Instant.earliest?_eq_some_iff,
    mem_replacedDates_iff hFirst]
  simp only [mem_replacedDates_iff hFirst]

theorem replacedStart?_eq_none_iff
    {index : ExceptionIndex}
    (hFirst : index.IsFirst)
    {start : Instant} :
    index.replacedStart? start = none ↔
      ∀ date, index.overrideStartOn? date ≠ some start := by
  rw [replacedStart?, Instant.earliest?_eq_none_iff,
    List.eq_nil_iff_forall_not_mem]
  simp only [mem_replacedDates_iff hFirst, ne_eq]

/-
  A start is mapped back to the earliest date whose override
  starts then, and to itself if there is none.
-/
theorem replacedStart?_getD_cases
    {index : ExceptionIndex}
    (hFirst : index.IsFirst)
    (start : Instant) :
    let date := (index.replacedStart? start).getD start
    (index.overrideStartOn? date = some start ∧
      ∀ other, index.overrideStartOn? other = some start →
        date ≤ other) ∨
    (date = start ∧
      ∀ other, index.overrideStartOn? other ≠ some start) := by
  intro date
  cases hReplaced : index.replacedStart? start with
  | some replaced =>
      left
      have hDate : date = replaced := by
        simp [date, hReplaced]
      rw [hDate]
      exact (replacedStart?_eq_some_iff hFirst).mp hReplaced
  | none =>
      right
      refine ⟨by simp [date, hReplaced], ?_⟩
      exact (replacedStart?_eq_none_iff hFirst).mp hReplaced

/- The override on an earlier date starts at `anchor` or later. -/
def MovedPast
    (index : ExceptionIndex)
    (anchor date : Instant) : Prop :=
  date < anchor ∧
    ∃ start, index.overrideStartOn? date = some start ∧
      anchor ≤ start

theorem mem_movedDates_iff
    {index : ExceptionIndex}
    (hFirst : index.IsFirst)
    {anchor date : Instant} :
    date ∈ index.datesWhere
        (fun r => decide (r.occurrenceStart < anchor) &&
          (overrideStart? r).any (anchor ≤ ·)) ↔
      index.MovedPast anchor date := by
  rw [mem_datesWhere_iff hFirst, MovedPast]
  simp only [overrideStartOn?, Option.bind_eq_some_iff,
    Bool.and_eq_true, decide_eq_true_eq,
    Option.any_eq_true]
  constructor
  · rintro ⟨r, hRecord, hBefore, start, hStart, hAfter⟩
    have hDate := ((record?_eq_some_iff hFirst).mp hRecord).2
    subst hDate
    exact ⟨hBefore, start, ⟨r, hRecord, hStart⟩, hAfter⟩
  · rintro ⟨hBefore, start, ⟨r, hRecord, hStart⟩, hAfter⟩
    have hDate := ((record?_eq_some_iff hFirst).mp hRecord).2
    subst hDate
    exact ⟨r, hRecord, hBefore, start, hStart, hAfter⟩

/- The earliest date whose override was moved past `anchor`. -/
theorem movedPast?_eq_some_iff
    {index : ExceptionIndex}
    (hFirst : index.IsFirst)
    {anchor date : Instant} :
    index.movedPast? anchor = some date ↔
      index.MovedPast anchor date ∧
        ∀ other, index.MovedPast anchor other →
          date ≤ other := by
  rw [movedPast?, Instant.earliest?_eq_some_iff,
    mem_movedDates_iff hFirst]
  simp only [mem_movedDates_iff hFirst]

theorem movedPast?_eq_none_iff
    {index : ExceptionIndex}
    (hFirst : index.IsFirst)
    {anchor : Instant} :
    index.movedPast? anchor = none ↔
      ∀ date, ¬ index.MovedPast anchor date := by
  rw [movedPast?, Instant.earliest?_eq_none_iff,
    List.eq_nil_iff_forall_not_mem]
  simp only [mem_movedDates_iff hFirst]

/-
  A date is pulled back to the earliest one whose override was
  moved past it, and not at all if there is none.
-/
theorem movedPast?_getD_cases
    {index : ExceptionIndex}
    (hFirst : index.IsFirst)
    (anchor : Instant) :
    let date := (index.movedPast? anchor).getD anchor
    (index.MovedPast anchor date ∨ date = anchor) ∧
      ∀ other, index.MovedPast anchor other →
        date ≤ other := by
  intro date
  cases hMoved : index.movedPast? anchor with
  | some moved =>
      have hDate : date = moved := by simp [date, hMoved]
      rw [hDate]
      rcases (movedPast?_eq_some_iff hFirst).mp hMoved with
        ⟨hPast, hLeast⟩
      exact ⟨Or.inl hPast, hLeast⟩
  | none =>
      refine ⟨Or.inr (by simp [date, hMoved]), ?_⟩
      intro other hOther
      exact absurd hOther
        ((movedPast?_eq_none_iff hFirst).mp hMoved other)

------------------------------------------------------------
-- Indexes With The Same Overrides
------------------------------------------------------------

section

variable {index other : ExceptionIndex}
variable (hFirst : index.IsFirst)
variable (hOtherFirst : other.IsFirst)
variable
  (hSame :
    ∀ date,
      other.overrideStartOn? date = index.overrideStartOn? date)
include hFirst hOtherFirst hSame

/-
  Of several dates whose overrides start together the earliest
  is found, in whatever order their records stand.
-/
theorem replacedStart?_congr :
    other.replacedStart? = index.replacedStart? := by
  funext start
  apply Option.ext
  intro date
  rw [replacedStart?_eq_some_iff hOtherFirst,
    replacedStart?_eq_some_iff hFirst]
  simp only [hSame]

theorem movedPast?_congr :
    other.movedPast? = index.movedPast? := by
  funext anchor
  apply Option.ext
  intro date
  rw [movedPast?_eq_some_iff hOtherFirst,
    movedPast?_eq_some_iff hFirst]
  simp only [MovedPast, hSame]

end

end ExceptionIndex

end EventSeries
