import EventSeries.Occurrence
import EventSeries.Proofs.Time.Order
import Mathlib.Data.List.Nodup

/-
  Sorting occurrences by their starts is stable, so that
  leaving some of them out may come before the sorting or
  after it, and one occurrence more finds its place among the
  others without moving any of them.

  Main declarations:
    * `pairwise_sortOccurrences`
    * `PartedAt`
    * `filter_sortOccurrences`
    * `sublist_sortOccurrences`
    * `sortOccurrences_append`
    * `InsertedByStart`
    * `insertedByStart_sortOccurrences`
-/

namespace EventSeries

------------------------------------------------------------
-- Sorted Occurrences
------------------------------------------------------------

/- One occurrence starts no later than another. -/
def startsBy
    (o other : Occurrence) : Bool :=
  decide (o.start ≤ other.start)

theorem startsBy_trans
    (a b c : Occurrence)
    (hAB : startsBy a b = true)
    (hBC : startsBy b c = true) :
    startsBy a c = true := by
  simp only [startsBy, decide_eq_true_eq] at hAB hBC ⊢
  exact Std.le_trans hAB hBC

theorem startsBy_total
    (a b : Occurrence) :
    (startsBy a b || startsBy b a) = true := by
  simp only [startsBy, Bool.or_eq_true, decide_eq_true_eq]
  exact Std.le_total

theorem pairwise_sortOccurrences
    (os : List Occurrence) :
    (sortOccurrences os).Pairwise (·.start ≤ ·.start) := by
  have hSorted :=
    List.pairwise_mergeSort startsBy_trans startsBy_total os
  exact hSorted.imp of_decide_eq_true

/- Occurrences in order of start are sorted. -/
theorem sortOccurrences_of_pairwise
    {os : List Occurrence}
    (hOrdered : os.Pairwise (·.start ≤ ·.start)) :
    sortOccurrences os = os :=
  List.mergeSort_of_pairwise
    (hOrdered.imp fun hLe => decide_eq_true hLe)

/- Occurrences that start before an instant, and others. -/
structure PartedAt
    (start : Instant)
    (before after : List Occurrence) : Prop where
  before : ∀ b ∈ before, b.start < start
  after : ∀ a ∈ after, start ≤ a.start

section

variable {start : Instant}
variable {before after early late : List Occurrence}

theorem PartedAt.filter
    (hParted : PartedAt start before after)
    (keep : Occurrence → Bool) :
    PartedAt start (before.filter keep) (after.filter keep) where
  before b hMember :=
    hParted.before b (List.mem_of_mem_filter hMember)
  after a hMember :=
    hParted.after a (List.mem_of_mem_filter hMember)

/- The order of starts finds each of the two parts. -/
theorem PartedAt.filter_append
    (hParted : PartedAt start before after) :
    (before ++ after).filter (decide <| ·.start < start) =
        before ∧
      (before ++ after).filter (decide <| start ≤ ·.start) =
        after := by
  have hBefore (b : Occurrence) (hMember : b ∈ before) :
      b.start < start ∧ ¬ start ≤ b.start := by
    have hLess := hParted.before b hMember
    grind
  have hAfter (a : Occurrence) (hMember : a ∈ after) :
      start ≤ a.start ∧ ¬ a.start < start := by
    have hLe := hParted.after a hMember
    grind
  rw [List.filter_append, List.filter_append]
  constructor
  · rw [List.filter_eq_self.mpr fun b hMember =>
        decide_eq_true (hBefore b hMember).1,
      List.filter_eq_nil_iff.mpr fun a hMember => by
        simpa using (hAfter a hMember).2,
      List.append_nil]
  · rw [List.filter_eq_nil_iff.mpr fun b hMember => by
        simpa using (hBefore b hMember).2,
      List.filter_eq_self.mpr fun a hMember =>
        decide_eq_true (hAfter a hMember).1,
      List.nil_append]

theorem PartedAt.sublists
    (hParted : PartedAt start before after)
    (hOther : PartedAt start early late)
    (hSub : (before ++ after).Sublist (early ++ late)) :
    before.Sublist early ∧ after.Sublist late := by
  have hEarly := hSub.filter (decide <| ·.start < start)
  have hLate := hSub.filter (decide <| start ≤ ·.start)
  rw [hParted.filter_append.1, hOther.filter_append.1] at hEarly
  rw [hParted.filter_append.2, hOther.filter_append.2] at hLate
  exact ⟨hEarly, hLate⟩

/- There is one way to part a list. -/
theorem PartedAt.unique
    (hParted : PartedAt start before after)
    (hOther : PartedAt start early late)
    (hSame : before ++ after = early ++ late) :
    before = early ∧ after = late := by
  have hEarly := hOther.filter_append.1
  have hLate := hOther.filter_append.2
  rw [← hSame, hParted.filter_append.1] at hEarly
  rw [← hSame, hParted.filter_append.2] at hLate
  exact ⟨hEarly, hLate⟩

end

/- A new first occurrence goes before those of its start. -/
theorem sortOccurrences_cons
    (o : Occurrence)
    (os : List Occurrence) :
    ∃ before after, PartedAt o.start before after ∧
      sortOccurrences (o :: os) = before ++ o :: after ∧
      sortOccurrences os = before ++ after := by
  rcases
      List.mergeSort_cons startsBy_trans startsBy_total o os with
    ⟨before, after, hCons, hRest, hBefore⟩
  change sortOccurrences (o :: os) = before ++ o :: after
    at hCons
  have hSorted := pairwise_sortOccurrences (o :: os)
  rw [hCons, List.pairwise_append, List.pairwise_cons]
    at hSorted
  refine ⟨before, after, ⟨?_, hSorted.2.1.1⟩, hCons, hRest⟩
  intro b hMember
  have hNotBy := hBefore b hMember
  simp only [startsBy, Bool.not_eq_true',
    decide_eq_false_iff_not] at hNotBy
  grind

------------------------------------------------------------
-- Parts Of Sorted Lists
------------------------------------------------------------

/-
  Leaving out occurrences commutes with sorting.  The first
  occurrence of a list, if it is kept, stands before and after
  the leaving out between those that start earlier and those
  that do not.
-/
theorem filter_sortOccurrences
    (keep : Occurrence → Bool)
    (os : List Occurrence) :
    (sortOccurrences os).filter keep =
      sortOccurrences (os.filter keep) := by
  induction os with
  | nil => simp [sortOccurrences]
  | cons o os ih =>
      rcases sortOccurrences_cons o os with
        ⟨before, after, hParted, hCons, hRest⟩
      rw [hRest, List.filter_append] at ih
      rw [hCons, List.filter_append]
      cases hKeep : keep o with
      | false =>
          rw [List.filter_cons_of_neg (by simp [hKeep]),
            List.filter_cons_of_neg (by simp [hKeep]), ih]
      | true =>
          rw [List.filter_cons_of_pos hKeep,
            List.filter_cons_of_pos hKeep]
          rcases sortOccurrences_cons o (os.filter keep) with
            ⟨early, late, hOther, hKept, hOthers⟩
          have hParts :=
            (hParted.filter keep).unique hOther
              (ih.trans hOthers)
          rw [hKept, hParts.1, hParts.2]

/- Some of the occurrences are sorted as among all of them. -/
theorem sublist_sortOccurrences
    {os more : List Occurrence}
    (hSub : os.Sublist more) :
    (sortOccurrences os).Sublist (sortOccurrences more) := by
  induction hSub with
  | slnil => exact List.Sublist.refl _
  | @cons os more o _ ih =>
      rcases sortOccurrences_cons o more with
        ⟨before, after, _, hCons, hRest⟩
      rw [hCons]
      rw [hRest] at ih
      exact ih.trans
        ((List.Sublist.refl before).append
          (List.sublist_cons_self o after))
  | @cons_cons os more o _ ih =>
      rcases sortOccurrences_cons o os with
        ⟨before, after, hParted, hCons, hRest⟩
      rcases sortOccurrences_cons o more with
        ⟨early, late, hOther, hMore, hOthers⟩
      rw [hRest, hOthers] at ih
      rw [hCons, hMore]
      have hParts := hParted.sublists hOther ih
      exact hParts.1.append (hParts.2.cons_cons o)

/- Occurrences that start before others are sorted apart. -/
theorem sortOccurrences_append
    {os later : List Occurrence}
    (hLe : ∀ x ∈ os, ∀ y ∈ later, x.start ≤ y.start) :
    sortOccurrences (os ++ later) =
      sortOccurrences os ++ sortOccurrences later := by
  induction os with
  | nil => simp [sortOccurrences]
  | cons o os ih =>
      rcases sortOccurrences_cons o (os ++ later) with
        ⟨before, after, hParted, hCons, hRest⟩
      rcases sortOccurrences_cons o os with
        ⟨early, late, hOther, hFirst, hOthers⟩
      have hAll :
          PartedAt o.start early
            (late ++ sortOccurrences later) := by
        refine ⟨hOther.before, ?_⟩
        intro x hMember
        rcases List.mem_append.mp hMember with hLate | hLater
        · exact hOther.after x hLate
        · exact hLe o List.mem_cons_self x
            (List.mem_mergeSort.mp hLater)
      have hParts :=
        hParted.unique hAll (by
          rw [← hRest, ih fun x hMember =>
            hLe x (List.mem_cons_of_mem o hMember), hOthers,
            List.append_assoc])
      rw [List.cons_append, hCons, hFirst, hParts.1, hParts.2,
        List.append_assoc, List.cons_append]

------------------------------------------------------------
-- One Occurrence More
------------------------------------------------------------

/-
  A list with one occurrence more, which stands behind none
  that starts later and before none that starts earlier.
-/
def InsertedByStart
    (o : Occurrence)
    (os more : List Occurrence) : Prop :=
  ∃ before after,
    os = before ++ after ∧
    more = before ++ o :: after ∧
    (∀ b ∈ before, b.start ≤ o.start) ∧
    ∀ a ∈ after, o.start ≤ a.start

/-
  An occurrence put anywhere among others that differ from it
  is inserted by its start into what they are when sorted.
-/
theorem insertedByStart_sortOccurrences
    {o : Occurrence}
    {earlier later : List Occurrence}
    (hEarlier : o ∉ earlier)
    (hLater : o ∉ later) :
    InsertedByStart o (sortOccurrences (earlier ++ later))
      (sortOccurrences (earlier ++ o :: later)) := by
  have hOthers (os : List Occurrence) (hNone : o ∉ os) :
      os.filter (· ≠ o) = os := by
    apply List.filter_eq_self.mpr
    intro other hMember
    rw [decide_eq_true_eq]
    rintro rfl
    exact hNone hMember
  have hMember : o ∈ sortOccurrences (earlier ++ o :: later) := by
    rw [sortOccurrences, List.mem_mergeSort]
    simp
  rcases List.append_of_mem hMember with ⟨before, after, hSorted⟩
  have hOnce :
      (sortOccurrences (earlier ++ o :: later)).count o = 1 := by
    rw [sortOccurrences, (List.mergeSort_perm _ _).count_eq,
      List.count_append, List.count_cons_self,
      List.count_eq_zero.mpr hEarlier,
      List.count_eq_zero.mpr hLater]
  rw [hSorted, List.count_append, List.count_cons_self] at hOnce
  have hBefore : o ∉ before := List.count_eq_zero.mp (by omega)
  have hAfter : o ∉ after := List.count_eq_zero.mp (by omega)
  have hOrder := pairwise_sortOccurrences (earlier ++ o :: later)
  rw [hSorted, List.pairwise_append, List.pairwise_cons] at hOrder
  refine ⟨before, after, ?_, hSorted, ?_, hOrder.2.1.1⟩
  · have hRest := filter_sortOccurrences (· ≠ o)
      (earlier ++ o :: later)
    rw [hSorted, List.filter_append, List.filter_append,
      List.filter_cons_of_neg (by simp),
      List.filter_cons_of_neg (by simp), hOthers _ hBefore,
      hOthers _ hAfter, hOthers _ hEarlier, hOthers _ hLater]
      at hRest
    exact hRest.symm
  · intro b hMember
    exact hOrder.2.2 b hMember o List.mem_cons_self

end EventSeries
