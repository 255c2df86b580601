import EventSeries.Proofs.Series.Pipeline

/-
  Walks over the same dates under other records.  What a walk
  finds on a date depends on the record of that date only, and
  so two walks agree that find the same on each date they may
  come to.

  Main declarations:
    * `WalkPlan.withIndex`
    * `WalkPlan.visit_withIndex`
    * `WalkPlan.kept?_withIndex`
    * `WalkPlan.walkFrom_congr_of_dates`
    * `WalkPlan.walk_withIndex`
-/

namespace EventSeries

namespace WalkPlan

------------------------------------------------------------
-- Plans With Other Records
------------------------------------------------------------

/- The plan with another index of records. -/
def withIndex
    (p : WalkPlan)
    (index : ExceptionIndex) : WalkPlan :=
  { p with index := index }

section

variable {p : WalkPlan}
variable {index : ExceptionIndex}

variable {date : Instant}
variable (hSame : index.record? date = p.index.record? date)
include hSame

/- A visit reads the record of its date and no other. -/
theorem visit_withIndex :
    (p.withIndex index).visit date = p.visit date := by
  simp only [visit, withIndex, resolve_eq, hSame]
  rfl

theorem reaches_withIndex :
    (p.withIndex index).reaches date = p.reaches date := by
  simp only [reaches, withIndex, hSame]

theorem entry_withIndex :
    (p.withIndex index).entry date = p.entry date := by
  simp only [entry, withIndex, hSame]

theorem kept?_withIndex :
    (p.withIndex index).kept? date = p.kept? date := by
  simp only [kept?, occurrence?, entry_withIndex hSame]
  rfl

end

/- The dates that are kept, if their records are the same. -/
theorem filterMap_kept?_withIndex
    {p : WalkPlan}
    {index : ExceptionIndex}
    {dates : List Instant}
    (hSame :
      ∀ date ∈ dates,
        index.record? date = p.index.record? date) :
    dates.filterMap (p.withIndex index).kept? =
      dates.filterMap p.kept? :=
  List.filterMap_congr fun date hMember =>
    kept?_withIndex (hSame date hMember)

------------------------------------------------------------
-- Walks That Find The Same
------------------------------------------------------------

/-
  Walks agree that step alike and find the same on each date
  that they may come to.  The induction is on the attempts.
-/
theorem walkFrom_congr_of_dates
    {p q : WalkPlan}
    (hId : p.event.id = q.event.id)
    (hCount : p.options.maxOccurrences = q.options.maxOccurrences)
    (hNext : p.next? = q.next?)
    (n : Nat)
    (first : Instant)
    (s : WalkState)
    (hVisit :
      ∀ date ∈ datesFrom p.later? n first,
        p.visit date = q.visit date) :
    p.walkFrom n first s = q.walkFrom n first s := by
  induction n generalizing first s with
  | zero => rfl
  | succ n ih =>
      rw [datesFrom] at hVisit
      rw [walkFrom, walkFrom, ← hVisit first List.mem_cons_self]
      cases p.visit first with
      | error range => rfl
      | ok visit =>
          simp only [hId, isFilled, hCount, ← hNext]
          cases hStep : p.next? first with
          | error range => rfl
          | ok next =>
              cases next with
              | none => rfl
              | some next =>
                  rw [later?_of_next? hStep] at hVisit
                  simp only
                  rw [ih next]
                  intro date hMember
                  exact hVisit date
                    (List.mem_cons_of_mem first hMember)

/- A walk reads the records of the dates that it may visit. -/
theorem walk_withIndex
    {p : WalkPlan}
    {index : ExceptionIndex}
    {first : Instant}
    (hSame :
      ∀ date ∈ datesFrom p.later? p.maxAttempts first,
        index.record? date = p.index.record? date) :
    (p.withIndex index).walk first = p.walk first :=
  walkFrom_congr_of_dates (p := p.withIndex index) (q := p) rfl
    rfl rfl p.maxAttempts first {} fun date hMember =>
      visit_withIndex (hSame date hMember)

end WalkPlan

end EventSeries
