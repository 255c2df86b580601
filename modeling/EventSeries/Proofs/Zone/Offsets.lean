import EventSeries.Zone.Basic
import Mathlib.Data.List.Chain

/-
  The look-ups in the table of a zone.  In a table whose
  transitions are in order, the offset found for a wall time
  is in force at the instant that it leads to; and where the
  transitions are far apart, a wall time that the clocks skip
  is moved over the one change that skips it.

  Main declarations:
    * `Zone.offsets`
    * `Zone.Ordered`
    * `Zone.Spaced`
    * `Zone.OffsetsShort`
    * `OffsetChange`
    * `Zone.changes`
    * `Zone.offsetAt_of_offsetOfLocal?`
    * `Zone.exists_offsetOfLocal?_le`
    * `Zone.exists_change_of_skipped`
    * `Zone.offsets_of_skips`
    * `Zone.lt_offsetAt_of_skipped`
-/

namespace EventSeries

namespace Transition

/- One transition comes before another. -/
def Before
    (t next : Transition) : Prop :=
  t.second < next.second

instance
    (t next : Transition) :
    Decidable (t.Before next) :=
  inferInstanceAs (Decidable (t.second < next.second))

/- One transition comes two days before another, or more. -/
def DaysBefore
    (t next : Transition) : Prop :=
  t.second + (2 * secondsPerDay : Nat) ≤ next.second

instance
    (t next : Transition) :
    Decidable (t.DaysBefore next) :=
  inferInstanceAs
    (Decidable
      (t.second + (2 * secondsPerDay : Nat) ≤ next.second))

end Transition

/- From a second on, one offset takes the place of another. -/
structure OffsetChange where
  second : Int
  before : Int
  after : Int
  deriving DecidableEq, Repr

namespace OffsetChange

/- How far the clocks are set forward. -/
def length
    (c : OffsetChange) : Int :=
  c.after - c.before

/- The clocks are set forward over a wall time. -/
def Skips
    (c : OffsetChange)
    (wall : Int) : Prop :=
  c.second + c.before ≤ wall ∧ wall < c.second + c.after

instance
    (c : OffsetChange)
    (wall : Int) :
    Decidable (c.Skips wall) :=
  inferInstanceAs (Decidable (_ ∧ _))

end OffsetChange

namespace Zone

------------------------------------------------------------
-- Properties Of Tables
------------------------------------------------------------

/- The offsets that a zone has at one time or another. -/
def offsets
    (z : Zone) : List Int :=
  z.initialOffset :: z.transitions.map (·.offset)

/- The transitions of a zone come one after the other. -/
def Ordered
    (z : Zone) : Prop :=
  z.transitions.IsChain Transition.Before

instance
    (z : Zone) :
    Decidable z.Ordered :=
  inferInstanceAs (Decidable (z.transitions.IsChain _))

/- At least two days pass between two transitions. -/
def Spaced
    (z : Zone) : Prop :=
  z.transitions.IsChain Transition.DaysBefore

instance
    (z : Zone) :
    Decidable z.Spaced :=
  inferInstanceAs (Decidable (z.transitions.IsChain _))

/- All offsets are shorter than a day. -/
def OffsetsShort
    (z : Zone) : Prop :=
  ∀ offset ∈ z.offsets,
    -(secondsPerDay : Int) < offset ∧ offset < secondsPerDay

instance
    (z : Zone) :
    Decidable z.OffsetsShort :=
  inferInstanceAs (Decidable (∀ offset ∈ z.offsets, _))

/- The changes that some transitions make to an offset. -/
def changesFrom
    (offset : Int) :
    List Transition → List OffsetChange
  | [] => []
  | t :: later =>
      ⟨t.second, offset, t.offset⟩ :: changesFrom t.offset later

/- All changes of the offset of a zone. -/
def changes
    (z : Zone) : List OffsetChange :=
  changesFrom z.initialOffset z.transitions

theorem Spaced.ordered
    {z : Zone}
    (hSpaced : z.Spaced) :
    z.Ordered := by
  apply List.IsChain.imp _ hSpaced
  intro t next hApart
  simp only [Transition.DaysBefore, secondsPerDay] at hApart
  simp only [Transition.Before]
  omega

------------------------------------------------------------
-- Spans From One On
------------------------------------------------------------

section

variable {offset wall : Int}
variable {ts : List Transition}

theorem offsetFrom_mem
    (second : Int) :
    offsetFrom offset ts second ∈
      offset :: ts.map (·.offset) := by
  induction ts generalizing offset with
  | nil => exact List.mem_cons_self
  | cons t later ih =>
      rw [offsetFrom]
      split
      · exact List.mem_cons_self
      · exact List.mem_cons_of_mem offset ih

theorem mem_of_localOffsetFrom?
    {start : Option Int}
    {found : Int}
    (hFound :
      localOffsetFrom? start offset ts wall = some found) :
    found ∈ offset :: ts.map (·.offset) := by
  induction ts generalizing start offset with
  | nil =>
      rw [localOffsetFrom?] at hFound
      split at hFound
      · cases hFound
        exact List.mem_cons_self
      · cases hFound
  | cons t later ih =>
      rw [localOffsetFrom?] at hFound
      split at hFound
      · cases hFound
        exact List.mem_cons_self
      · exact List.mem_cons_of_mem offset (ih hFound)

/- The instant of a wall time lies in the spans looked at. -/
theorem start_le_of_localOffsetFrom?
    {start found : Int}
    (hOrdered : ts.IsChain Transition.Before)
    (hFirst : ∀ t ∈ ts.head?, start < t.second)
    (hFound :
      localOffsetFrom? (some start) offset ts wall =
        some found) :
    start ≤ wall - found := by
  induction ts generalizing start offset with
  | nil =>
      rw [localOffsetFrom?] at hFound
      split at hFound
      · cases hFound
        simp_all
      · cases hFound
  | cons t later ih =>
      rw [localOffsetFrom?] at hFound
      split at hFound
      · cases hFound
        simp_all
      · rcases List.isChain_cons.mp hOrdered with
          ⟨hNext, hLater⟩
        have hAfter := ih hLater hNext hFound
        have hBefore := hFirst t rfl
        exact Int.le_trans (Int.le_of_lt hBefore) hAfter

/- The offset found for a wall time is the one then. -/
theorem offsetFrom_of_localOffsetFrom?
    {start : Option Int}
    {found : Int}
    (hOrdered : ts.IsChain Transition.Before)
    (hFound :
      localOffsetFrom? start offset ts wall = some found) :
    offsetFrom offset ts (wall - found) = found := by
  induction ts generalizing start offset with
  | nil =>
      rw [localOffsetFrom?] at hFound
      split at hFound
      · cases hFound
        rfl
      · cases hFound
  | cons t later ih =>
      rw [localOffsetFrom?] at hFound
      rw [offsetFrom]
      split at hFound
      · cases hFound
        rw [if_pos (by tauto)]
      · rcases List.isChain_cons.mp hOrdered with
          ⟨hNext, hLater⟩
        have hAfter :=
          start_le_of_localOffsetFrom? hLater hNext hFound
        rw [if_neg (by omega)]
        exact ih hLater hFound

/- A wall time that a span ends before, and its rest skips. -/
theorem ended_of_skipped
    {start : Option Int}
    {t : Transition}
    {later : List Transition}
    (hBegun : ∀ s ∈ start, s + offset ≤ wall)
    (hSkipped :
      localOffsetFrom? start offset (t :: later) wall = none) :
    t.second + offset ≤ wall ∧
      localOffsetFrom? (some t.second) t.offset later wall =
        none := by
  have hHere : start.all (· ≤ wall - offset) = true := by
    rw [Option.all_eq_true]
    intro s hStart
    have hStarted := hBegun s hStart
    rw [decide_eq_true_eq]
    omega
  rw [localOffsetFrom?] at hSkipped
  by_cases hOpen : wall - offset < t.second
  · rw [if_pos ⟨hHere, hOpen⟩] at hSkipped
    cases hSkipped
  · rw [if_neg (fun hBoth => hOpen hBoth.2)] at hSkipped
    exact ⟨by omega, hSkipped⟩

theorem not_skipped_of_last
    {start : Option Int}
    (hBegun : ∀ s ∈ start, s + offset ≤ wall) :
    localOffsetFrom? start offset [] wall = some offset := by
  rw [localOffsetFrom?, if_pos]
  rw [Option.all_eq_true]
  intro s hStart
  have hStarted := hBegun s hStart
  rw [decide_eq_true_eq]
  omega

/- The first second to show a wall time comes no later. -/
theorem exists_localOffsetFrom?_le
    {start : Option Int}
    {second : Int}
    (hBegun : ∀ s ∈ start, s ≤ second)
    (hShown : second + offsetFrom offset ts second = wall) :
    ∃ found, localOffsetFrom? start offset ts wall = some found ∧
      wall - found ≤ second := by
  have hHere (hOpen : second + offset = wall) :
      start.all (· ≤ wall - offset) = true := by
    rw [Option.all_eq_true]
    intro s hStart
    have hStarted := hBegun s hStart
    rw [decide_eq_true_eq]
    omega
  induction ts generalizing start offset with
  | nil =>
      have hOpen : second + offset = wall := hShown
      exact ⟨offset, if_pos (hHere hOpen), by omega⟩
  | cons t later ih =>
      rw [offsetFrom] at hShown
      rw [localOffsetFrom?]
      by_cases hBefore : second < t.second
      · rw [if_pos hBefore] at hShown
        rw [if_pos ⟨hHere hShown, by omega⟩]
        exact ⟨offset, rfl, by omega⟩
      · rw [if_neg hBefore] at hShown
        split
        · exact ⟨offset, rfl, by omega⟩
        · have hBegunRest : ∀ s ∈ some t.second, s ≤ second := by
            intro s hStarted
            cases hStarted
            omega
          apply ih hBegunRest hShown
          intro hOpen
          simp only [Option.all_some, decide_eq_true_eq]
          omega

------------------------------------------------------------
-- Changes From One Span On
------------------------------------------------------------

/- A wall time that no span shows is skipped by a change. -/
theorem exists_changesFrom_of_skipped
    {start : Option Int}
    (hBegun : ∀ s ∈ start, s + offset ≤ wall)
    (hSkipped : localOffsetFrom? start offset ts wall = none) :
    ∃ c ∈ changesFrom offset ts, c.Skips wall := by
  induction ts generalizing start offset with
  | nil =>
      rw [not_skipped_of_last hBegun] at hSkipped
      cases hSkipped
  | cons t later ih =>
      rcases ended_of_skipped hBegun hSkipped with
        ⟨hEnded, hRest⟩
      by_cases hGap : wall < t.second + t.offset
      · exact ⟨_, List.mem_cons_self, hEnded, hGap⟩
      · have hBegunRest :
            ∀ s ∈ some t.second, s + t.offset ≤ wall := by
          intro s hStarted
          cases hStarted
          omega
        rcases ih hBegunRest hRest with ⟨c, hChange, hSkips⟩
        exact ⟨c, List.mem_cons_of_mem _ hChange, hSkips⟩

theorem offsetFrom_of_lt_head
    {second : Int}
    (hBefore : ∀ t ∈ ts.head?, second < t.second) :
    offsetFrom offset ts second = offset := by
  cases ts with
  | nil => rfl
  | cons t later => rw [offsetFrom, if_pos (hBefore t rfl)]

/- All changes after a transition come days after it. -/
theorem days_le_of_mem_changesFrom
    {t : Transition}
    {c : OffsetChange}
    (hSpaced : (t :: ts).IsChain Transition.DaysBefore)
    (hChange : c ∈ changesFrom offset ts) :
    t.second + (2 * secondsPerDay : Nat) ≤ c.second := by
  induction ts generalizing t offset with
  | nil => cases hChange
  | cons u later ih =>
      rw [List.isChain_cons_cons] at hSpaced
      have hNext : t.second + _ ≤ u.second := hSpaced.1
      rcases List.mem_cons.mp hChange with rfl | hLater
      · exact hNext
      · have hFar := ih hSpaced.2 hLater
        omega

/-
  Up to two days before a change its old offset is in force,
  and its new one for two days from then on.  The induction
  is on the transitions; the change is the first, or the days
  around it lie after the first.
-/
theorem offsetFrom_around_change
    {c : OffsetChange}
    {second : Int}
    (hSpaced : ts.IsChain Transition.DaysBefore)
    (hChange : c ∈ changesFrom offset ts)
    (hFrom : c.second - (2 * secondsPerDay : Nat) ≤ second)
    (hTo : second < c.second + (2 * secondsPerDay : Nat)) :
    offsetFrom offset ts second =
      if second < c.second then c.before else c.after := by
  induction ts generalizing offset with
  | nil => cases hChange
  | cons t later ih =>
      rw [offsetFrom]
      rcases List.mem_cons.mp hChange with rfl | hLater
      · simp only at hTo ⊢
        split
        · rfl
        · apply offsetFrom_of_lt_head
          intro u hHead
          have hFar : t.second + _ ≤ u.second :=
            (List.isChain_cons.mp hSpaced).1 u hHead
          omega
      · have hFar := days_le_of_mem_changesFrom hSpaced hLater
        rw [if_neg (by omega)]
        exact ih (List.isChain_cons.mp hSpaced).2 hLater

end

------------------------------------------------------------
-- Whole Tables
------------------------------------------------------------

variable {z : Zone}

theorem offsetAt_mem
    (second : Int) :
    z.offsetAt second ∈ z.offsets :=
  offsetFrom_mem second

theorem mem_of_offsetOfLocal?
    {wall offset : Int}
    (hFound : z.offsetOfLocal? wall = some offset) :
    offset ∈ z.offsets :=
  mem_of_localOffsetFrom? hFound

theorem offsetAt_of_offsetOfLocal?
    {wall offset : Int}
    (hOrdered : z.Ordered)
    (hFound : z.offsetOfLocal? wall = some offset) :
    z.offsetAt (wall - offset) = offset :=
  offsetFrom_of_localOffsetFrom? hOrdered hFound

/- A second that shows a wall time is no earlier than that. -/
theorem exists_offsetOfLocal?_le
    {second wall : Int}
    (hShown : second + z.offsetAt second = wall) :
    ∃ offset, z.offsetOfLocal? wall = some offset ∧
      wall - offset ≤ second :=
  exists_localOffsetFrom?_le (by simp) hShown

theorem exists_change_of_skipped
    {wall : Int}
    (hSkipped : z.offsetOfLocal? wall = none) :
    ∃ c ∈ z.changes, c.Skips wall :=
  exists_changesFrom_of_skipped (by simp) hSkipped

section

variable {c : OffsetChange}

variable (hSpaced : z.Spaced)
variable (hChange : c ∈ z.changes)

include hSpaced hChange

theorem offsetAt_before_change
    {second : Int}
    (hFrom : c.second - (2 * secondsPerDay : Nat) ≤ second)
    (hTo : second < c.second) :
    z.offsetAt second = c.before := by
  have hBefore :=
    offsetFrom_around_change hSpaced hChange hFrom (by omega)
  rwa [if_pos hTo] at hBefore

theorem offsetAt_after_change
    {second : Int}
    (hFrom : c.second ≤ second)
    (hTo : second < c.second + (2 * secondsPerDay : Nat)) :
    z.offsetAt second = c.after := by
  have hAfter :=
    offsetFrom_around_change hSpaced hChange (by omega) hTo
  rwa [if_neg (by omega)] at hAfter

/- A change takes place from one second to the next. -/
theorem offsetAt_change :
    z.offsetAt (c.second - 1) = c.before ∧
      z.offsetAt c.second = c.after := by
  constructor
  · exact offsetAt_before_change hSpaced hChange
      (by simp only [secondsPerDay]; omega) (by omega)
  · exact offsetAt_after_change hSpaced hChange
      (Int.le_refl _) (by simp only [secondsPerDay]; omega)

/- The offsets of a change are offsets of the zone. -/
theorem short_of_mem_changes
    (hShort : z.OffsetsShort) :
    (-(secondsPerDay : Int) < c.before ∧
        c.before < secondsPerDay) ∧
      -(secondsPerDay : Int) < c.after ∧
        c.after < secondsPerDay := by
  rcases offsetAt_change hSpaced hChange with
    ⟨hBefore, hAfter⟩
  rw [← hBefore, ← hAfter]
  exact ⟨hShort _ (offsetAt_mem _), hShort _ (offsetAt_mem _)⟩

/-
  A day before a wall time that a change skips its old offset
  is in force; and its new one when that leads to, also if it
  is read a second late.
-/
theorem offsets_of_skips
    {wall : Int}
    (hShort : z.OffsetsShort)
    (hSkips : c.Skips wall) :
    (∀ dayBefore,
      wall - secondsPerDay ≤ dayBefore →
        dayBefore ≤ wall - secondsPerDay + 1 →
          z.offsetAt dayBefore = c.before) ∧
    ∀ second,
      wall - c.before ≤ second →
        second ≤ wall - c.before + 1 →
          z.offsetAt second = c.after := by
  rcases short_of_mem_changes hSpaced hChange hShort with
    ⟨hOld, hNew⟩
  rcases hSkips with ⟨hEnded, hGap⟩
  constructor
  · intro dayBefore hFrom hTo
    exact offsetAt_before_change hSpaced hChange (by omega)
      (by omega)
  · intro second hFrom hTo
    exact offsetAt_after_change hSpaced hChange (by omega)
      (by omega)

end

/- A skipped wall time leads to an instant after its gap. -/
theorem lt_offsetAt_of_skipped
    {wall dayBefore second : Int}
    (hSpaced : z.Spaced)
    (hShort : z.OffsetsShort)
    (hSkipped : z.offsetOfLocal? wall = none)
    (hDay :
      wall - secondsPerDay ≤ dayBefore ∧
        dayBefore ≤ wall - secondsPerDay + 1)
    (hSecond :
      wall - z.offsetAt dayBefore ≤ second ∧
        second ≤ wall - z.offsetAt dayBefore + 1) :
    z.offsetAt dayBefore < z.offsetAt second := by
  rcases exists_change_of_skipped hSkipped with
    ⟨c, hChange, hSkips⟩
  rcases offsets_of_skips hSpaced hChange hShort hSkips with
    ⟨hBefore, hAfter⟩
  rw [hBefore dayBefore hDay.1 hDay.2] at hSecond ⊢
  rw [hAfter second hSecond.1 hSecond.2]
  rcases hSkips with ⟨hEnded, hGap⟩
  omega

end Zone

end EventSeries
