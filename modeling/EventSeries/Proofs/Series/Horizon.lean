import EventSeries.Proofs.Series.Fewer
import EventSeries.Proofs.Series.Suppressed

/-
  Series of one event that differ in their horizons.  With the
  nearer one the walk goes over the first of the same dates,
  so that its series shows the first dates of the other, in
  the same order and with the same times.  What it leaves out
  is on dates from the first one on that it does not reach,
  and without overrides these are the dates past the horizon.

  Main declarations:
    * `NoLater`
    * `WalkPlan.reached_upTo`
    * `WalkPlan.exists_walk_of_nearer`
    * `Generator.series_of_nearer`
-/

namespace EventSeries

------------------------------------------------------------
-- Horizons
------------------------------------------------------------

/- The options with another horizon, or without one. -/
def SeriesOptions.upTo
    (o : SeriesOptions)
    (horizonEnd : Option Instant) : SeriesOptions :=
  { o with horizonEnd := horizonEnd }

/- A horizon that ends no later; one that is missing never ends. -/
def NoLater : Option Instant → Option Instant → Prop
  | _, none => True
  | some near, some far => near ≤ far
  | none, some _ => False

instance
    (near far : Option Instant) :
    Decidable (NoLater near far) := by
  unfold NoLater
  split <;> infer_instance

namespace SeriesOptions

variable {o : SeriesOptions}
variable {near far : Option Instant}

theorem withinHorizon_of_noLater
    {start : Instant}
    (hLe : NoLater near far)
    (hNear : (o.upTo near).withinHorizon start = true) :
    (o.upTo far).withinHorizon start = true := by
  cases far with
  | none => rfl
  | some last =>
      cases near with
      | none => cases hLe
      | some first =>
          change decide (start ≤ first) = true at hNear
          change decide (start ≤ last) = true
          rw [decide_eq_true_eq] at hNear ⊢
          exact Std.le_trans hNear hLe

theorem reaches_of_noLater
    {record : Option ExceptionRecord}
    {date : Instant}
    (hLe : NoLater near far)
    (hNear : (o.upTo near).reaches record date = true) :
    (o.upTo far).reaches record date = true := by
  rw [reaches, Bool.and_eq_true, Option.all_eq_true]
    at hNear ⊢
  refine ⟨withinHorizon_of_noLater hLe hNear.1, ?_⟩
  intro start hStart
  exact withinHorizon_of_noLater hLe (hNear.2 start hStart)

/- What is kept up to the nearer horizon is kept up to both. -/
theorem keeps_of_noLater
    (hLe : NoLater near far)
    (now start : Instant) :
    (o.upTo near).keeps now start =
      ((o.upTo near).withinHorizon start &&
        (o.upTo far).keeps now start) := by
  rw [keeps, keeps]
  cases hNear : (o.upTo near).withinHorizon start with
  | false => rfl
  | true =>
      rw [withinHorizon_of_noLater hLe hNear]
      rfl

end SeriesOptions

------------------------------------------------------------
-- Cutting Lists
------------------------------------------------------------

theorem takeWhile_takeWhile_of_imp
    {α : Type}
    {keep other : α → Bool}
    (hImp : ∀ x, keep x = true → other x = true)
    (xs : List α) :
    (xs.takeWhile other).takeWhile keep =
      xs.takeWhile keep := by
  have hBoth :
      (fun x => decide (keep x = true ∧ other x = true)) =
        keep := by
    funext x
    rw [Bool.eq_iff_iff, decide_eq_true_eq,
      and_iff_left_of_imp (hImp x)]
  rw [List.takeWhile_takeWhile, hBoth]

/- Behind a cut all is as late as what is cut off first. -/
theorem exists_cut_of_mem_dropWhile
    {dates : List Instant}
    {date : Instant}
    {keep : Instant → Bool}
    (hOrdered : dates.Pairwise (· < ·))
    (hMember : date ∈ dates.dropWhile keep) :
    ∃ cut, keep cut = false ∧ cut ≤ date := by
  induction dates with
  | nil => cases hMember
  | cons first dates ih =>
      rw [List.pairwise_cons] at hOrdered
      cases hKeep : keep first with
      | true =>
          rw [List.dropWhile_cons_of_pos hKeep] at hMember
          exact ih hOrdered.2 hMember
      | false =>
          refine ⟨first, hKeep, ?_⟩
          rw [List.dropWhile_cons_of_neg (by simp [hKeep])]
            at hMember
          rcases List.mem_cons.mp hMember with rfl | hLater
          · exact Std.le_refl date
          · exact Std.le_of_lt (hOrdered.1 date hLater)

section

variable {α : Type}
variable {keep : α → Bool}
variable {xs : List α}

/- Once something is not kept, nothing behind it is. -/
variable (hCut : xs.Pairwise fun x y => keep y = true → keep x = true)

include hCut

theorem filter_eq_nil_of_cut
    {x : α}
    {rest : List α}
    (hSplit : xs = x :: rest)
    (hDropped : keep x = false) :
    rest.filter keep = [] := by
  subst hSplit
  apply List.filter_eq_nil_iff.mpr
  intro y hMember hKeep
  have hFirst := (List.pairwise_cons.mp hCut).1 y hMember hKeep
  rw [hDropped] at hFirst
  cases hFirst

/- The first of what is kept is what is kept of the first. -/
theorem take_filter_of_cut
    (n : Nat) :
    (xs.filter keep).take n = (xs.take n).filter keep := by
  induction xs generalizing n with
  | nil => rw [List.filter_nil, List.take_nil, List.filter_nil]
  | cons x xs ih =>
      cases n with
      | zero => rfl
      | succ n =>
          rw [List.take_succ_cons]
          have hRest := ih (List.pairwise_cons.mp hCut).2 n
          cases hKeep : keep x with
          | true =>
              rw [List.filter_cons_of_pos hKeep,
                List.filter_cons_of_pos hKeep,
                List.take_succ_cons, hRest]
          | false =>
              have hNone := filter_eq_nil_of_cut hCut rfl hKeep
              rw [hNone, List.take_nil] at hRest
              rw [List.filter_cons_of_neg (by simp [hKeep]),
                List.filter_cons_of_neg (by simp [hKeep]), hNone,
                List.take_nil, ← hRest]

/- What is kept stands before all the rest. -/
theorem filter_append_filter_of_cut :
    xs.filter keep ++ xs.filter (!keep ·) = xs := by
  induction xs with
  | nil => rfl
  | cons x xs ih =>
      have hRest := ih (List.pairwise_cons.mp hCut).2
      cases hKeep : keep x with
      | true =>
          rw [List.filter_cons_of_pos hKeep,
            List.filter_cons_of_neg (by simp [hKeep]),
            List.cons_append, hRest]
      | false =>
          have hNone := filter_eq_nil_of_cut hCut rfl hKeep
          rw [hNone, List.nil_append] at hRest
          rw [List.filter_cons_of_neg (by simp [hKeep]),
            List.filter_cons_of_pos (by simp [hKeep]), hNone,
            List.nil_append, hRest]

end

/- Plain occurrences, cut off where some are not kept. -/
theorem showsFirst_filter
    {more : List Occurrence}
    {keep : Occurrence → Bool}
    (hOrdered : more.Pairwise (·.start ≤ ·.start))
    (hPlain : ∀ x ∈ more, x.slot = x.start)
    (hCut :
      more.Pairwise fun x y => keep y = true → keep x = true) :
    ShowsFirst (more.filter keep) (more.filter (!keep ·))
      more := by
  have hSplit := filter_append_filter_of_cut hCut
  have hPrefix : more.filter keep <+: more :=
    ⟨more.filter (!keep ·), hSplit⟩
  have hFirst :=
    showsFirst_take hOrdered hPlain (more.filter keep).length
  have hRest :=
    congrArg (List.drop (more.filter keep).length) hSplit
  rw [List.drop_left] at hRest
  rw [← List.prefix_iff_eq_take.mp hPrefix, ← hRest] at hFirst
  exact hFirst

/- The first dates are told apart by what is kept. -/
theorem ShowsFirst.eq_filter
    {fewer added more : List Occurrence}
    {keep : Occurrence → Bool}
    (hFirst : ShowsFirst fewer added more)
    (hKept : ∀ x ∈ fewer, keep x = true)
    (hDropped : ∀ y ∈ added, keep y = false) :
    fewer = more.filter keep := by
  have hSub := hFirst.sublist.filter keep
  have hPerm := hFirst.perm.filter keep
  have hNone : added.filter keep = [] := by
    apply List.filter_eq_nil_iff.mpr
    intro y hMember
    rw [hDropped y hMember]
    exact Bool.false_ne_true
  rw [List.filter_append, hNone, List.append_nil] at hPerm
  rw [List.filter_eq_self.mpr hKept] at hSub hPerm
  exact hSub.eq_of_length hPerm.length_eq.symm

------------------------------------------------------------
-- Walks
------------------------------------------------------------

namespace WalkPlan

variable {p : WalkPlan}
variable {near far : Option Instant}
variable {anchor : Instant}
variable {os : List Occurrence}

/- The plan with another horizon, or without one. -/
def upTo
    (p : WalkPlan)
    (horizonEnd : Option Instant) : WalkPlan :=
  { p with options := p.options.upTo horizonEnd }

/- With the nearer horizon the same dates are cut off earlier. -/
theorem reached_upTo
    (hLe : NoLater near far)
    (n : Nat)
    (date : Instant) :
    ((p.upTo far).reached n date).takeWhile (p.upTo near).reaches =
      (p.upTo near).reached n date :=
  takeWhile_takeWhile_of_imp
    (fun _ hNear => SeriesOptions.reaches_of_noLater hLe hNear) _

/-
  The walk up to the nearer horizon does no arithmetic that
  the other one has not done.  What it does not show is on
  dates from one on that it does not reach.
-/
theorem exists_walk_of_nearer
    (hLe : NoLater near far)
    (hWanted : 0 < p.options.maxOccurrences)
    (hFar : ((p.upTo far).walk anchor).occurrences = .ok os) :
    ∃ shown added,
      ((p.upTo near).walk anchor).occurrences = .ok shown ∧
      ShowsFirst shown added os ∧
      ∀ y ∈ added, ∃ date cut,
        (p.upTo near).kept? date = some y ∧
          (p.upTo near).reaches cut = false ∧ cut ≤ date := by
  rcases
      (walk_occurrences_eq_ok_iff (p := p.upTo far) hWanted).mp
        hFar with
    ⟨hRange, hSorted⟩
  have hOrdered :
      ((p.upTo far).reached p.maxAttempts anchor).Pairwise
        (· < ·) :=
    (pairwise_datesFrom (lt_of_later? (p := p)) _ _).sublist
      (List.takeWhile_sublist _)
  have hSlots :=
    Generator.pairwise_slots (p.upTo far) p.maxAttempts
      p.options.maxOccurrences anchor
  have hCut :=
    reached_upTo (p := p) hLe p.maxAttempts anchor
  change StaysInRange _ _
    ((p.upTo far).reached p.maxAttempts anchor) at hRange
  change sortOccurrences
    ((((p.upTo far).reached p.maxAttempts anchor).filterMap
      p.kept?).take p.options.maxOccurrences) = os at hSorted
  change ((((p.upTo far).reached p.maxAttempts anchor).filterMap
    p.kept?).take p.options.maxOccurrences).Pairwise _ at hSlots
  generalize (p.upTo far).reached p.maxAttempts anchor = dates
    at hRange hSorted hOrdered hSlots hCut
  have hSplit :=
    List.takeWhile_append_dropWhile
      (p := (p.upTo near).reaches) (l := dates)
  rw [hCut] at hSplit
  rw [← hSplit, staysInRange_append_iff] at hRange
  rw [← hSplit, List.filterMap_append, List.take_append]
    at hSorted hSlots
  have hNear : (p.upTo near).StaysInRange p.options.maxOccurrences
      ((p.upTo near).reached p.maxAttempts anchor) :=
    ⟨hRange.1.entry, hRange.1.step⟩
  have hFirst :=
    showsFirst_of_append fun x hMember y hOther =>
      Std.le_of_lt
        ((List.pairwise_append.mp hSlots).2.2 x hMember y hOther)
  rw [hSorted] at hFirst
  refine ⟨_, _,
    (walk_occurrences_eq_ok_iff (p := p.upTo near) hWanted).mpr
      ⟨hNear, rfl⟩, hFirst, ?_⟩
  intro y hMember
  rcases List.mem_filterMap.mp (List.mem_of_mem_take hMember)
    with ⟨date, hDate, hKept⟩
  rcases exists_cut_of_mem_dropWhile hOrdered hDate with
    ⟨cut, hUnreached, hBefore⟩
  exact ⟨date, cut, hKept, hUnreached, hBefore⟩

end WalkPlan

------------------------------------------------------------
-- Series
------------------------------------------------------------

/- Without overrides all dates from an unreached one are past. -/
theorem Event.OnlySuppressed.beyond_of_unreached
    {e : Event}
    {records : List ExceptionRecord}
    {p : WalkPlan}
    {date cut : Instant}
    {x : Occurrence}
    (hSuppressed : e.OnlySuppressed records)
    (hIndex : p.index = .ofList e.id records)
    (hKept : p.kept? date = some x)
    (hCut : p.reaches cut = false)
    (hLe : cut ≤ date) :
    p.options.withinHorizon x.start = false := by
  have hOn := (WalkPlan.kept?_eq_some_iff.mp hKept).1
  rw [hSuppressed.start_eq hIndex hOn]
  rw [hSuppressed.reaches_eq hIndex] at hCut
  cases hWithin : p.options.withinHorizon date with
  | false => rfl
  | true =>
      rw [SeriesOptions.withinHorizon_of_le hLe hWithin] at hCut
      cases hCut

namespace Generator

variable {g : Generator}
variable {e : Event}
variable {records : List ExceptionRecord}
variable {windows : List HolidayWindow}
variable {o : SeriesOptions}
variable {near far : Option Instant}
variable {os : List Occurrence}

/- The occurrences that start no later than the horizon. -/
def startingWithin
    (o : SeriesOptions)
    (os : List Occurrence) : List Occurrence :=
  os.filter fun x => o.withinHorizon x.start

theorem keptDates_of_nearer
    {dates : List Instant}
    (hLe : NoLater near far)
    (hOrdered : dates.Pairwise (· ≤ ·)) :
    g.keptDates (o.upTo near) dates =
      (g.keptDates (o.upTo far) dates).filter
        (o.upTo near).withinHorizon := by
  have hKept :
      dates.filter ((o.upTo near).keeps g.now) =
        (dates.filter ((o.upTo far).keeps g.now)).filter
          (o.upTo near).withinHorizon := by
    rw [List.filter_filter]
    congr 1
    funext start
    exact SeriesOptions.keeps_of_noLater hLe g.now start
  rw [keptDates, keptDates, hKept]
  apply take_filter_of_cut
  exact (hOrdered.filter _).imp SeriesOptions.withinHorizon_of_le

section

variable (hLe : NoLater near far)
variable (hWanted : 0 < o.maxOccurrences)
variable (hFar :
  g.series e records windows (o.upTo far) = .ok os)

include hLe hWanted hFar

theorem series_of_nearer_manual
    {first : Instant}
    {rest : List Instant}
    (hManual :
      (e.manualDates g.zone).value = .ok (first :: rest)) :
    g.series e records windows (o.upTo near) =
      .ok (startingWithin (o.upTo near) os) := by
  have hStarts :=
    starts_of_manual (o := o.upTo far) hManual hWanted hFar
  rw [series_of_manual (o := o.upTo near) hManual hWanted,
    mapM_eq_ok_iff,
    keptDates_of_nearer hLe (pairwise_of_manualDates hManual),
    ← hStarts, List.filter_map, List.map_map]
  apply List.map_congr_left
  intro x hMember
  rcases exists_keptDate_of_manual (o := o.upTo far) hManual
      hWanted hFar (List.mem_of_mem_filter hMember) with
    ⟨date, _, hAt⟩
  rw [Function.comp_apply, (Event.occurrenceAt_start hAt).1]
  exact hAt

theorem series_of_nearer_single
    {start : Instant}
    (hSingle : e.isRecurring = false)
    (hManual : (e.manualDates g.zone).value = .ok [])
    (hStart : e.startsAt = some start) :
    (∀ x ∈ os, x.isOverride = false) ∧
      g.series e records windows (o.upTo near) =
        .ok (startingWithin (o.upTo near) os) := by
  rw [series_of_single (o := o.upTo far) hSingle hManual hStart
    hWanted] at hFar
  rw [series_of_single (o := o.upTo near) hSingle hManual hStart
    hWanted]
  unfold singleSeries at hFar ⊢
  cases hAt : e.occurrenceAt start with
  | error range =>
      rw [hAt] at hFar
      cases hFar
  | ok x =>
      rcases Event.occurrenceAt_start hAt with ⟨rfl, hPlain⟩
      simp only [hAt, bind, Except.bind, pure, Except.pure,
        Except.ok.injEq] at hFar ⊢
      rw [SeriesOptions.keeps_of_noLater hLe, ← hFar]
      cases (o.upTo far).keeps g.now x.start with
      | false => simp [startingWithin]
      | true =>
          refine ⟨by simpa using hPlain, ?_⟩
          cases hNear : (o.upTo near).withinHorizon x.start with
          | false => simp [startingWithin, hNear]
          | true => simp [startingWithin, hNear]

end

section

variable (hLe : NoLater near far)
variable (hFar :
  g.series e records windows (o.upTo far) = .ok os)

include hFar

/- Of plain occurrences those within the horizon are listed. -/
theorem exists_nearer_of_plain
    (hPlain : ∀ x ∈ os, x.isOverride = false)
    (hNear :
      g.series e records windows (o.upTo near) =
        .ok (startingWithin (o.upTo near) os)) :
    ∃ shown added,
      g.series e records windows (o.upTo near) = .ok shown ∧
      ShowsFirst shown added os ∧
      ∀ y ∈ added,
        (o.upTo near).withinHorizon y.start = false := by
  have hLists := lists_of_series hFar
  have hSlots (x : Occurrence) (hMember : x ∈ os) :
      x.slot = x.start :=
    (hLists.each x hMember).slot_eq_start (hPlain x hMember)
  have hFirst :=
    showsFirst_filter hLists.ordered hSlots
      (hLists.ordered.imp
        (SeriesOptions.withinHorizon_of_le (o := o.upTo near)))
  refine ⟨_, _, hNear, hFirst, ?_⟩
  intro y hMember
  simpa using (List.mem_filter.mp hMember).2

include hLe

/-
  A series up to a nearer horizon shows the first dates of the
  other one.  What it leaves out starts past that horizon if
  no override is in force.
-/
theorem exists_nearer
    (hWanted : 0 < o.maxOccurrences) :
    ∃ shown added,
      g.series e records windows (o.upTo near) = .ok shown ∧
      ShowsFirst shown added os ∧
      (e.OnlySuppressed records → ∀ y ∈ added,
        (o.upTo near).withinHorizon y.start = false) := by
  rcases mode_cases (o := o.upTo far) hWanted hFar with
    ⟨first, rest, hManual⟩ | ⟨hManual, hRest⟩
  · have hPlain : ∀ x ∈ os, x.isOverride = false := by
      intro x hMember
      rcases exists_keptDate_of_manual (o := o.upTo far) hManual
          hWanted hFar hMember with
        ⟨date, _, hAt⟩
      exact (Event.occurrenceAt_start hAt).2
    rcases exists_nearer_of_plain hFar hPlain
        (series_of_nearer_manual hLe hWanted hFar hManual) with
      ⟨shown, added, hNear, hFirst, hBeyond⟩
    exact ⟨shown, added, hNear, hFirst, fun _ => hBeyond⟩
  · rcases hRest with
      hAnchor | ⟨start, hSingle, hStart⟩ |
      ⟨anchor, hRecurring, hAnchor⟩
    · rw [series_of_no_anchor hManual hAnchor,
        Except.ok.injEq] at hFar
      subst hFar
      exact ⟨[], [], series_of_no_anchor hManual hAnchor windows,
        showsFirst_nil [], fun _ => nofun⟩
    · rcases series_of_nearer_single hLe hWanted hFar hSingle
          hManual hStart with
        ⟨hPlain, hNear⟩
      rcases exists_nearer_of_plain hFar hPlain hNear with
        ⟨shown, added, hNear, hFirst, hBeyond⟩
      exact ⟨shown, added, hNear, hFirst, fun _ => hBeyond⟩
    · rcases exists_walk_of_series (o := o.upTo far) hRecurring
          hManual hAnchor hWanted hFar with
        ⟨time, hTime, hWalk⟩
      rcases WalkPlan.exists_walk_of_nearer
          (p := g.plan e (.ofList e.id records) windows o time)
          hLe hWanted hWalk with
        ⟨shown, added, hNear, hFirst, hUnreached⟩
      refine ⟨shown, added, ?_, hFirst, ?_⟩
      · rw [series_eq_walk (o := o.upTo near) hRecurring hManual
          hAnchor hWanted hTime]
        exact hNear
      · intro hSuppressed y hMember
        rcases hUnreached y hMember with
          ⟨date, cut, hKept, hCut, hBefore⟩
        exact hSuppressed.beyond_of_unreached
          (p := g.plan e (.ofList e.id records) windows
            (o.upTo near) time)
          rfl hKept hCut hBefore

end

/-
  Whoever looks less far ahead is shown the first dates of the
  longer series, in its order and with the same times.  If no
  override is in force, these are the occurrences that start
  no later than the nearer horizon.
-/
theorem series_of_nearer
    (hLe : NoLater near far)
    (hFar :
      g.series e records windows (o.upTo far) = .ok os) :
    ∃ shown added,
      g.series e records windows (o.upTo near) = .ok shown ∧
      ShowsFirst shown added os ∧
      (e.OnlySuppressed records →
        shown = startingWithin (o.upTo near) os) := by
  by_cases hNone : o.maxOccurrences = 0
  · rw [series_of_none_wanted (o := o.upTo far) hNone,
      Except.ok.injEq] at hFar
    subst hFar
    exact ⟨[], [], series_of_none_wanted (o := o.upTo near) hNone
      g e records windows, showsFirst_nil [], fun _ => rfl⟩
  · have hWanted : 0 < o.maxOccurrences := by omega
    rcases exists_nearer hLe hFar hWanted with
      ⟨shown, added, hNear, hFirst, hBeyond⟩
    refine ⟨shown, added, hNear, hFirst, ?_⟩
    intro hSuppressed
    apply hFirst.eq_filter _ (hBeyond hSuppressed)
    intro x hMember
    rw [SeriesOptions.withinHorizon, Option.all_eq_true]
    intro horizon hHorizon
    exact decide_eq_true
      (((lists_of_series hNear).each x hMember).horizon horizon
        hHorizon)

/-
  The second jazz night is skipped and the fourth is hidden by
  a window.  Of the five nights without a horizon, those up to
  the fifth week are shown with a horizon then.
-/
theorem series_of_nearer_jazzNight :
    let g : Generator := ⟨.utc, nightTime 0 0, 6⟩
    let records := [.skip jazzNight.id (nightTime 1 0)]
    let windows :=
      [HolidayWindow.named ⟨3⟩ "Closed" (nightTime 3 0)
        (nightTime 3 4)]
    let o : SeriesOptions := ⟨5, false, none⟩
    let near := o.upTo (some (nightTime 4 4))
    ∃ shown added os,
      g.series jazzNight records windows o = .ok os ∧
      g.series jazzNight records windows near = .ok shown ∧
      os.map (·.start) =
        [nightTime 0 0, nightTime 2 0, nightTime 4 0,
          nightTime 5 0, nightTime 6 0] ∧
      ShowsFirst shown added os ∧
      shown = startingWithin near os := by
  intro g records windows o near
  have hStarts :
      (g.series jazzNight records windows o).map
          (·.map (·.start)) =
        .ok [nightTime 0 0, nightTime 2 0, nightTime 4 0,
          nightTime 5 0, nightTime 6 0] := by
    cbv
  rcases exists_ok_of_map hStarts with ⟨os, hFar, hOsStarts⟩
  have hSuppressed : jazzNight.OnlySuppressed records := by decide
  have hLe : NoLater (some (nightTime 4 4)) none := by decide
  rcases series_of_nearer (o := o) hLe hFar with
    ⟨shown, added, hNear, hFirst, hFilter⟩
  exact ⟨shown, added, os, hFar, hNear, hOsStarts, hFirst,
    hFilter hSuppressed⟩

/-
  An override that is moved past the horizon ends the series
  before later dates which the horizon would reach.
-/
example :
    let g : Generator := ⟨.utc, nightTime 0 0, 6⟩
    let records := [movedNight 1 (nightTime 5 1)]
    (g.series jazzNight records []
        ⟨5, false, some (nightTime 4 4)⟩).map
          (·.map (·.start)) =
      .ok [nightTime 0 0] := by
  cbv

end Generator

end EventSeries
