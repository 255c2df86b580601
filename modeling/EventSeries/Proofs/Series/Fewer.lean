import EventSeries.Proofs.Series.Continued
import EventSeries.Proofs.Series.Contract

/-
  Series of one event that differ in how many occurrences are
  wanted.  The shorter one shows the first dates of the longer
  one, and shows them in the same order.  It need not be the
  beginning of it: an override may have been moved past dates
  that only the longer one comes to, or be among these dates
  and have been moved before the others.

  Main declarations:
    * `ShowsFirst`
    * `showsFirst_of_append`
    * `WalkPlan.exists_walk_of_fewer`
    * `Generator.series_of_fewer`
    * `Generator.fewer_not_beginning_of_jazzNight`
-/

namespace EventSeries

/- The options that want another number of occurrences. -/
def SeriesOptions.wanting
    (o : SeriesOptions)
    (wanted : Nat) : SeriesOptions :=
  { o with maxOccurrences := wanted }

------------------------------------------------------------
-- The First Dates Of A Series
------------------------------------------------------------

/-
  Some occurrences are those of a longer list on its first
  dates, in its order, and `added` are its others.  They are
  its beginning if none of them starts after one of those.
-/
structure ShowsFirst
    (fewer added more : List Occurrence) : Prop where
  sublist : fewer.Sublist more
  perm : more.Perm (fewer ++ added)
  slots : ∀ x ∈ fewer, ∀ y ∈ added, x.slot ≤ y.slot
  begins_iff :
    fewer <+: more ↔
      ∀ x ∈ fewer, ∀ y ∈ added, x.start ≤ y.start

/- The first of some occurrences, each part sorted by start. -/
theorem showsFirst_of_append
    {first added : List Occurrence}
    (hSlots : ∀ x ∈ first, ∀ y ∈ added, x.slot ≤ y.slot) :
    ShowsFirst (sortOccurrences first) added
      (sortOccurrences (first ++ added)) := by
  have hPerm :
      (sortOccurrences (first ++ added)).Perm
        (sortOccurrences first ++ added) :=
    (List.mergeSort_perm _ _).trans
      ((List.mergeSort_perm first _).symm.append_right added)
  refine ⟨?_, hPerm, ?_, ?_, ?_⟩
  · exact sublist_sortOccurrences
      (List.sublist_append_left first added)
  · intro x hMember
    exact hSlots x (mem_sortOccurrences.mp hMember)
  · rintro ⟨rest, hRest⟩ x hMember y hAdded
    have hOrdered := pairwise_sortOccurrences (first ++ added)
    rw [← hRest] at hPerm hOrdered
    have hSame := (List.perm_append_left_iff _).mp hPerm
    exact (List.pairwise_append.mp hOrdered).2.2 x hMember y
      (hSame.mem_iff.mpr hAdded)
  · intro hLe
    rw [sortOccurrences_append fun x hMember =>
      hLe x (mem_sortOccurrences.mpr hMember)]
    exact List.prefix_append _ _

theorem showsFirst_nil
    (more : List Occurrence) :
    ShowsFirst [] more more where
  sublist := List.nil_sublist more
  perm := List.Perm.refl more
  slots := nofun
  begins_iff := iff_of_true List.nil_prefix nofun

theorem showsFirst_self
    (more : List Occurrence) :
    ShowsFirst more [] more where
  sublist := List.Sublist.refl more
  perm := by rw [List.append_nil]
  slots _ _ _ hNone := absurd hNone List.not_mem_nil
  begins_iff :=
    iff_of_true List.prefix_rfl fun _ _ _ hNone =>
      absurd hNone List.not_mem_nil

/- Plain occurrences, cut off after some of them. -/
theorem showsFirst_take
    {more : List Occurrence}
    (hOrdered : more.Pairwise (·.start ≤ ·.start))
    (hPlain : ∀ x ∈ more, x.slot = x.start)
    (n : Nat) :
    ShowsFirst (more.take n) (more.drop n) more := by
  have hStarts := hOrdered
  rw [← List.take_append_drop n more, List.pairwise_append]
    at hStarts
  have hSlots :
      ∀ x ∈ more.take n, ∀ y ∈ more.drop n,
        x.slot ≤ y.slot := by
    intro x hMember y hOther
    rw [hPlain x (List.mem_of_mem_take hMember),
      hPlain y (List.mem_of_mem_drop hOther)]
    exact hStarts.2.2 x hMember y hOther
  have hFirst := showsFirst_of_append hSlots
  rw [List.take_append_drop,
    sortOccurrences_of_pairwise hOrdered,
    sortOccurrences_of_pairwise hStarts.1] at hFirst
  exact hFirst

/- Plain occurrences stand in the order of their dates. -/
theorem ShowsFirst.begins_of_plain
    {fewer added more : List Occurrence}
    (hFirst : ShowsFirst fewer added more)
    (hPlain : ∀ x ∈ more, x.slot = x.start) :
    fewer <+: more := by
  apply hFirst.begins_iff.mpr
  intro x hMember y hAdded
  have hLe := hFirst.slots x hMember y hAdded
  rw [hPlain x (hFirst.sublist.mem hMember),
    hPlain y (hFirst.perm.mem_iff.mpr
      (List.mem_append_right fewer hAdded))] at hLe
  exact hLe

------------------------------------------------------------
-- Walks
------------------------------------------------------------

theorem WalkPlan.reached_prefix_of_le
    (p : WalkPlan)
    {n m : Nat}
    (hLe : n ≤ m)
    (date : Instant) :
    p.reached n date <+: p.reached m date := by
  induction hLe with
  | refl => exact List.prefix_rfl
  | step _ ih => exact ih.trans (p.reached_prefix_succ _ date)

theorem take_prefix_of_le
    {α : Type}
    {xs ys : List α}
    {n m : Nat}
    (hPrefix : xs <+: ys)
    (hLe : n ≤ m) :
    xs.take n <+: ys.take m := by
  rcases hPrefix with ⟨rest, rfl⟩
  rw [List.take_append]
  exact (List.take_prefix_take_left hLe).trans
    (List.prefix_append _ _)

namespace Generator

variable {g : Generator}
variable {e : Event}
variable {o : SeriesOptions}
variable {windows : List HolidayWindow}
variable {n m : Nat}
variable {more : List Occurrence}

theorem maxAttempts_mono
    (hLe : n ≤ m) :
    g.maxAttempts (o.wanting n) ≤ g.maxAttempts (o.wanting m) :=
  Nat.le_min.mpr
    ⟨(Nat.min_le_left _ _).trans (Nat.mul_le_mul_right _ hLe),
      Nat.min_le_right _ _⟩

/-
  The walk for fewer occurrences goes over the first dates of
  the other one, and does no arithmetic that the other one has
  not done.
-/
theorem exists_walk_of_fewer
    {index : ExceptionIndex}
    {time : ClockTime}
    {anchor : Instant}
    (hWanted : 0 < n)
    (hLe : n ≤ m)
    (hMore :
      ((g.plan e index windows (o.wanting m) time).walk
        anchor).occurrences = .ok more) :
    ∃ fewer added,
      ((g.plan e index windows (o.wanting n) time).walk
        anchor).occurrences = .ok fewer ∧
      ShowsFirst fewer added more := by
  rcases (WalkPlan.walk_occurrences_eq_ok_iff
      (Nat.lt_of_lt_of_le hWanted hLe)).mp hMore with
    ⟨hRange, hSorted⟩
  have hReached :=
    (g.plan e index windows (o.wanting m)
      time).reached_prefix_of_le
        (maxAttempts_mono (g := g) (o := o) hLe) anchor
  have hRangeFewer :
      (g.plan e index windows (o.wanting n) time).StaysInRange n
        ((g.plan e index windows (o.wanting n) time).reached
          (g.maxAttempts (o.wanting n)) anchor) := by
    rcases hReached with ⟨later, hLater⟩
    change WalkPlan.StaysInRange _ m
      (WalkPlan.reached _ (g.maxAttempts (o.wanting m)) anchor)
      at hRange
    rw [← hLater, WalkPlan.staysInRange_append_iff] at hRange
    have hFirst := hRange.1.mono hLe
    exact ⟨hFirst.entry, hFirst.step⟩
  rcases take_prefix_of_le
      (hReached.filterMap
        (g.plan e index windows (o.wanting m) time).kept?) hLe
    with ⟨added, hAdded⟩
  have hSlots :=
    pairwise_slots (g.plan e index windows (o.wanting m) time)
      (g.maxAttempts (o.wanting m)) m anchor
  rw [← hAdded, List.pairwise_append] at hSlots
  have hFirst :=
    showsFirst_of_append fun x hMember y hOther =>
      Std.le_of_lt (hSlots.2.2 x hMember y hOther)
  rw [hAdded] at hFirst
  refine ⟨_, added,
    (WalkPlan.walk_occurrences_eq_ok_iff hWanted).mpr
      ⟨hRangeFewer, rfl⟩, ?_⟩
  rw [← hSorted]
  exact hFirst

------------------------------------------------------------
-- Series
------------------------------------------------------------

/- A plain occurrence is on the date at which it starts. -/
theorem MayList.slot_eq_start
    {records : List ExceptionRecord}
    {x : Occurrence}
    (hListed : g.MayList e records o x)
    (hPlain : x.isOverride = false) :
    x.slot = x.start := by
  rw [Occurrence.slot, (hListed.plain hPlain).source]

section

variable {records : List ExceptionRecord}

variable (hWanted : 0 < n)
variable (hLe : n ≤ m)
variable (hMore :
  g.series e records windows (o.wanting m) = .ok more)

include hWanted hLe hMore

/- Of dates listed by hand the first are listed. -/
theorem exists_fewer_of_manual
    {first : Instant}
    {rest : List Instant}
    (hManual :
      (e.manualDates g.zone).value = .ok (first :: rest)) :
    ∃ fewer added,
      g.series e records windows (o.wanting n) = .ok fewer ∧
      ShowsFirst fewer added more := by
  have hMoreWanted := Nat.lt_of_lt_of_le hWanted hLe
  have hLists := lists_of_series hMore
  have hEach := occurrenceAt_of_manual hManual hMoreWanted hMore
  have hPlain : ∀ x ∈ more, x.slot = x.start := by
    intro x hMember
    rcases exists_keptDate_of_manual hManual hMoreWanted hMore
        hMember with
      ⟨date, _, hAt⟩
    exact (hLists.each x hMember).slot_eq_start
      (Event.occurrenceAt_start hAt).2
  have hKept :
      g.keptDates (o.wanting n) (first :: rest) =
        (g.keptDates (o.wanting m) (first :: rest)).take n := by
    change List.take n _ = List.take n (List.take m _)
    rw [List.take_take, Nat.min_eq_left hLe]
    rfl
  refine ⟨more.take n, more.drop n, ?_,
    showsFirst_take hLists.ordered hPlain n⟩
  rw [series_of_manual hManual hWanted, hKept, mapM_eq_ok_iff,
    List.map_take, hEach, List.map_take]

/- The walk for fewer begins at the same date. -/
theorem exists_fewer_of_walk
    {anchor : Instant}
    (hRecurring : e.isRecurring = true)
    (hManual : (e.manualDates g.zone).value = .ok [])
    (hAnchor :
      anchor? e (.ofList e.id records) = some anchor) :
    ∃ fewer added,
      g.series e records windows (o.wanting n) = .ok fewer ∧
      ShowsFirst fewer added more := by
  rcases exists_walk_of_series hRecurring hManual hAnchor
      (Nat.lt_of_lt_of_le hWanted hLe) hMore with
    ⟨time, hTime, hWalk⟩
  rcases exists_walk_of_fewer hWanted hLe hWalk with
    ⟨fewer, added, hFewer, hFirst⟩
  refine ⟨fewer, added, ?_, hFirst⟩
  rw [series_eq_walk hRecurring hManual hAnchor hWanted hTime]
  exact hFewer

end

/-
  Whoever asks for fewer occurrences is shown the first dates
  of the longer series, in its order.  They are its beginning
  exactly if none of them starts after an occurrence that is
  shown in addition, and so in any series without overrides.
-/
theorem series_of_fewer
    {records : List ExceptionRecord}
    (hLe : n ≤ m)
    (hMore :
      g.series e records windows (o.wanting m) = .ok more) :
    ∃ fewer added,
      g.series e records windows (o.wanting n) = .ok fewer ∧
      ShowsFirst fewer added more ∧
      ((∀ x ∈ more, x.isOverride = false) → fewer <+: more) := by
  have hFewer :
      ∃ fewer added,
        g.series e records windows (o.wanting n) = .ok fewer ∧
        ShowsFirst fewer added more := by
    by_cases hNone : n = 0
    · exact ⟨[], more, series_of_none_wanted hNone g e records
        windows, showsFirst_nil more⟩
    · have hWanted : 0 < n := by omega
      rcases mode_cases (Nat.lt_of_lt_of_le hWanted hLe) hMore
        with ⟨first, rest, hManual⟩ | ⟨hManual, hRest⟩
      · exact exists_fewer_of_manual hWanted hLe hMore hManual
      · rcases hRest with
          hAnchor | ⟨start, hSingle, hStart⟩ |
          ⟨anchor, hRecurring, hAnchor⟩
        · refine ⟨[], more,
            series_of_no_anchor hManual hAnchor windows,
            showsFirst_nil more⟩
        · refine ⟨more, [], ?_, showsFirst_self more⟩
          rw [series_of_single hSingle hManual hStart
            (Nat.lt_of_lt_of_le hWanted hLe)] at hMore
          rw [series_of_single hSingle hManual hStart hWanted]
          exact hMore
        · exact exists_fewer_of_walk hWanted hLe hMore hRecurring
            hManual hAnchor
  rcases hFewer with ⟨fewer, added, hSeries, hFirst⟩
  refine ⟨fewer, added, hSeries, hFirst, ?_⟩
  intro hPlain
  apply hFirst.begins_of_plain
  intro x hMember
  exact ((lists_of_series hMore).each x hMember).slot_eq_start
    (hPlain x hMember)

/-
  The second jazz night is moved behind the third.  Whoever
  asks for two nights is shown the first and the moved one,
  and whoever asks for three the third one between them.
-/
theorem series_of_fewer_jazzNight :
    let g : Generator := ⟨.utc, nightTime 0 0, 6⟩
    let records := [movedNight 1 (nightTime 2 24)]
    ∃ fewer added more,
      g.series jazzNight records [] ⟨3, false, none⟩ =
        .ok more ∧
      g.series jazzNight records [] ⟨2, false, none⟩ =
        .ok fewer ∧
      more.map (·.start) =
        [nightTime 0 0, nightTime 2 0, nightTime 2 24] ∧
      ShowsFirst fewer added more := by
  intro g records
  have hStarts :
      (g.series jazzNight records [] ⟨3, false, none⟩).map
          (·.map (·.start)) =
        .ok [nightTime 0 0, nightTime 2 0, nightTime 2 24] := by
    cbv
  rcases exists_ok_of_map hStarts with ⟨more, hMore, hMoreStarts⟩
  rcases series_of_fewer (o := ⟨3, false, none⟩) (n := 2) (m := 3)
      (by decide) hMore with
    ⟨fewer, added, hFewer, hFirst, _⟩
  exact ⟨fewer, added, more, hMore, hFewer, hMoreStarts, hFirst⟩

/- The two nights are not the beginning of the three. -/
theorem fewer_not_beginning_of_jazzNight :
    let g : Generator := ⟨.utc, nightTime 0 0, 6⟩
    let records := [movedNight 1 (nightTime 2 24)]
    ∃ fewer more,
      g.series jazzNight records [] ⟨2, false, none⟩ =
        .ok fewer ∧
      g.series jazzNight records [] ⟨3, false, none⟩ =
        .ok more ∧
      ¬ fewer <+: more := by
  intro g records
  have hTwo :
      (g.series jazzNight records [] ⟨2, false, none⟩).map
          (·.map (·.start)) =
        .ok [nightTime 0 0, nightTime 2 24] := by
    cbv
  have hThree :
      (g.series jazzNight records [] ⟨3, false, none⟩).map
          (·.map (·.start)) =
        .ok [nightTime 0 0, nightTime 2 0, nightTime 2 24] := by
    cbv
  rcases exists_ok_of_map hTwo with ⟨fewer, hFewer, hFewerStarts⟩
  rcases exists_ok_of_map hThree with ⟨more, hMore, hMoreStarts⟩
  refine ⟨fewer, more, hFewer, hMore, ?_⟩
  intro hBegins
  have hStarts := hBegins.map fun x : Occurrence => x.start
  rw [hFewerStarts, hMoreStarts] at hStarts
  revert hStarts
  decide

end Generator

end EventSeries
