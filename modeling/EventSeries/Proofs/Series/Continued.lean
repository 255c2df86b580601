import EventSeries.Proofs.Series.Membership
import EventSeries.Proofs.Series.Settled

/-
  Walks that begin on a date that another walk came to.  Such
  a walk goes over the same dates from there on, and as it has
  gathered nothing before, it shows all that the other one has
  shown on them.  It may go further than the other one if that
  was cut short, and only then.

  Main declarations:
    * `WalkPlan.staysInRange_append_iff`
    * `WalkPlan.exists_continued_of_reached`
    * `WalkPlan.SameStarts`
    * `WalkPlan.exists_mem_walk_of_reached`
    * `WalkPlan.exists_walk_of_uncut`
-/

namespace EventSeries

namespace WalkPlan

variable {p q : WalkPlan}

------------------------------------------------------------
-- Range Conditions On Parts Of A Walk
------------------------------------------------------------

/- The conditions on some dates, and on those after them. -/
theorem staysInRange_append_iff
    {wanted : Nat}
    {earlier later : List Instant} :
    p.StaysInRange wanted (earlier ++ later) ↔
      p.StaysInRange wanted earlier ∧
        p.StaysInRange (wanted - p.keptCount earlier)
          later := by
  induction earlier generalizing wanted with
  | nil =>
      rw [List.nil_append, keptCount_nil, Nat.sub_zero]
      exact (and_iff_right (staysInRange_nil p wanted)).symm
  | cons date earlier ih =>
      rw [List.cons_append, staysInRange_cons_iff,
        staysInRange_cons_iff, ih, keptCount_cons, Nat.sub_sub]
      simp only [and_assoc]

/- Whoever wants fewer occurrences does less arithmetic. -/
theorem StaysInRange.mono
    {wanted fewer : Nat}
    {dates : List Instant}
    (hRange : p.StaysInRange wanted dates)
    (hLe : fewer ≤ wanted) :
    p.StaysInRange fewer dates := by
  constructor
  · intro k date hMember hWanted
    exact hRange.entry k date hMember (by omega)
  · intro k date hMember hWanted
    exact hRange.step k date hMember (by omega)

------------------------------------------------------------
-- Dates From A Later One
------------------------------------------------------------

theorem reached_prefix_succ
    (p : WalkPlan)
    (n : Nat)
    (date : Instant) :
    p.reached n date <+: p.reached (n + 1) date := by
  induction n generalizing date with
  | zero => exact List.nil_prefix
  | succ n ih =>
      cases hReaches : p.reaches date with
      | false =>
          rw [reached_of_not_reaches hReaches]
          exact List.nil_prefix
      | true =>
          cases hLater : p.later? date with
          | none =>
              rw [reached_of_end hReaches hLater,
                reached_of_end hReaches hLater]
          | some next =>
              rw [reached_of_next hReaches hLater,
                reached_of_next hReaches hLater]
              exact (List.prefix_cons_inj date).mpr (ih next)

theorem first_le_of_mem_reached
    {n : Nat}
    {first date : Instant}
    (hMember : date ∈ p.reached n first) :
    first ≤ date :=
  (dateFrom_of_mem_datesFrom
    ((List.takeWhile_sublist _).mem hMember)).first_le
      lt_of_later?

/-
  The dates of a walk from one that it comes to are those of
  the rest of the walk, and may be more as it has all its
  attempts again.
-/
theorem exists_continued_of_reached
    {n : Nat}
    {first date : Instant}
    (hMember : date ∈ p.reached n first) :
    ∃ earlier later,
      p.reached n first = earlier ++ later ∧
      later <+: p.reached n date ∧
      ∀ d ∈ earlier, d < date := by
  induction n generalizing first with
  | zero => cases hMember
  | succ n ih =>
      by_cases hFirst : date = first
      · subst hFirst
        exact ⟨[], _, rfl, List.prefix_rfl, by simp⟩
      · have hReaches : p.reaches first = true := by
          cases hReaches : p.reaches first with
          | true => rfl
          | false =>
              rw [reached_of_not_reaches hReaches] at hMember
              cases hMember
        cases hLater : p.later? first with
        | none =>
            rw [reached_of_end hReaches hLater,
              List.mem_singleton] at hMember
            exact absurd hMember hFirst
        | some next =>
            rw [reached_of_next hReaches hLater] at hMember ⊢
            rcases List.mem_cons.mp hMember with
              hSame | hRest
            · exact absurd hSame hFirst
            · rcases ih hRest with
                ⟨earlier, later, hReached, hPrefix, hBefore⟩
              refine ⟨first :: earlier, later, ?_,
                hPrefix.trans (p.reached_prefix_succ n date),
                ?_⟩
              · rw [hReached, List.cons_append]
              · intro d hEarlier
                rcases List.mem_cons.mp hEarlier with
                  rfl | hAfter
                · have hStep := lt_of_later? d next hLater
                  have hNext := first_le_of_mem_reached hRest
                  grind
                · exact hBefore d hAfter

------------------------------------------------------------
-- Plans With The Same Starts
------------------------------------------------------------

/-
  Two plans go over the same dates, want as many occurrences
  with the past ones, and have the same start on each date
  that has its times in the calendar.
-/
structure SameStarts
    (p q : WalkPlan) : Prop where
  reached : q.reached = p.reached
  wanted : q.options.maxOccurrences = p.options.maxOccurrences
  attempts : q.maxAttempts = p.maxAttempts
  past : p.options.includePast = true
  otherPast : q.options.includePast = true
  start :
    ∀ date, (∃ found, p.entry date = .ok found) →
      (∃ found, q.entry date = .ok found) →
        (p.kept? date).map (·.start) =
          (q.kept? date).map (·.start)

/- On dates where both stay in range they find the same. -/
theorem SameStarts.map_start
    {wanted : Nat}
    {dates : List Instant}
    (hSame : p.SameStarts q)
    (hRange : p.StaysInRange wanted dates)
    (hOther : q.StaysInRange wanted dates) :
    ((dates.filterMap p.kept?).take wanted).map (·.start) =
      ((dates.filterMap q.kept?).take wanted).map
        (·.start) := by
  induction dates generalizing wanted with
  | nil => rfl
  | cons date dates ih =>
      cases wanted with
      | zero => simp
      | succ wanted =>
          rw [staysInRange_cons_iff] at hRange hOther
          have hStart := hSame.start date
            (hRange.1 (Nat.succ_pos wanted)
              (admits_of_includePast hSame.past date))
            (hOther.1 (Nat.succ_pos wanted)
              (admits_of_includePast hSame.otherPast date))
          have hCount :
              (q.kept? date).toList.length =
                (p.kept? date).toList.length := by
            have hLength :=
              congrArg (fun start => start.toList.length) hStart
            simpa only [Option.toList_map, List.length_map]
              using hLength.symm
          have hRoom :
              (p.kept? date).toList.length ≤ wanted + 1 := by
            cases p.kept? date <;> simp
          rw [hCount] at hOther
          rw [filterMap_take_cons dates hRoom,
            filterMap_take_cons dates (hCount ▸ hRoom),
            List.map_append, List.map_append, hCount,
            ih hRange.2.2 hOther.2.2,
            ← Option.toList_map, ← Option.toList_map, hStart]

/-
  What a walk shows on a date that it comes to, or later, has
  the start of an occurrence of a walk from that date.
-/
theorem exists_mem_walk_of_reached
    {first date : Instant}
    {os again : List Occurrence}
    {x : Occurrence}
    (hSame : p.SameStarts q)
    (hWanted : 0 < p.options.maxOccurrences)
    (hWalk : (p.walk first).occurrences = .ok os)
    (hAgain : (q.walk date).occurrences = .ok again)
    (hReached : date ∈ p.reached p.maxAttempts first)
    (hMember : x ∈ os)
    (hLe : date ≤ x.slot) :
    ∃ y ∈ again, y.start = x.start := by
  rcases
      (p.walkFrom_occurrences_eq_ok_iff p.maxAttempts first {}
        os hWanted).mp hWalk with
    ⟨hRange, rfl⟩
  rcases
      (q.walkFrom_occurrences_eq_ok_iff q.maxAttempts date {}
        again (hSame.wanted ▸ hWanted)).mp hAgain with
    ⟨hOtherRange, rfl⟩
  rw [hSame.reached, hSame.attempts, hSame.wanted] at hOtherRange ⊢
  rcases exists_continued_of_reached hReached with
    ⟨earlier, later, hDates, ⟨more, hMore⟩, hBefore⟩
  rw [hDates] at hRange hMember
  rw [← hMore] at hOtherRange ⊢
  let wanted := p.options.maxOccurrences
  let left := wanted - p.keptCount earlier
  have hLeft : left ≤ wanted := Nat.sub_le _ _
  have hLaterRange : p.StaysInRange left later :=
    (staysInRange_append_iff.mp hRange).2
  have hOtherLater : q.StaysInRange left later :=
    (staysInRange_append_iff.mp hOtherRange).1.mono hLeft
  have hShown : x ∈ (later.filterMap p.kept?).take left := by
    rw [mem_sortOccurrences] at hMember
    change x ∈ List.take wanted
      ((earlier ++ later).filterMap p.kept?) at hMember
    rw [List.filterMap_append, List.take_append,
      List.mem_append] at hMember
    rcases hMember with hEarlier | hLater
    · rcases
          List.mem_filterMap.mp (List.mem_of_mem_take hEarlier)
        with ⟨d, hDate, hKept⟩
      have hSlot :=
        slot_of_occurrence? (kept?_eq_some_iff.mp hKept).1
      have hLess := hBefore d hDate
      grind
    · exact hLater
  have hStart :
      x.start ∈
        ((later.filterMap q.kept?).take left).map (·.start) := by
    rw [← hSame.map_start hLaterRange hOtherLater]
    exact List.mem_map_of_mem hShown
  rcases List.mem_map.mp hStart with ⟨y, hFound, hStarts⟩
  refine ⟨y, ?_, hStarts⟩
  rw [mem_sortOccurrences]
  apply List.mem_append_right
  change y ∈ List.take wanted
    ((later ++ more).filterMap q.kept?)
  rw [List.filterMap_append, List.take_append]
  apply List.mem_append_left
  exact (List.take_sublist_take_left hLeft).mem hFound

/-
  A walk from a date of an uncut one has a result, and shows
  nothing that the other has not shown.
-/
theorem exists_walk_of_uncut
    {first date : Instant}
    {os : List Occurrence}
    (hWanted : 0 < p.options.maxOccurrences)
    (hWalk : (p.walk first).occurrences = .ok os)
    (hFilled : (p.walk first).stop ≠ .filled)
    (hAttempts : (p.walk first).stop ≠ .attemptsExhausted)
    (hReached : date ∈ p.reached p.maxAttempts first) :
    ∃ again, (p.walk date).occurrences = .ok again ∧
      ∀ x ∈ again, x ∈ os := by
  rcases
      exists_dates_of_uncut hWanted hWalk hFilled hAttempts with
    ⟨dates, hSettles, hEntries, rfl⟩
  rw [reached_of_settlesWithin hSettles] at hReached
  rcases hSettles.split hReached with
    ⟨earlier, later, rfl, hLater⟩
  rcases
      exists_occurrences_of_settlesWithin hWanted hLater
        (fun d hMember =>
          hEntries d (List.mem_append_right earlier hMember))
    with ⟨again, hAgain⟩
  refine ⟨again, hAgain, ?_⟩
  intro x hMember
  rcases exists_reached_of_mem_walk hAgain hWanted hMember with
    ⟨d, hDate, hKept⟩
  rw [reached_of_settlesWithin hLater] at hDate
  rw [mem_sortOccurrences]
  exact List.mem_filterMap.mpr
    ⟨d, List.mem_append_right earlier hDate, hKept⟩

end WalkPlan

end EventSeries
