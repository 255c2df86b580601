import EventSeries.Proofs.Series.Dates
import EventSeries.Proofs.Series.Entry
import EventSeries.Proofs.Series.Pipeline

/-
  Walks that neither the count nor the attempts cut short.
  Such a walk goes over all dates up to the horizon or to the
  end of the pattern, and a walk from any of these dates goes
  over the rest of them.

  Main declarations:
    * `SettlesWithin`
    * `SettlesWithin.split`
    * `SettlesWithin.mem_of_le`
    * `WalkPlan.mem_settled_iff`
    * `WalkPlan.exists_dates_of_uncut`
    * `WalkPlan.Settled`
    * `WalkPlan.settled_of_walk`
    * `WalkPlan.Settled.occurrences_eq`
-/

namespace EventSeries

------------------------------------------------------------
-- Settled Dates
------------------------------------------------------------

/-
  Stepping from a date goes over the listed dates within so
  many attempts, until the horizon cuts it or the pattern
  ends.
-/
inductive SettlesWithin
    (next? : Instant → Bounded (Option Instant))
    (reaches : Instant → Bool) :
    Nat → Instant → List Instant → Prop where
  | cut {n : Nat} {date : Instant} :
      reaches date = false →
        SettlesWithin next? reaches (n + 1) date []
  | last {n : Nat} {date : Instant} :
      reaches date = true →
        next? date = .ok none →
          SettlesWithin next? reaches (n + 1) date [date]
  | step {n : Nat} {date next : Instant}
      {dates : List Instant} :
      reaches date = true →
        next? date = .ok (some next) →
          SettlesWithin next? reaches n next dates →
            SettlesWithin next? reaches (n + 1) date
              (date :: dates)

namespace SettlesWithin

variable {next? : Instant → Bounded (Option Instant)}
variable {reaches : Instant → Bool}

theorem mono
    {n m : Nat}
    {date : Instant}
    {dates : List Instant}
    (hSettles : SettlesWithin next? reaches n date dates)
    (hLe : n ≤ m) :
    SettlesWithin next? reaches m date dates := by
  induction hSettles generalizing m with
  | cut hCut =>
      cases m with
      | zero => omega
      | succ m => exact .cut hCut
  | last hReaches hEnd =>
      cases m with
      | zero => omega
      | succ m => exact .last hReaches hEnd
  | step hReaches hNext _ ih =>
      cases m with
      | zero => omega
      | succ m => exact .step hReaches hNext (ih (by omega))

theorem reaches_of_mem
    {n : Nat}
    {first date : Instant}
    {dates : List Instant}
    (hSettles : SettlesWithin next? reaches n first dates)
    (hMember : date ∈ dates) :
    reaches date = true := by
  induction hSettles with
  | cut _ => cases hMember
  | last hReaches _ =>
      rw [List.mem_singleton] at hMember
      subst hMember
      exact hReaches
  | step hReaches _ _ ih =>
      rcases List.mem_cons.mp hMember with rfl | hLater
      · exact hReaches
      · exact ih hLater

/- Stepping from a settled date goes over the dates from it. -/
theorem split
    {n : Nat}
    {first date : Instant}
    {dates : List Instant}
    (hSettles : SettlesWithin next? reaches n first dates)
    (hMember : date ∈ dates) :
    ∃ earlier later, dates = earlier ++ later ∧
      SettlesWithin next? reaches n date later := by
  induction hSettles with
  | cut _ => cases hMember
  | last hReaches hEnd =>
      rw [List.mem_singleton] at hMember
      subst hMember
      exact ⟨[], [_], rfl, .last hReaches hEnd⟩
  | @step n first next dates hReaches hNext hRest ih =>
      rcases List.mem_cons.mp hMember with rfl | hLater
      · exact ⟨[], _, rfl, .step hReaches hNext hRest⟩
      · rcases ih hLater with ⟨earlier, later, rfl, hSettles⟩
        exact ⟨first :: earlier, later, rfl,
          hSettles.mono (Nat.le_succ n)⟩

theorem first_mem
    {n : Nat}
    {first : Instant}
    {dates : List Instant}
    (hSettles : SettlesWithin next? reaches n first dates)
    (hReaches : reaches first = true) :
    first ∈ dates := by
  cases hSettles with
  | cut hCut =>
      rw [hReaches] at hCut
      cases hCut
  | last _ _ => exact List.mem_singleton_self first
  | step _ _ _ => exact List.mem_cons_self

theorem next?_ok_of_mem
    {n : Nat}
    {first date : Instant}
    {dates : List Instant}
    (hSettles : SettlesWithin next? reaches n first dates)
    (hMember : date ∈ dates) :
    ∃ next, next? date = .ok next := by
  induction hSettles with
  | cut _ => cases hMember
  | last _ hEnd =>
      rw [List.mem_singleton] at hMember
      subst hMember
      exact ⟨none, hEnd⟩
  | step _ hNext _ ih =>
      rcases List.mem_cons.mp hMember with rfl | hLater
      · exact ⟨_, hNext⟩
      · exact ih hLater

end SettlesWithin

namespace WalkPlan

variable {p : WalkPlan}

------------------------------------------------------------
-- Settled Dates Of A Plan
------------------------------------------------------------

/- Settled dates are stepped from the first. -/
theorem dateFrom_of_mem
    {n : Nat}
    {first date : Instant}
    {dates : List Instant}
    (hSettles : SettlesWithin p.next? p.reaches n first dates)
    (hMember : date ∈ dates) :
    DateFrom p.later? first date := by
  induction hSettles with
  | cut _ => cases hMember
  | last _ _ =>
      rw [List.mem_singleton] at hMember
      subst hMember
      exact .first
  | step _ hNext _ ih =>
      rcases List.mem_cons.mp hMember with rfl | hLater
      · exact .first
      · exact DateFrom.first.next (later?_of_next? hNext)
          |>.trans (ih hLater)

/- Any date not after a settled one is settled too. -/
theorem mem_of_le
    {n : Nat}
    {first date settled : Instant}
    {dates : List Instant}
    (hSettles : SettlesWithin p.next? p.reaches n first dates)
    (hDate : DateFrom p.later? first date)
    (hMember : settled ∈ dates)
    (hLe : date ≤ settled) :
    date ∈ dates := by
  induction hSettles with
  | cut _ => cases hMember
  | @last n first _ hEnd =>
      rw [List.mem_singleton] at hMember ⊢
      rcases hDate.cases_first with hFirst | ⟨next, hNext, _⟩
      · exact hFirst
      · rw [later?_of_next? hEnd] at hNext
        cases hNext
  | @step n first next dates _ hNext hRest ih =>
      rcases hDate.cases_first with
        rfl | ⟨second, hSecond, hLater⟩
      · exact List.mem_cons_self
      · rw [later?_of_next? hNext, Option.some.injEq] at hSecond
        subst hSecond
        apply List.mem_cons_of_mem
        apply ih hLater
        rcases List.mem_cons.mp hMember with rfl | hSettled
        · have hFirst := hLater.first_le lt_of_later?
          have hStep :=
            lt_of_later? _ _ (later?_of_next? hNext)
          grind
        · exact hSettled

/-
  The settled dates are those up to which the horizon reaches
  all dates stepped from the first.
-/
theorem mem_settled_iff
    {n : Nat}
    {first date : Instant}
    {dates : List Instant}
    (hSettles :
      SettlesWithin p.next? p.reaches n first dates) :
    date ∈ dates ↔
      DateFrom p.later? first date ∧
      ∀ d, DateFrom p.later? first d → d ≤ date →
        p.reaches d = true := by
  constructor
  · intro hMember
    refine ⟨dateFrom_of_mem hSettles hMember, ?_⟩
    intro d hFrom hLe
    exact hSettles.reaches_of_mem
      (mem_of_le hSettles hFrom hMember hLe)
  · rintro ⟨hDate, hReaches⟩
    induction hSettles with
    | @cut n first hCut =>
        have hFirst :=
          hReaches first .first (hDate.first_le lt_of_later?)
        rw [hCut] at hFirst
        cases hFirst
    | @last n first _ hEnd =>
        rcases hDate.cases_first with rfl | ⟨next, hNext, _⟩
        · exact List.mem_singleton_self date
        · rw [later?_of_next? hEnd] at hNext
          cases hNext
    | @step n first next dates _ hNext _ ih =>
        rcases hDate.cases_first with
          rfl | ⟨second, hSecond, hLater⟩
        · exact List.mem_cons_self
        · have hStep := later?_of_next? hNext
          rw [hStep, Option.some.injEq] at hSecond
          subst hSecond
          apply List.mem_cons_of_mem
          apply ih hLater
          intro d hFrom hLe
          exact hReaches d ((DateFrom.first.next hStep).trans hFrom)
            hLe

theorem pairwise_lt_of_settlesWithin
    {n : Nat}
    {first : Instant}
    {dates : List Instant}
    (hSettles :
      SettlesWithin p.next? p.reaches n first dates) :
    dates.Pairwise (· < ·) := by
  induction hSettles with
  | cut _ => exact .nil
  | last _ _ => exact List.pairwise_singleton _ _
  | step _ hNext hRest ih =>
      refine List.pairwise_cons.mpr ⟨?_, ih⟩
      intro date hMember
      have hFirst :=
        (dateFrom_of_mem hRest hMember).first_le lt_of_later?
      have hStep := lt_of_later? _ _ (later?_of_next? hNext)
      grind

theorem nodup_of_settlesWithin
    {n : Nat}
    {first : Instant}
    {dates : List Instant}
    (hSettles :
      SettlesWithin p.next? p.reaches n first dates) :
    dates.Nodup := by
  apply (pairwise_lt_of_settlesWithin hSettles).imp
  rintro date other hBefore rfl
  exact Std.lt_irrefl hBefore

------------------------------------------------------------
-- Settled Walks
------------------------------------------------------------

theorem reached_of_settlesWithin
    {n : Nat}
    {first : Instant}
    {dates : List Instant}
    (hSettles :
      SettlesWithin p.next? p.reaches n first dates) :
    p.reached n first = dates := by
  induction hSettles with
  | cut hCut => exact reached_of_not_reaches hCut
  | last hReaches hEnd =>
      exact reached_of_end hReaches (later?_of_next? hEnd)
  | step hReaches hNext _ ih =>
      rw [reached_of_next hReaches (later?_of_next? hNext), ih]

/-
  A walk that stops neither filled nor out of attempts, and
  not for its range, has settled with fewer occurrences than
  it wants.
-/
theorem settlesWithin_of_walkFrom
    {n : Nat}
    {first : Instant}
    {s : WalkState}
    {out : List Occurrence}
    (hOut : (p.walkFrom n first s).occurrences = .ok out)
    (hFilled : (p.walkFrom n first s).stop ≠ .filled)
    (hAttempts :
      (p.walkFrom n first s).stop ≠ .attemptsExhausted)
    (hWanted : s.collected.size < p.options.maxOccurrences) :
    ∃ dates,
      SettlesWithin p.next? p.reaches n first dates ∧
      (∀ date ∈ dates, p.options.admits p.now date = true →
        ∃ found, p.entry date = .ok found) ∧
      s.collected.size + p.keptCount dates <
        p.options.maxOccurrences := by
  induction n generalizing first s with
  | zero => exact absurd rfl hAttempts
  | succ n ih =>
      cases hReaches : p.reaches first with
      | false =>
          refine ⟨[], .cut hReaches, ?_, by simpa using hWanted⟩
          intro date hMember
          cases hMember
      | true =>
          rcases visit_cases hReaches with
            ⟨⟨visit, hVisit, hHorizon, hFound⟩, hEntry⟩ |
            ⟨⟨range, hVisit⟩, _⟩
          · rw [walkFrom_of_finds hVisit hHorizon]
              at hOut hFilled hAttempts
            have hSize := record_size s p.event.id first visit
            rw [hFound] at hSize
            generalize s.record p.event.id first visit = s'
              at hSize hOut hFilled hAttempts
            by_cases hFull : p.isFilled s' = true
            · simp [hFull] at hFilled
            · simp only [if_neg hFull] at hOut hFilled hAttempts
              rw [isFilled, decide_eq_true_eq] at hFull
              cases hNext : p.next? first with
              | error range =>
                  rw [hNext] at hOut
                  cases hOut
              | ok next =>
                  rw [hNext] at hOut hFilled hAttempts
                  cases next with
                  | none =>
                      refine ⟨[first], .last hReaches hNext,
                        ?_, ?_⟩
                      · intro date hMember
                        rw [List.mem_singleton] at hMember
                        subst hMember
                        exact hEntry
                      · rw [keptCount_cons, keptCount_nil]
                        omega
                  | some next =>
                      rcases
                          ih hOut hFilled hAttempts (by omega) with
                        ⟨dates, hSettles, hEntries, hRoom⟩
                      refine ⟨first :: dates,
                        .step hReaches hNext hSettles, ?_, ?_⟩
                      · intro date hMember
                        rcases List.mem_cons.mp hMember with
                          rfl | hLater
                        · exact hEntry
                        · exact hEntries date hLater
                      · rw [keptCount_cons]
                        omega
          · rw [walkFrom_of_visit_error hVisit] at hOut
            cases hOut

/- A walk over settled dates in the calendar has a result. -/
theorem exists_occurrences_of_settlesWithin
    {first : Instant}
    {dates : List Instant}
    (hWanted : 0 < p.options.maxOccurrences)
    (hSettles :
      SettlesWithin p.next? p.reaches p.maxAttempts first dates)
    (hEntries :
      ∀ date ∈ dates, p.options.admits p.now date = true →
        ∃ found, p.entry date = .ok found) :
    ∃ out, (p.walk first).occurrences = .ok out := by
  refine ⟨_, (p.walkFrom_occurrences_eq_ok_iff p.maxAttempts
    first {} _ hWanted).mpr ⟨?_, rfl⟩⟩
  rw [reached_of_settlesWithin hSettles]
  constructor
  · intro k date hMember _
    exact hEntries date (List.mem_of_getElem? hMember)
  · intro k date hMember _
    exact hSettles.next?_ok_of_mem (List.mem_of_getElem? hMember)

/-
  A walk over settled dates that leave room shows all that it
  keeps on them.
-/
theorem occurrences_of_settlesWithin
    {first : Instant}
    {dates : List Instant}
    (hWanted : 0 < p.options.maxOccurrences)
    (hSettles :
      SettlesWithin p.next? p.reaches p.maxAttempts first dates)
    (hEntries :
      ∀ date ∈ dates, p.options.admits p.now date = true →
        ∃ found, p.entry date = .ok found)
    (hRoom : p.keptCount dates ≤ p.options.maxOccurrences) :
    (p.walk first).occurrences =
      .ok (sortOccurrences (dates.filterMap p.kept?)) := by
  apply (walk_occurrences_eq_ok_iff hWanted).mpr
  rw [reached_of_settlesWithin hSettles,
    List.take_of_length_le hRoom]
  refine ⟨⟨?_, ?_⟩, rfl⟩
  · intro k date hMember _
    exact hEntries date (List.mem_of_getElem? hMember)
  · intro k date hMember _
    exact hSettles.next?_ok_of_mem (List.mem_of_getElem? hMember)

/- An uncut walk shows what it keeps on its settled dates. -/
theorem exists_dates_of_uncut
    {first : Instant}
    {out : List Occurrence}
    (hWanted : 0 < p.options.maxOccurrences)
    (hOut : (p.walk first).occurrences = .ok out)
    (hFilled : (p.walk first).stop ≠ .filled)
    (hAttempts : (p.walk first).stop ≠ .attemptsExhausted) :
    ∃ dates,
      SettlesWithin p.next? p.reaches p.maxAttempts first dates ∧
      (∀ date ∈ dates, p.options.admits p.now date = true →
        ∃ found, p.entry date = .ok found) ∧
      out = sortOccurrences (dates.filterMap p.kept?) := by
  rcases
      settlesWithin_of_walkFrom hOut hFilled hAttempts hWanted with
    ⟨dates, hSettles, hEntries, hRoom⟩
  have hCount : p.keptCount dates ≤ p.options.maxOccurrences :=
    Nat.le_of_lt (by simpa using hRoom)
  rw [occurrences_of_settlesWithin hWanted hSettles hEntries
    hCount, Except.ok.injEq] at hOut
  exact ⟨dates, hSettles, hEntries, hOut.symm⟩

/- The occurrences on some dates, whatever their starts. -/
def occurrencesOn
    (p : WalkPlan)
    (dates : List Instant) : List Occurrence :=
  dates.filterMap p.occurrence?

theorem filterMap_kept?
    (p : WalkPlan)
    (dates : List Instant) :
    dates.filterMap p.kept? =
      (p.occurrencesOn dates).filter p.admits := by
  rw [occurrencesOn, List.filter_filterMap]
  rfl

/-
  A walk from a date that settles on the listed dates, with
  all its times in the calendar and fewer occurrences than it
  wants, past ones included.
-/
structure Settled
    (p : WalkPlan)
    (first : Instant)
    (dates : List Instant) : Prop where
  settles :
    SettlesWithin p.next? p.reaches p.maxAttempts first dates
  entries :
    ∀ date ∈ dates, ∃ found, p.entry date = .ok found
  room :
    (p.occurrencesOn dates).length < p.options.maxOccurrences

theorem settled_of_walk
    {first : Instant}
    {out : List Occurrence}
    (hPast : p.options.includePast = true)
    (hWanted : 0 < p.options.maxOccurrences)
    (hOut : (p.walk first).occurrences = .ok out)
    (hFilled : (p.walk first).stop ≠ .filled)
    (hAttempts : (p.walk first).stop ≠ .attemptsExhausted) :
    ∃ dates, p.Settled first dates := by
  have hAdmits := admits_of_includePast hPast
  rcases
      settlesWithin_of_walkFrom hOut hFilled hAttempts hWanted with
    ⟨dates, hSettles, hEntries, hRoom⟩
  refine ⟨dates, hSettles, ?_, ?_⟩
  · intro date hMember
    exact hEntries date hMember (hAdmits date)
  · have hAll :
        (p.occurrencesOn dates).filter p.admits =
          p.occurrencesOn dates :=
      List.filter_eq_self.mpr fun o _ => hAdmits o.start
    rw [keptCount, filterMap_kept?, hAll] at hRoom
    simpa using hRoom

theorem Settled.of_append
    {first anchor : Instant}
    {earlier later : List Instant}
    (hSettled : p.Settled first (earlier ++ later))
    (hSettles :
      SettlesWithin p.next? p.reaches p.maxAttempts anchor
        later) :
    p.Settled anchor later := by
  refine ⟨hSettles, ?_, ?_⟩
  · intro date hMember
    exact hSettled.entries date
      (List.mem_append_right earlier hMember)
  · have hRoom := hSettled.room
    simp only [occurrencesOn, List.filterMap_append,
      List.length_append] at hRoom
    simp only [occurrencesOn]
    omega

/- A settled walk has the occurrences that it admits. -/
theorem Settled.occurrences_eq
    {first : Instant}
    {dates : List Instant}
    (hSettled : p.Settled first dates) :
    (p.walk first).occurrences =
      .ok (sortOccurrences
        ((p.occurrencesOn dates).filter p.admits)) := by
  have hKept :
      p.keptCount dates ≤ p.options.maxOccurrences := by
    rw [keptCount, filterMap_kept?]
    exact Nat.le_trans (List.length_filter_le _ _)
      (Nat.le_of_lt hSettled.room)
  rw [← filterMap_kept?]
  apply occurrences_of_settlesWithin
    (Nat.zero_lt_of_lt hSettled.room) hSettled.settles _ hKept
  intro date hMember _
  exact hSettled.entries date hMember

end WalkPlan

end EventSeries
