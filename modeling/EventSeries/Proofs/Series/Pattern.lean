import EventSeries.Proofs.Series.Growth

/-
  The pattern of a series against the starts that a walk goes
  over.  The pattern is one of dates alone; a walk steps on
  from the dates that the clocks show.  The two agree as long
  as each start leads on like the date it was placed for,
  and no longer: a start that the clocks have moved past
  midnight may lead elsewhere.

  Main declarations:
    * `Rule.patternDate?`
    * `Rule.StepsAlike`
    * `Event.OnPattern`
    * `Event.onPattern_iff`
    * `Event.offPattern_of_fridayShow`
-/

namespace EventSeries

------------------------------------------------------------
-- Patterns Of Dates
------------------------------------------------------------

namespace Rule

/- The date that so many steps of the pattern lead to. -/
def patternDate?
    (r : Rule)
    (first : Date) : Nat → Option Date
  | 0 => some first
  | k + 1 =>
      (r.patternDate? first k).bind fun d =>
        (r.nextDate d).toOption.join

/-
  A start leads on like a date: the start after the date that
  the clocks show then is the one after that date.
-/
def StepsAlike
    (r : Rule)
    (z : Zone)
    (time : ClockTime)
    (start : Instant)
    (d : Date) : Prop :=
  r.startAfterDate z time (z.wallTime start).date =
    r.startAfterDate z time d

variable {r : Rule}
variable {z : Zone}
variable {time : ClockTime}

/- A start leads on like the date that the clocks show. -/
theorem stepsAlike_of_date_eq
    {start : Instant}
    {d : Date}
    (hShown : (z.wallTime start).date = d) :
    r.StepsAlike z time start d :=
  congrArg (r.startAfterDate z time) hShown

theorem patternDate?_succ_eq_some_iff
    {first later : Date}
    {k : Nat} :
    r.patternDate? first (k + 1) = some later ↔
      ∃ d, r.patternDate? first k = some d ∧
        r.nextDate d = .ok (some later) := by
  rw [patternDate?, Option.bind_eq_some_iff]
  apply exists_congr
  intro d
  apply and_congr_right
  intro _
  cases hNext : r.nextDate d with
  | error range => simp [Except.toOption]
  | ok next => simp [Except.toOption]

/- The start after a date is placed on the next date. -/
theorem startAfterDate_eq_some_iff
    {d : Date}
    {next : Instant} :
    r.startAfterDate z time d = .ok (some next) ↔
      ∃ later, r.nextDate d = .ok (some later) ∧
        z.localize ⟨later, time⟩ = .ok next := by
  constructor
  · intro hNext
    rcases startAfterDate_cases hNext with
      ⟨hNone, _⟩ | ⟨later, placed, hSome, hDate, hPlaced⟩
    · cases hNone
    · cases hSome
      exact ⟨later, hDate, hPlaced⟩
  · rintro ⟨later, hDate, hPlaced⟩
    rw [startAfterDate, hDate]
    simp only [bind, Except.bind]
    rw [hPlaced]
    rfl

end Rule

------------------------------------------------------------
-- Starts On A Pattern
------------------------------------------------------------

/- A date with one before it was stepped from that one. -/
theorem exists_step_of_datesFrom
    {next? : Instant → Option Instant}
    {n k : Nat}
    {first next : Instant}
    (hNext : (datesFrom next? n first)[k + 1]? = some next) :
    ∃ date, (datesFrom next? n first)[k]? = some date ∧
      next? date = some next := by
  induction n generalizing first k with
  | zero => cases hNext
  | succ n ih =>
      rw [datesFrom] at hNext ⊢
      rw [List.getElem?_cons_succ] at hNext
      cases hStep : next? first with
      | none =>
          rw [hStep] at hNext
          cases hNext
      | some second =>
          simp only [hStep] at hNext ⊢
          cases k with
          | zero =>
              refine ⟨first, rfl, ?_⟩
              cases n with
              | zero => cases hNext
              | succ n =>
                  rw [datesFrom, List.getElem?_cons_zero]
                    at hNext
                  exact hStep.trans hNext
          | succ k =>
              rw [List.getElem?_cons_succ]
              exact ih hNext

namespace Event

/-
  The start with a number is on the pattern: the first is that
  of the event, and any other is placed on the date of the
  pattern with its number.
-/
def OnPattern
    (e : Event)
    (z : Zone)
    (start : Instant)
    (here : LocalTime) : Nat → Instant → Prop
  | 0, date => date = start
  | k + 1, date =>
      ∃ d, e.recurrence.patternDate? here.date (k + 1) =
        some d ∧ z.localize ⟨d, here.time⟩ = .ok date

variable {e : Event}
variable {z : Zone}
variable {start : Instant}
variable {here : LocalTime}

theorem startAfterDate_of_dateAfter?
    {time : ClockTime}
    {date next : Instant}
    (hNext : e.dateAfter? z time date = some next) :
    e.recurrence.startAfterDate z time (z.wallTime date).date =
      .ok (some next) := by
  have hJoined := (Option.filter_eq_some_iff.mp hNext).1
  cases hAfter : e.recurrence.nextAfter z time date with
  | error range =>
      rw [hAfter] at hJoined
      cases hJoined
  | ok found =>
      rw [hAfter] at hJoined
      change found = some next at hJoined
      subst hJoined
      exact (Rule.nextAfter_cases hAfter).2

/- A start on the pattern has a date there. -/
theorem OnPattern.exists_date
    {k : Nat}
    {date : Instant}
    (hOn : e.OnPattern z start here k date) :
    ∃ d, e.recurrence.patternDate? here.date k = some d := by
  cases k with
  | zero => exact ⟨here.date, rfl⟩
  | succ k =>
      rcases hOn with ⟨d, hDate, _⟩
      exact ⟨d, hDate⟩

/- One step keeps to the pattern if it leads on alike. -/
theorem onPattern_succ_iff
    {k : Nat}
    {d : Date}
    {date next : Instant}
    (hDate : e.recurrence.patternDate? here.date k = some d)
    (hNext : e.dateAfter? z here.time date = some next) :
    e.OnPattern z start here (k + 1) next ↔
      e.recurrence.StepsAlike z here.time date d := by
  have hShown := startAfterDate_of_dateAfter? hNext
  rw [Rule.StepsAlike, hShown, eq_comm,
    Rule.startAfterDate_eq_some_iff]
  constructor
  · rintro ⟨later, hLater, hPlaced⟩
    rcases Rule.patternDate?_succ_eq_some_iff.mp hLater with
      ⟨other, hOther, hStep⟩
    rw [hDate, Option.some.injEq] at hOther
    subst hOther
    exact ⟨later, hStep, hPlaced⟩
  · rintro ⟨later, hStep, hPlaced⟩
    exact ⟨later,
      Rule.patternDate?_succ_eq_some_iff.mpr ⟨d, hDate, hStep⟩,
      hPlaced⟩

/-
  The starts of a series are on its pattern if each of them
  but the first leads on like its date.  The first always
  does, as the pattern begins at the date shown then.  The
  induction is on the number of the start.
-/
theorem onPattern_of_stepsAlike
    {n : Nat}
    (hHere : z.toLocal start = .ok here)
    (hAlike :
      let dates := datesFrom (e.dateAfter? z here.time) n start
      ∀ k date d, 0 < k → dates[k]? = some date →
        k + 1 < dates.length →
          e.recurrence.patternDate? here.date k = some d →
            z.localize ⟨d, here.time⟩ = .ok date →
              e.recurrence.StepsAlike z here.time date d)
    (k : Nat)
    (date : Instant)
    (hDate :
      (datesFrom (e.dateAfter? z here.time) n start)[k]? =
        some date) :
    e.OnPattern z start here k date := by
  induction k generalizing date with
  | zero =>
      cases n with
      | zero => cases hDate
      | succ n =>
          rw [datesFrom, List.getElem?_cons_zero] at hDate
          exact (Option.some.inj hDate).symm
  | succ k ih =>
      rcases exists_step_of_datesFrom hDate with
        ⟨before, hBefore, hStep⟩
      have hOn := ih before hBefore
      rcases hOn.exists_date with ⟨d, hPattern⟩
      apply (onPattern_succ_iff hPattern hStep).mpr
      cases k with
      | zero =>
          change before = start at hOn
          cases hPattern
          subst hOn
          rcases Zone.eq_wallTime_of_toLocal hHere with ⟨rfl, _⟩
          exact Rule.stepsAlike_of_date_eq rfl
      | succ k =>
          rcases hOn with ⟨other, hOther, hPlaced⟩
          rw [hPattern, Option.some.injEq] at hOther
          subst hOther
          have hLength :=
            (List.getElem?_eq_some_iff.mp hDate).1
          exact hAlike (k + 1) before d (Nat.succ_pos k) hBefore
            hLength hPattern hPlaced

/-
  For every zone and every rule, the starts that a walk goes
  over are on the pattern exactly if each of them, save the
  first and the last, leads on like its date.
-/
theorem onPattern_iff
    (n : Nat)
    (hHere : z.toLocal start = .ok here) :
    let dates := datesFrom (e.dateAfter? z here.time) n start
    (∀ k date, dates[k]? = some date →
      e.OnPattern z start here k date) ↔
    ∀ k date d, 0 < k → dates[k]? = some date →
      k + 1 < dates.length →
        e.recurrence.patternDate? here.date k = some d →
          z.localize ⟨d, here.time⟩ = .ok date →
            e.recurrence.StepsAlike z here.time date d := by
  intro dates
  constructor
  · intro hOn k date d _ hDate hLength hPattern _
    have hNext :
        dates[k + 1]? = some (dates[k + 1]) :=
      List.getElem?_eq_getElem hLength
    rcases exists_step_of_datesFrom hNext with
      ⟨before, hBefore, hStep⟩
    have hSame : before = date := by
      rw [hDate, Option.some.injEq] at hBefore
      exact hBefore.symm
    subst hSame
    exact (onPattern_succ_iff hPattern hStep).mp
      (hOn (k + 1) _ hNext)
  · intro hAlike
    exact onPattern_of_stepsAlike hHere hAlike

end Event

/-
  Kathmandu skips the time of the second show, which starts a
  quarter of an hour late, still on its date.
-/
theorem Event.onPattern_of_monthlyShow :
    monthlyShow.OnPattern .kathmandu ⟨502223700, 0⟩
      ⟨⟨5813⟩, ⟨300, 0, by decide⟩⟩ 2 ⟨507579600, 0⟩ := by
  apply (onPattern_iff 3 monthlyShow_toLocal).mpr
  · simp only [monthlyShow_dates]
    intro k date d hPos hDate hLength hPattern _
    have hSecond : k = 1 := by
      simp only [List.length_cons, List.length_nil] at hLength
      omega
    subst hSecond
    cases hDate
    have hJanuary :
        monthlyShow.recurrence.patternDate? ⟨5813⟩ 1 =
          some ⟨5844⟩ := by
      cbv
    rw [hJanuary, Option.some.injEq] at hPattern
    subst hPattern
    exact Rule.stepsAlike_of_date_eq (by cbv)
  · rw [monthlyShow_dates]
    rfl

/- A show on Fridays at eight in the evening. -/
def fridayShow : Event where
  id := ⟨4⟩
  title := "Friday show"
  startsAt := some ⟨1324706400, 0⟩
  recurrence := .weekly (some 4)

/- Its first evening in Samoa, 2011-12-23. -/
def samoanEvening : LocalTime :=
  ⟨⟨15331⟩, nightClock⟩

/-
  Samoa left out the last Friday of 2011.  The show of that
  day starts on the Saturday, and from there the first Friday
  of 2012 is stepped over.
-/
theorem Event.offPattern_of_fridayShow :
    Zone.apia.toLocal ⟨1324706400, 0⟩ = .ok samoanEvening ∧
    ¬ ∀ k date,
      (datesFrom (fridayShow.dateAfter? .apia samoanEvening.time)
        3 ⟨1324706400, 0⟩)[k]? = some date →
          fridayShow.OnPattern .apia ⟨1324706400, 0⟩ samoanEvening
            k date := by
  have hThird :
      (datesFrom (fridayShow.dateAfter? .apia
        samoanEvening.time) 3 ⟨1324706400, 0⟩)[2]? =
          some ⟨1326434400, 0⟩ := by
    cbv
  have hPattern :
      fridayShow.recurrence.patternDate? samoanEvening.date 2 =
        some ⟨15345⟩ := by
    cbv
  have hPlaced :
      Zone.apia.localize ⟨⟨15345⟩, samoanEvening.time⟩ =
        .ok ⟨1325829600, 0⟩ := by
    cbv
  refine ⟨by cbv, ?_⟩
  intro hOn
  rcases hOn 2 _ hThird with ⟨d, hDate, hStart⟩
  rw [hPattern, Option.some.injEq] at hDate
  subst hDate
  rw [hPlaced] at hStart
  revert hStart
  decide

end EventSeries
