import EventSeries.Proofs.Text.Blank
import EventSeries.Proofs.Text.Scan
import EventSeries.Text.TimestampReading

/-
  Scanners against wider ones.  A scanner is narrower than
  another one that reads the same wherever the first one
  reads.  Digits of a fixed width are narrower than a number,
  which may be shorter and have blanks in front; and so date
  and time of the strict form of an instant are narrower than
  those of a wall time.

  Main declarations:
    * `Scan.run_bind_eq_some_iff`
    * `Scan.Narrower`
    * `Scan.Narrower.bind`
    * `Scan.strictInstant_eq`
    * `Scan.strictDate_narrower`
    * `Scan.strictTime_narrower`
-/

namespace EventSeries

namespace Scan

variable {α β : Type}

------------------------------------------------------------
-- What A Scanner Has Read
------------------------------------------------------------

/- A scanner and another one behind it have both read. -/
theorem run_bind_eq_some_iff
    {scan : Scan α}
    {next : α → Scan β}
    {cs rest : List Char}
    {b : β} :
    (scan >>= next).run cs = some (b, rest) ↔
      ∃ a mid, scan.run cs = some (a, mid) ∧
        (next a).run mid = some (b, rest) := by
  rw [StateT.run_bind]
  simp [Option.bind_eq_some_iff]

/- A whole text has been read if nothing of it is left. -/
theorem whole?_eq_some_iff
    {scan : Scan α}
    {cs : List Char}
    {a : α} :
    scan.whole? cs = some a ↔ scan.run cs = some (a, []) := by
  unfold whole?
  split
  · rename_i hRun
    rw [hRun, Option.some.injEq, Option.some.injEq,
      Prod.mk.injEq, and_iff_left rfl]
  · rename_i hOther
    exact iff_of_false nofun fun hRun => hOther a hRun

theorem oneOf_run_eq_some
    {ok : Char → Bool}
    {cs rest : List Char}
    {c : Char}
    (hRun : (oneOf ok).run cs = some (c, rest)) :
    cs = c :: rest ∧ ok c = true := by
  cases cs with
  | nil => simp [oneOf] at hRun
  | cons first tail =>
      by_cases hOk : ok first = true
      · simp [oneOf, hOk] at hRun
        rcases hRun with ⟨rfl, rfl⟩
        exact ⟨rfl, hOk⟩
      · simp [oneOf, hOk] at hRun

theorem literal_run_eq_some
    {c : Char}
    {cs rest : List Char}
    (hRun : (literal c).run cs = some ((), rest)) :
    cs = c :: rest := by
  rcases run_bind_eq_some_iff.mp hRun with
    ⟨first, mid, hOne, hRest⟩
  cases hRest
  rcases oneOf_run_eq_some hOne with ⟨rfl, hSame⟩
  rw [eq_of_beq hSame]

/- A row of digits has been read if a digit came first. -/
theorem exists_digit_of_digitRow
    {width : Option Nat}
    {cs row rest : List Char}
    (hRun : (digitRow width).run cs = some (row, rest)) :
    ∃ c tail, cs = c :: tail ∧ c.isDigit = true := by
  have hSome : leadingDigits width cs ≠ [] := by
    intro hEmpty
    simp [digitRow, hEmpty] at hRun
  cases cs with
  | nil => cases width <;> simp [leadingDigits] at hSome
  | cons c tail =>
      refine ⟨c, tail, rfl, ?_⟩
      by_contra hOther
      cases width <;> simp [leadingDigits, hOther] at hSome

/- A number has been read if a digit or a blank came first. -/
theorem digit_or_blank_of_number
    {width n : Nat}
    {c : Char}
    {cs rest : List Char}
    (hRun : (number width).run (c :: cs) = some (n, rest)) :
    c.isDigit = true ∨ isBlank c = true := by
  rcases run_bind_eq_some_iff.mp hRun with
    ⟨_, mid, hBlanks, hDigits⟩
  by_cases hBlank : isBlank c = true
  · exact Or.inr hBlank
  · left
    have hNone : blanks.Takes [] (c :: cs) () :=
      blanks_takes (by simpa using hBlank)
    cases hBlanks.symm.trans hNone
    rcases run_bind_eq_some_iff.mp hDigits with
      ⟨row, mid, hRow, _⟩
    rcases exists_digit_of_digitRow hRow with
      ⟨first, tail, hCons, hDigit⟩
    cases hCons
    exact hDigit

/- Blanks in front of a number make no difference to it. -/
theorem number_run_trimStart
    (width : Nat)
    (cs : List Char) :
    (number width).run (trimStart cs) =
      (number width).run cs := by
  have hOnce : trimStart (trimStart cs) = trimStart cs :=
    noBlankFirst_trimStart cs
  simp [number, blanks, hOnce]

------------------------------------------------------------
-- Narrower Scanners
------------------------------------------------------------

/- What a scanner reads, a wider one reads in the same way. -/
def Narrower
    (scan wider : Scan α) : Prop :=
  ∀ cs r, scan.run cs = some r → wider.run cs = some r

theorem Narrower.refl
    (scan : Scan α) :
    scan.Narrower scan :=
  fun _ _ hRun => hRun

theorem Narrower.bind
    {scan wider : Scan α}
    {next widerNext : α → Scan β}
    (hFirst : scan.Narrower wider)
    (hNext : ∀ a, (next a).Narrower (widerNext a)) :
    (scan >>= next).Narrower (wider >>= widerNext) := by
  rintro cs ⟨b, rest⟩ hRun
  rcases run_bind_eq_some_iff.mp hRun with
    ⟨a, mid, hScan, hRest⟩
  exact run_bind_eq_some_iff.mpr
    ⟨a, mid, hFirst cs _ hScan, hNext a mid _ hRest⟩

/- A piece that a scanner takes is taken by a wider one. -/
theorem Narrower.takes
    {scan wider : Scan α}
    {piece rest : List Char}
    {a : α}
    (hNarrower : scan.Narrower wider)
    (hTakes : scan.Takes piece rest a) :
    wider.Takes piece rest a :=
  hNarrower _ _ hTakes

/- A scanner that takes nothing where no blank stands. -/
def IsGap
    (gap : Scan Unit) : Prop :=
  ∀ c rest, isBlank c = false → gap.Takes [] (c :: rest) ()

theorem isGap_nothing :
    IsGap nothing :=
  fun _ _ _ => pure_takes

theorem isGap_blanks :
    IsGap blanks :=
  fun _ _ hBlank => blanks_takes hBlank

/- A character that is asked for may have a gap before it. -/
theorem Narrower.gap_bind
    {gap : Scan Unit}
    {c : Char}
    {next widerNext : Unit → Scan β}
    (hGap : IsGap gap)
    (hBlank : isBlank c = false)
    (hNext : (next ()).Narrower (widerNext ())) :
    (literal c >>= next).Narrower
      (gap >>= fun _ => literal c >>= widerNext) := by
  rintro cs ⟨b, rest⟩ hRun
  rcases run_bind_eq_some_iff.mp hRun with
    ⟨_, mid, hLiteral, hRest⟩
  -- The text begins with `c` itself, and so the gap is empty.
  cases literal_run_eq_some hLiteral
  refine run_bind_eq_some_iff.mpr ⟨(), c :: mid, ?_, ?_⟩
  · exact hGap c mid hBlank
  · exact run_bind_eq_some_iff.mpr
      ⟨(), mid, hLiteral, hNext mid _ hRest⟩

------------------------------------------------------------
-- Digits Of A Fixed Width
------------------------------------------------------------

/- They are a row of digits with no blanks in front. -/
theorem digitRow_of_exactDigits
    {width n : Nat}
    {cs rest : List Char}
    (hRun : (exactDigits width).run cs = some (n, rest)) :
    ∃ c tail, cs = c :: tail ∧ c.isDigit = true ∧
      ∃ row,
        (digitRow (some width)).run cs = some (row, rest) ∧
          valueOfDigits row = n := by
  rcases run_bind_eq_some_iff.mp hRun with
    ⟨row, mid, hRow, hValue⟩
  rcases exists_digit_of_digitRow hRow with
    ⟨c, tail, hCons, hDigit⟩
  split at hValue
  · cases hValue
    exact ⟨c, tail, hCons, hDigit, row, hRow, rfl⟩
  · cases hValue

theorem exactDigits_narrower
    (width : Nat) :
    (exactDigits width).Narrower (number width) := by
  rintro cs ⟨n, rest⟩ hRun
  rcases digitRow_of_exactDigits hRun with
    ⟨c, tail, rfl, hDigit, row, hRow, rfl⟩
  refine run_bind_eq_some_iff.mpr ⟨(), c :: tail, ?_, ?_⟩
  · exact blanks_takes (isBlank_of_isDigit hDigit)
  · exact run_bind_eq_some_iff.mpr ⟨row, rest, hRow, rfl⟩

/- A year of the strict form is four digits without a sign. -/
def strictYear : Scan Int := do
  return (← exactDigits 4)

theorem strictYear_narrower :
    strictYear.Narrower year := by
  rintro cs ⟨y, rest⟩ hRun
  rcases run_bind_eq_some_iff.mp hRun with
    ⟨n, mid, hDigits, hYear⟩
  cases hYear
  rcases digitRow_of_exactDigits hDigits with
    ⟨c, tail, rfl, hDigit, row, hRow, rfl⟩
  refine run_bind_eq_some_iff.mpr ⟨(), c :: tail, ?_, ?_⟩
  · exact blanks_takes (isBlank_of_isDigit hDigit)
  · refine run_bind_eq_some_iff.mpr ⟨_, _, rfl, ?_⟩
    split
    · rename_i hMinus
      cases hMinus
      cases hDigit
    · rename_i hPlus
      cases hPlus
      cases hDigit
    · exact run_bind_eq_some_iff.mpr ⟨row, rest, hRow, rfl⟩

------------------------------------------------------------
-- The Strict Form
------------------------------------------------------------

/- The date of the strict form. -/
def strictDate : Scan Date := do
  let y ← strictYear
  literal '-'
  let m ← exactDigits 2
  literal '-'
  let d ← exactDigits 2
  require (Date.ofYearMonthDay? y m d)

/- Its hour and minute. -/
def strictHourAndMinute : Scan (Nat × Nat) := do
  let h ← exactDigits 2
  literal ':'
  let m ← exactDigits 2
  return (h, m)

/- Its second and fraction, with the colon in front. -/
def strictSecondAndNanos : Scan (Nat × Nat) := do
  literal ':'
  let s ← exactDigits 2
  return (s, ← fraction)

/- Its time of day. -/
def strictTime : Scan ClockTime := do
  let (h, m) ← strictHourAndMinute
  let (s, nanos) ← strictSecondAndNanos
  require (ClockTime.ofParts? h m s nanos)

/- An instant of the strict form, part by part. -/
theorem strictInstant_eq :
    strictInstant = (do
      let d ← strictDate
      dateTimeSeparator
      let c ← strictTime
      let offset ← offsetWith (literal ':')
      require (atOffset ⟨d, c⟩ offset)) := by
  simp only [strictInstant, strictDate, strictYear, strictTime,
    strictHourAndMinute, strictSecondAndNanos, bind_assoc,
    pure_bind]

section

variable {gap : Scan Unit}
variable (hGap : IsGap gap)
include hGap

theorem strictDate_narrower :
    strictDate.Narrower (dateWith gap) := by
  refine strictYear_narrower.bind fun _ => ?_
  refine .gap_bind hGap (by decide) ?_
  refine (exactDigits_narrower 2).bind fun _ => ?_
  refine .gap_bind hGap (by decide) ?_
  exact (exactDigits_narrower 2).bind fun _ => .refl _

theorem strictHourAndMinute_narrower :
    strictHourAndMinute.Narrower (hourAndMinuteWith gap) := by
  refine (exactDigits_narrower 2).bind fun _ => ?_
  refine .gap_bind hGap (by decide) ?_
  exact (exactDigits_narrower 2).bind fun _ => .refl _

theorem strictTime_narrower :
    strictTime.Narrower (timeWith gap) := by
  refine (strictHourAndMinute_narrower hGap).bind fun _ => ?_
  refine .bind ?_ fun _ => .refl _
  refine .gap_bind hGap (by decide) ?_
  exact (exactDigits_narrower 2).bind fun _ => .refl _

end

end Scan

end EventSeries
