import EventSeries.Proofs.Calendar.YearMonthDay
import EventSeries.Proofs.Text.Narrower
import EventSeries.Text.Timestamp

/-
  An instant of the calendar is read back from its text, if it
  lies in no leap second.  The proof goes over the parts of
  the text in their order: what is written for each of them is
  the piece that its scanner takes.  Times of day are written
  with as many digits of their fraction as are exact.

  Main declarations:
    * `ExactIn`
    * `ClockTime.charsIn`
    * `Scan.year_takes`
    * `Scan.fractionIn_takes`
    * `Scan.dateWith_takes`
    * `Scan.strictDate_takes`
    * `Scan.strictTime_takes`
    * `Scan.timeWith_takes`
    * `Scan.relaxedInstant_takes`
    * `Instant.ofText?_text`
-/

namespace EventSeries

------------------------------------------------------------
-- Readings Of Instants
------------------------------------------------------------

/- The date of an instant of the calendar is one of it. -/
theorem Instant.InCalendar.date
    {t : Instant}
    (hInside : t.InCalendar) :
    t.utcReading.date.InCalendar := by
  rcases hInside with ⟨hFirst, hLast⟩
  simp only [secondsPerDay] at hFirst hLast
  constructor
  · change Date.first.dayNumber ≤ t.seconds / 86400
    omega
  · change t.seconds / 86400 ≤ Date.last.dayNumber
    omega

/- A time of day outside of leap seconds is that of its parts. -/
theorem ClockTime.ofParts?_hour_minute_shownSecond
    {c : ClockTime}
    (hOrdinary : c.nanos < nanosPerSecond) :
    ofParts? c.hour c.minute c.shownSecond c.nanos = some c := by
  have hShown : c.shownSecond = c.second % 60 := by
    simp only [shownSecond, secondOfMinute,
      Nat.div_eq_of_lt hOrdinary, Nat.add_zero]
  have hSecond : c.second < 86400 := c.second_lt
  have hHour : c.hour = c.second / 3600 := rfl
  have hMinute : c.minute = c.second / 60 % 60 := rfl
  have hTime :
      ofSecond (c.hour * 3600 + c.minute * 60 + c.shownSecond)
        c.nanos = c := by
    cases c
    simp only [ofSecond, secondsPerDay, mk.injEq, and_true]
      at *
    omega
  rw [ofParts?, if_pos (by omega), if_neg (by omega), hTime]

------------------------------------------------------------
-- Times In So Many Digits
------------------------------------------------------------

/- A fraction of a second in so many digits. -/
def fractionIn
    (places nanos : Nat) : List Char :=
  if places = 0 then
    []
  else
    '.' :: paddedDigits places (nanos / 10 ^ (9 - places))

/- So many digits are enough for the fraction. -/
def ExactIn
    (places nanos : Nat) : Prop :=
  places ≤ 9 ∧ nanos % 10 ^ (9 - places) = 0

instance
    (places nanos : Nat) :
    Decidable (ExactIn places nanos) := by
  unfold ExactIn
  infer_instance

/- The texts of a fraction are among those in so many digits. -/
theorem exists_fractionIn_eq
    (nanos : Nat) :
    ∃ places, ExactIn places nanos ∧
      fractionIn places nanos = fractionChars nanos := by
  unfold fractionChars
  split
  · rename_i hNone
    exact ⟨0, ⟨by decide, by omega⟩, rfl⟩
  · split
    · rename_i hMillis
      exact ⟨3, ⟨by decide, hMillis⟩, rfl⟩
    · split
      · rename_i hMicros
        exact ⟨6, ⟨by decide, hMicros⟩, rfl⟩
      · refine ⟨9, ⟨by decide, Nat.mod_one nanos⟩, ?_⟩
        exact congrArg (fun n => '.' :: paddedDigits 9 n)
          (Nat.div_one nanos)

namespace ClockTime

/- Hour and minute of a time of day, as in `21:00`. -/
def shortChars
    (c : ClockTime) : List Char :=
  paddedDigits 2 c.hour ++ ':' :: paddedDigits 2 c.minute

/- A time of day with so many digits of its fraction. -/
def charsIn
    (places : Nat)
    (c : ClockTime) : List Char :=
  c.shortChars ++ ':' :: paddedDigits 2 c.shownSecond
    ++ fractionIn places c.nanos

theorem exists_charsIn_eq
    {c : ClockTime}
    (hOrdinary : c.nanos < nanosPerSecond) :
    ∃ places, ExactIn places c.nanos ∧
      c.charsIn places = c.chars := by
  rcases exists_fractionIn_eq c.nanos with
    ⟨places, hExact, hChars⟩
  refine ⟨places, hExact, ?_⟩
  rw [charsIn, hChars, chars, Nat.mod_eq_of_lt hOrdinary]
  rfl

end ClockTime

namespace Scan

variable {rest : List Char}

------------------------------------------------------------
-- Dates
------------------------------------------------------------

/- A year between 0 and 9999 is four digits. -/
theorem strictYear_takes
    {y : Int}
    (hFour : 0 ≤ y ∧ y ≤ 9999) :
    strictYear.Takes (yearChars y) rest y := by
  have hLess : y.toNat < 10 ^ 4 := by omega
  rw [yearChars, if_pos hFour]
  apply (exactDigits_takes (by decide) hLess).bind_nil
  rw [Int.toNat_of_nonneg hFour.1]
  exact pure_takes

/- Any other has a sign, behind which all digits are taken. -/
theorem year_takes
    (y : Int)
    (hEnd : NoDigitFirst rest) :
    year.Takes (yearChars y) rest y := by
  have hRow :
      (digitRow none).Takes (digitsAtLeast 4 y.natAbs) rest
        (digitsAtLeast 4 y.natAbs) :=
    digitRow_takes
      (fun _ hMember => isDigit_of_mem_digitsAtLeast hMember)
      (digitsAtLeast_ne_nil (by decide)) hEnd
  by_cases hFour : 0 ≤ y ∧ y ≤ 9999
  · exact strictYear_narrower.takes (strictYear_takes hFour)
  · rw [yearChars, if_neg hFour]
    split
    · rename_i hNegative
      have hValue :
          -(valueOfDigits (digitsAtLeast 4 y.natAbs) : Int)
            = y := by
        rw [valueOfDigits_digitsAtLeast]
        omega
      apply blanks_bind_takes (by decide)
      apply get_bind_takes
      apply set_bind_takes
      apply hRow.bind_nil
      rw [hValue]
      exact pure_takes
    · have hValue :
          (valueOfDigits (digitsAtLeast 4 y.natAbs) : Int)
            = y := by
        rw [valueOfDigits_digitsAtLeast]
        omega
      apply blanks_bind_takes (by decide)
      apply get_bind_takes
      apply set_bind_takes
      apply hRow.bind_nil
      rw [hValue]
      exact pure_takes

theorem month_day_lt
    (d : Date) :
    d.month < 10 ^ 2 ∧ d.day < 10 ^ 2 := by
  have hParts := Date.month_day_spec d
  have hLength := monthLength_le d.year d.month
  omega

/- A date of the calendar, with a hyphen behind its year. -/
theorem dateWith_takes
    {d : Date}
    (hInside : d.InCalendar) :
    (dateWith blanks).Takes d.chars rest d := by
  rcases month_day_lt d with ⟨hMonth, hDay⟩
  rw [Date.chars, List.append_assoc]
  apply (year_takes d.year (noDigitFirst_cons (by decide))).bind
  apply blanks_bind_takes (by decide)
  apply literal_bind_takes
  apply (number_takes (by decide) hMonth).bind
  apply blanks_bind_takes (by decide)
  apply literal_bind_takes
  apply (number_takes (by decide) hDay).bind_nil
  rw [Date.ofYearMonthDay?_year_month_day hInside]
  exact pure_takes

theorem strictDate_takes
    {d : Date}
    (hYear : 0 ≤ d.year ∧ d.year ≤ 9999) :
    strictDate.Takes d.chars rest d := by
  rcases month_day_lt d with ⟨hMonth, hDay⟩
  have hInside : d.InCalendar :=
    Date.inCalendar_of_year
      ⟨Int.le_trans (by decide) hYear.1,
        Int.le_trans hYear.2 (by decide)⟩
  rw [Date.chars, List.append_assoc]
  apply (strictYear_takes hYear).bind
  apply literal_bind_takes
  apply (exactDigits_takes (by decide) hMonth).bind
  apply literal_bind_takes
  apply (exactDigits_takes (by decide) hDay).bind_nil
  rw [Date.ofYearMonthDay?_year_month_day hInside]
  exact pure_takes

------------------------------------------------------------
-- Fractions
------------------------------------------------------------

/- The text does not go on with digits or a fraction. -/
structure EndsFraction
    (rest : List Char) : Prop where
  noDigit : NoDigitFirst rest
  noPoint : rest.head? ≠ some '.'

/- What writes a fraction exactly is read as that fraction. -/
theorem fractionIn_takes
    {places nanos : Nat}
    (hExact : ExactIn places nanos)
    (hNanos : nanos < nanosPerSecond)
    (hEnd : EndsFraction rest) :
    fraction.Takes (fractionIn places nanos) rest nanos := by
  rcases hExact with ⟨hPlaces, hZeros⟩
  rw [nanosPerSecond] at hNanos
  unfold fractionIn
  split
  · rename_i hNone
    have hNothing : nanos = 0 := by
      rw [hNone] at hZeros
      omega
    apply get_bind_takes
    rw [List.nil_append, hNothing]
    split
    · exact absurd rfl hEnd.noPoint
    · exact pure_takes
  · have hUnit : 10 ^ places * 10 ^ (9 - places) = 10 ^ 9 := by
      rw [← Nat.pow_add, Nat.add_sub_cancel' hPlaces]
    have hLess : nanos / 10 ^ (9 - places) < 10 ^ places := by
      rw [Nat.div_lt_iff_lt_mul (Nat.pow_pos (by decide)),
        hUnit]
      exact hNanos
    have hValue :
        nanos / 10 ^ (9 - places) * 10 ^ (9 - places) = nanos :=
      Nat.div_mul_cancel (Nat.dvd_of_mod_eq_zero hZeros)
    have hWidth : 0 < places ∧ places ≤ 9 := by omega
    have hPoint :=
      pointAndDigits_takes hWidth hLess hEnd.noDigit
    rw [hValue] at hPoint
    exact get_bind_takes hPoint

------------------------------------------------------------
-- Times
------------------------------------------------------------

/- Hour and minute, which end at a colon. -/
theorem strictHourAndMinute_takes
    (c : ClockTime) :
    strictHourAndMinute.Takes c.shortChars rest
      (c.hour, c.minute) := by
  have hSecond : c.second < 86400 := c.second_lt
  have hHour : c.hour < 10 ^ 2 := by
    unfold ClockTime.hour
    omega
  have hMinute : c.minute < 10 ^ 2 := by
    unfold ClockTime.minute
    omega
  apply (exactDigits_takes (by decide) hHour).bind
  apply literal_bind_takes
  apply (exactDigits_takes (by decide) hMinute).bind_nil
  exact pure_takes

/- A time of day that is in no leap second. -/
theorem strictTime_takes
    {c : ClockTime}
    {places : Nat}
    (hExact : ExactIn places c.nanos)
    (hOrdinary : c.nanos < nanosPerSecond)
    (hEnd : EndsFraction rest) :
    strictTime.Takes (c.charsIn places) rest c := by
  have hShown : c.shownSecond < 10 ^ 2 := by
    unfold ClockTime.shownSecond ClockTime.secondOfMinute
    rw [Nat.div_eq_of_lt hOrdinary]
    omega
  have hSecond :
      strictSecondAndNanos.Takes
        (':' :: paddedDigits 2 c.shownSecond
          ++ fractionIn places c.nanos)
        rest (c.shownSecond, c.nanos) := by
    apply literal_bind_takes
    apply (exactDigits_takes (by decide) hShown).bind
    apply
      (fractionIn_takes hExact hOrdinary hEnd).bind_nil
    exact pure_takes
  rw [ClockTime.charsIn, List.append_assoc]
  apply (strictHourAndMinute_takes c).bind
  apply hSecond.bind_nil
  simp only
  rw [ClockTime.ofParts?_hour_minute_shownSecond hOrdinary]
  exact pure_takes

/- Gaps may stand between its parts, but none are written. -/
theorem timeWith_takes
    {gap : Scan Unit}
    {c : ClockTime}
    (hGap : IsGap gap)
    (hOrdinary : c.nanos < nanosPerSecond)
    (hEnd : EndsFraction rest) :
    (timeWith gap).Takes c.chars rest c := by
  rcases ClockTime.exists_charsIn_eq hOrdinary with
    ⟨places, hExact, hChars⟩
  rw [← hChars]
  exact (strictTime_narrower hGap).takes
    (strictTime_takes hExact hOrdinary hEnd)

------------------------------------------------------------
-- Instants
------------------------------------------------------------

/- An instant of the calendar is that of its reading. -/
theorem atOffset_utcReading
    {t : Instant}
    (hInside : t.InCalendar) :
    atOffset t.utcReading 0 = some t := by
  have hSame :
      (⟨t.utcReading.inUtc.seconds - 0,
        t.utcReading.time.nanos⟩ : Instant) = t := by
    rw [LocalTime.inUtc_utcReading, Int.sub_zero]
    rfl
  rw [atOffset, hSame, Instant.checked, if_pos hInside]
  rfl

theorem dateTimeSeparator_bind_takes
    {α : Type}
    {next : Unit → Scan α}
    {piece : List Char}
    {a : α}
    (hNext : (next ()).Takes piece rest a) :
    (dateTimeSeparator >>= next).Takes ('T' :: piece) rest
      a := by
  have hSeparator :
      dateTimeSeparator.Takes ['T'] (piece ++ rest) () :=
    (oneOf_takes (by decide)).bind_nil pure_takes
  exact hSeparator.bind hNext

/- The parts of an instant, in universal time. -/
theorem relaxedInstant_takes
    {t : Instant}
    (hInside : t.InCalendar)
    (hOrdinary : t.nanos < nanosPerSecond) :
    relaxedInstant.Takes t.chars [] t := by
  have hZulu :
      (offsetOrUtc colonsAndBlanks).Takes ['Z'] [] 0 := by
    rfl
  have hTime : t.utcReading.time.nanos < nanosPerSecond :=
    hOrdinary
  rw [Instant.chars, LocalTime.chars, LocalTime.charsWith,
    List.append_assoc]
  apply (dateWith_takes hInside.date).bind
  apply dateTimeSeparator_bind_takes
  apply (timeWith_takes isGap_blanks hTime
    ⟨noDigitFirst_cons (by decide), by decide⟩).bind
  apply blanks_bind_takes (by decide)
  apply hZulu.bind_nil
  apply blanks_takes_nil.bind_nil
  rw [atOffset_utcReading hInside]
  exact pure_takes

end Scan

/-
  An instant of the calendar, leap seconds aside, is what its
  text reads as.
-/
theorem Instant.ofText?_text
    {t : Instant}
    (hInside : t.InCalendar)
    (hOrdinary : t.nanos < nanosPerSecond) :
    ofText? t.text = some t := by
  rw [ofText?, text, String.toList_ofList]
  exact Scan.whole?_of_takes
    (Scan.relaxedInstant_takes hInside hOrdinary)

end EventSeries
