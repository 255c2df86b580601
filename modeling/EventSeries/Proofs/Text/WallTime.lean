import EventSeries.Proofs.Text.Timestamp

/-
  How wall times are written: in one of the layouts without an
  offset, or with an offset in the strict form of RFC 3339.
  Each text is the piece that the scanner of its form takes,
  and is trimmed.

  Main declarations:
    * `WrittenOffset`
    * `LocalTime.layoutChars`
    * `LocalTime.strictChars`
    * `Scan.wallTime_takes`
    * `Scan.strictInstant_takes`
-/

namespace EventSeries

open Scan (WallLayout)

------------------------------------------------------------
-- Offsets
------------------------------------------------------------

/- The signs that an offset can have; two of them are minus. -/
inductive OffsetSign where
  | plus
  | hyphen
  | minus
  deriving DecidableEq, Repr

namespace OffsetSign

def char : OffsetSign → Char
  | plus => '+'
  | hyphen => '-'
  | minus => '\u2212'

def factor : OffsetSign → Int
  | plus => 1
  | hyphen | minus => -1

end OffsetSign

/- An offset as it is written: a letter, or its parts. -/
inductive WrittenOffset where
  | capitalZ
  | smallZ
  | signed
      (sign : OffsetSign)
      (hours : Fin 24)
      (minutes : Fin 60)
  deriving DecidableEq, Repr

namespace WrittenOffset

/- The seconds that a wall time is ahead of universal time. -/
def seconds : WrittenOffset → Int
  | capitalZ | smallZ => 0
  | signed sign hours minutes =>
      sign.factor *
        ((hours.val * 3600 + minutes.val * 60 : Nat) : Int)

def chars : WrittenOffset → List Char
  | capitalZ => ['Z']
  | smallZ => ['z']
  | signed sign hours minutes =>
      sign.char :: paddedDigits 2 hours
        ++ ':' :: paddedDigits 2 minutes

/- They are fewer than those of a day. -/
theorem seconds_lt
    (offset : WrittenOffset) :
    -86400 < offset.seconds ∧ offset.seconds < 86400 := by
  cases offset with
  | capitalZ => decide
  | smallZ => decide
  | signed sign hours minutes =>
      have hHours : hours.val < 24 := hours.isLt
      have hMinutes : minutes.val < 60 := minutes.isLt
      cases sign <;>
        · simp only [seconds, OffsetSign.factor]
          omega

end WrittenOffset

namespace Scan

variable {rest : List Char}

theorem offsetSign_takes
    (sign : OffsetSign) :
    offsetSign.Takes [sign.char] rest sign.factor := by
  cases sign <;>
    exact (oneOf_takes (by decide)).bind_nil pure_takes

theorem offsetWith_takes
    (offset : WrittenOffset) :
    (offsetWith (literal ':')).Takes offset.chars rest
      offset.seconds := by
  cases offset with
  | capitalZ => rfl
  | smallZ => rfl
  | signed sign hours minutes =>
      have hHours : hours.val < 10 ^ 2 := by omega
      have hMinutes : minutes.val < 10 ^ 2 := by omega
      have hShort : hours.val < 24 ∧ minutes.val < 60 :=
        ⟨hours.isLt, minutes.isLt⟩
      have hSigned :
          (signedOffset (literal ':')).Takes
            (sign.char :: paddedDigits 2 hours
              ++ ':' :: paddedDigits 2 minutes)
            rest
            (WrittenOffset.signed sign hours minutes).seconds
            := by
        apply (offsetSign_takes sign).bind
        apply (exactDigits_takes (by decide) hHours).bind
        apply literal_bind_takes
        apply (exactDigits_takes (by decide) hMinutes).bind_nil
        rw [if_pos hShort]
        exact pure_takes
      apply get_bind_takes
      cases sign <;> exact hSigned

/- No offset can be taken for more digits of a fraction. -/
theorem endsFraction_offset
    (offset : WrittenOffset) :
    EndsFraction offset.chars := by
  cases offset with
  | capitalZ => exact ⟨noDigitFirst_cons (by decide), nofun⟩
  | smallZ => exact ⟨noDigitFirst_cons (by decide), nofun⟩
  | signed sign hours minutes =>
      cases sign <;>
        exact ⟨noDigitFirst_cons (by decide), nofun⟩

/- In these years no offset leads out of the calendar. -/
theorem atOffset_of_year
    {l : LocalTime}
    (hYear : 0 ≤ l.date.year ∧ l.date.year ≤ 9999)
    (offset : WrittenOffset) :
    atOffset l offset.seconds =
      some
        ⟨l.inUtc.seconds - offset.seconds, l.time.nanos⟩ := by
  have hDays := Date.dayNumber_of_years hYear.1 hYear.2
  have hFirst : daysBeforeYear 0 = 0 := by decide
  have hLast : daysBeforeYear (9999 + 1) = 3652425 := by decide
  have hOffset := offset.seconds_lt
  have hSecond : l.time.second < 86400 := l.time.second_lt
  rw [atOffset, Instant.checked, if_pos]
  · rfl
  · simp only [Instant.InCalendar, LocalTime.inUtc, Date.first,
      Date.last, Date.epochOffset, secondsPerDay] at *
    omega

end Scan

------------------------------------------------------------
-- Texts
------------------------------------------------------------

namespace Scan.WallLayout

/- The character between the date and the time. -/
def separatorChar : WallLayout → Char
  | letterWithSeconds | letterWithoutSeconds => 'T'
  | blankWithSeconds | blankWithoutSeconds => ' '

/-
  A time of day in a layout, with so many digits of its
  fraction if the layout has seconds.
-/
def timeChars
    (places : Nat)
    (c : ClockTime) : WallLayout → List Char
  | letterWithSeconds | blankWithSeconds => c.charsIn places
  | letterWithoutSeconds | blankWithoutSeconds => c.shortChars

/- The layout leaves nothing of a time of day out. -/
def IsExact
    (places : Nat)
    (c : ClockTime) : WallLayout → Prop
  | letterWithSeconds | blankWithSeconds =>
      ExactIn places c.nanos
  | letterWithoutSeconds | blankWithoutSeconds =>
      c.secondOfMinute = 0 ∧ c.nanos = 0

instance
    (places : Nat)
    (c : ClockTime)
    (layout : WallLayout) :
    Decidable (layout.IsExact places c) :=
  match layout with
  | letterWithSeconds | blankWithSeconds =>
      inferInstanceAs (Decidable (ExactIn places c.nanos))
  | letterWithoutSeconds | blankWithoutSeconds =>
      inferInstanceAs
        (Decidable (c.secondOfMinute = 0 ∧ c.nanos = 0))

end Scan.WallLayout

namespace LocalTime

/- A wall time in a layout, as in `2025-07-04 21:00`. -/
def layoutChars
    (layout : WallLayout)
    (places : Nat)
    (l : LocalTime) : List Char :=
  l.date.chars ++
    layout.separatorChar :: layout.timeChars places l.time

/- A wall time with an offset, as in `2025-07-04T21:00:00Z`. -/
def strictChars
    (separator : Char)
    (places : Nat)
    (offset : WrittenOffset)
    (l : LocalTime) : List Char :=
  l.date.chars ++
    separator :: (l.time.charsIn places ++ offset.chars)

end LocalTime

------------------------------------------------------------
-- Texts Without Blanks At Their Ends
------------------------------------------------------------

@[simp] theorem noBlanks_paddedDigits
    (width n : Nat) :
    NoBlanks (paddedDigits width n) :=
  fun _ hMember =>
    isBlank_of_isDigit (isDigit_of_mem_paddedDigits hMember)

theorem noBlanks_date
    {d : Date}
    (hYear : 0 ≤ d.year ∧ d.year ≤ 9999) :
    NoBlanks d.chars := by
  have hHyphen : isBlank '-' = false := by decide
  simp [Date.chars, yearChars, hYear, hHyphen]

theorem noBlanks_shortChars
    (c : ClockTime) :
    NoBlanks c.shortChars := by
  have hColon : isBlank ':' = false := by decide
  simp [ClockTime.shortChars, hColon]

theorem noBlanks_charsIn
    (places : Nat)
    (c : ClockTime) :
    NoBlanks (c.charsIn places) := by
  have hColon : isBlank ':' = false := by decide
  have hPoint : isBlank '.' = false := by decide
  have hFraction : NoBlanks (fractionIn places c.nanos) := by
    unfold fractionIn
    split
    · exact noBlanks_nil
    · simp [hPoint]
  simp [ClockTime.charsIn, noBlanks_shortChars, hColon,
    hFraction]

theorem noBlanks_timeChars
    (layout : WallLayout)
    (places : Nat)
    (c : ClockTime) :
    NoBlanks (layout.timeChars places c) := by
  cases layout with
  | letterWithSeconds => exact noBlanks_charsIn places c
  | letterWithoutSeconds => exact noBlanks_shortChars c
  | blankWithSeconds => exact noBlanks_charsIn places c
  | blankWithoutSeconds => exact noBlanks_shortChars c

theorem timeChars_ne_nil
    (layout : WallLayout)
    (places : Nat)
    (c : ClockTime) :
    layout.timeChars places c ≠ [] := by
  cases layout <;>
    simp [Scan.WallLayout.timeChars, ClockTime.charsIn,
      ClockTime.shortChars]

theorem noBlanks_offset
    (offset : WrittenOffset) :
    NoBlanks offset.chars := by
  have hLetters :
      isBlank 'Z' = false ∧ isBlank 'z' = false := by
    decide
  have hColon : isBlank ':' = false := by decide
  have hSign (sign : OffsetSign) :
      isBlank sign.char = false := by
    cases sign <;> decide
  cases offset with
  | capitalZ => simp [WrittenOffset.chars, hLetters]
  | smallZ => simp [WrittenOffset.chars, hLetters]
  | signed sign hours minutes =>
      simp [WrittenOffset.chars, hColon, hSign]

/- Date and time are trimmed, whatever stands between them. -/
theorem trimmed_layoutChars
    {l : LocalTime}
    (hYear : 0 ≤ l.date.year ∧ l.date.year ≤ 9999)
    (layout : WallLayout)
    (places : Nat) :
    Trimmed (l.layoutChars layout places) := by
  have hTrimmed :=
    trimmed_between (noBlanks_date hYear)
      (by simp [Date.chars]) [layout.separatorChar]
      (noBlanks_timeChars layout places l.time)
      (timeChars_ne_nil layout places l.time)
  rwa [List.append_assoc] at hTrimmed

theorem trimmed_strictChars
    {l : LocalTime}
    (hYear : 0 ≤ l.date.year ∧ l.date.year ≤ 9999)
    (separator : Char)
    (places : Nat)
    (offset : WrittenOffset) :
    Trimmed (l.strictChars separator places offset) := by
  have hBack :
      NoBlanks (l.time.charsIn places ++ offset.chars) :=
    noBlanks_append_iff.mpr
      ⟨noBlanks_charsIn places l.time, noBlanks_offset offset⟩
  have hTrimmed :=
    trimmed_between (noBlanks_date hYear)
      (by simp [Date.chars]) [separator] hBack
      (by simp [ClockTime.charsIn])
  rwa [List.append_assoc] at hTrimmed

------------------------------------------------------------
-- Texts In One Piece
------------------------------------------------------------

namespace Scan

variable {l : LocalTime}
variable {rest : List Char}
variable {places : Nat}

/- The separator ends where the time of day begins. -/
theorem separator_takes
    (layout : WallLayout)
    (hFirst : NoBlankFirst rest) :
    layout.separator.Takes [layout.separatorChar] rest () := by
  have hBlank : blanks.Takes [' '] rest () :=
    congrArg (fun cs => some ((), cs)) hFirst
  cases layout with
  | letterWithSeconds => exact literal_takes 'T'
  | letterWithoutSeconds => exact literal_takes 'T'
  | blankWithSeconds => exact hBlank
  | blankWithoutSeconds => exact hBlank

/- A time of day without seconds, where they are zero. -/
theorem timeOfHourAndMinute_takes
    {gap : Scan Unit}
    {c : ClockTime}
    (hGap : IsGap gap)
    (hSecond : c.secondOfMinute = 0)
    (hNanos : c.nanos = 0) :
    (timeOfHourAndMinute gap).Takes c.shortChars rest c := by
  have hShown : c.shownSecond = 0 := by
    rw [ClockTime.shownSecond, hSecond, hNanos]
    rfl
  have hOrdinary : c.nanos < nanosPerSecond := by
    rw [hNanos]
    decide
  have hParts :=
    ClockTime.ofParts?_hour_minute_shownSecond hOrdinary
  rw [hShown, hNanos] at hParts
  apply ((strictHourAndMinute_narrower hGap).takes
    (strictHourAndMinute_takes c)).bind_nil
  simp only [hParts]
  exact pure_takes

theorem timeOfDay_takes
    {layout : WallLayout}
    {c : ClockTime}
    (hOrdinary : c.nanos < nanosPerSecond)
    (hExact : layout.IsExact places c) :
    layout.timeOfDay.Takes (layout.timeChars places c) [] c := by
  have hFull (hPlaces : ExactIn places c.nanos) :
      (timeWith nothing).Takes (c.charsIn places) [] c :=
    (strictTime_narrower isGap_nothing).takes
      (strictTime_takes hPlaces hOrdinary ⟨rfl, nofun⟩)
  have hShort (hZero : c.secondOfMinute = 0 ∧ c.nanos = 0) :
      (timeOfHourAndMinute nothing).Takes c.shortChars [] c :=
    timeOfHourAndMinute_takes isGap_nothing hZero.1 hZero.2
  cases layout with
  | letterWithSeconds => exact hFull hExact
  | letterWithoutSeconds => exact hShort hExact
  | blankWithSeconds => exact hFull hExact
  | blankWithoutSeconds => exact hShort hExact

theorem wallTime_takes
    {layout : WallLayout}
    (hYear : 0 ≤ l.date.year ∧ l.date.year ≤ 9999)
    (hOrdinary : l.time.nanos < nanosPerSecond)
    (hExact : layout.IsExact places l.time) :
    (wallTime layout).Takes (l.layoutChars layout places) []
      l := by
  have hFirst :
      NoBlankFirst (layout.timeChars places l.time ++ []) :=
    (noBlanks_timeChars layout places l.time).first_append
      (timeChars_ne_nil layout places l.time)
  apply ((strictDate_narrower isGap_nothing).takes
    (strictDate_takes hYear)).bind
  apply (separator_takes layout hFirst).bind
  apply (timeOfDay_takes hOrdinary hExact).bind_nil
  exact pure_takes

theorem strictInstant_takes
    {separator : Char}
    (hYear : 0 ≤ l.date.year ∧ l.date.year ≤ 9999)
    (hOrdinary : l.time.nanos < nanosPerSecond)
    (hSeparator : separator ∈ ['T', 't', ' '])
    (hExact : ExactIn places l.time.nanos)
    (offset : WrittenOffset) :
    strictInstant.Takes (l.strictChars separator places offset)
      []
      ⟨l.inUtc.seconds - offset.seconds, l.time.nanos⟩ := by
  have hSeparates {rest : List Char} :
      dateTimeSeparator.Takes [separator] rest () := by
    refine (oneOf_takes ?_).bind_nil pure_takes
    simpa [or_assoc] using hSeparator
  have hEnd : EndsFraction (offset.chars ++ []) := by
    rw [List.append_nil]
    exact endsFraction_offset offset
  rw [strictInstant_eq]
  apply (strictDate_takes hYear).bind
  apply hSeparates.bind
  apply (strictTime_takes hExact hOrdinary hEnd).bind
  apply (offsetWith_takes offset).bind_nil
  rw [atOffset_of_year hYear offset]
  exact pure_takes

end Scan

end EventSeries
