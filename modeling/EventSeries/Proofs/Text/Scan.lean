import EventSeries.Proofs.Text.Decimal
import EventSeries.Text.Scan

/-
  What scanners take off the front of a text.  A scanner that
  takes one piece and then another takes both of them.  A row
  of digits is taken whole where its width or the text behind
  it ends it.

  Main declarations:
    * `Scan.Takes`
    * `Scan.Takes.bind`
    * `Scan.whole?_of_takes`
    * `Scan.number_takes`
    * `Scan.pointAndDigits_takes`
-/

namespace EventSeries

------------------------------------------------------------
-- Digits In Front Of A Text
------------------------------------------------------------

/- The text does not go on with a digit. -/
def NoDigitFirst
    (rest : List Char) : Prop :=
  rest.takeWhile Char.isDigit = []

theorem noDigitFirst_cons
    {c : Char}
    {rest : List Char}
    (hOther : c.isDigit = false) :
    NoDigitFirst (c :: rest) := by
  simp [NoDigitFirst, hOther]

/- A digit is no blank. -/
theorem isBlank_of_isDigit
    {c : Char}
    (hDigit : c.isDigit = true) :
    isBlank c = false := by
  have hRange : 48 ≤ c.toNat ∧ c.toNat ≤ 57 :=
    Char.isDigit_iff_toNat.mp hDigit
  simp only [isBlank, Bool.or_eq_false_iff,
    Bool.and_eq_false_iff, decide_eq_false_iff_not,
    beq_eq_false_iff_ne]
  omega

/- The digits in front are the row, where no digit follows. -/
theorem takeWhile_isDigit_append
    {row rest : List Char}
    (hRow : ∀ c ∈ row, c.isDigit = true)
    (hEnd : NoDigitFirst rest) :
    (row ++ rest).takeWhile Char.isDigit = row := by
  rw [List.takeWhile_append_of_pos hRow, hEnd, List.append_nil]

namespace Scan

variable {α β : Type}

------------------------------------------------------------
-- Pieces
------------------------------------------------------------

/- The scanner takes a piece off a text and reads it so. -/
def Takes
    (scan : Scan α)
    (piece rest : List Char)
    (a : α) : Prop :=
  scan.run (piece ++ rest) = some (a, rest)

variable {scan : Scan α}
variable {next : α → Scan β}
variable {piece pieces rest : List Char}
variable {a : α}
variable {b : β}

theorem pure_takes :
    Takes (pure a) [] rest a :=
  rfl

/- One piece behind the other. -/
theorem Takes.bind
    (hFirst : scan.Takes piece (pieces ++ rest) a)
    (hNext : (next a).Takes pieces rest b) :
    (scan >>= next).Takes (piece ++ pieces) rest b := by
  unfold Takes at *
  rw [List.append_assoc, StateT.run_bind, hFirst]
  exact hNext

/- A piece, and then nothing more. -/
theorem Takes.bind_nil
    (hFirst : scan.Takes piece rest a)
    (hNext : (next a).Takes [] rest b) :
    (scan >>= next).Takes piece rest b := by
  have hBoth : (scan >>= next).Takes (piece ++ []) rest b :=
    hFirst.bind hNext
  rwa [List.append_nil] at hBoth

/- A look at the text, and then a piece. -/
theorem get_bind_takes
    {next : List Char → Scan β}
    (hNext : (next (piece ++ rest)).Takes piece rest b) :
    (get >>= next).Takes piece rest b := by
  simpa [Takes] using hNext

/- A character that has been looked at, and then a piece. -/
theorem set_bind_takes
    {c : Char}
    {scan : Scan β}
    (hScan : scan.Takes piece rest b) :
    (set (piece ++ rest) >>= fun _ => scan).Takes (c :: piece)
      rest b := by
  simpa [Takes] using hScan

/- A scanner that takes all of a text reads the text. -/
theorem whole?_of_takes
    (hTakes : scan.Takes piece [] a) :
    scan.whole? piece = some a := by
  unfold Takes at hTakes
  rw [List.append_nil] at hTakes
  rw [whole?, hTakes]

------------------------------------------------------------
-- Single Characters
------------------------------------------------------------

theorem oneOf_takes
    {ok : Char → Bool}
    {c : Char}
    (hOk : ok c = true) :
    (oneOf ok).Takes [c] rest c := by
  simp [Takes, oneOf, hOk]

theorem literal_takes
    (c : Char) :
    (literal c).Takes [c] rest () := by
  simp [Takes, literal, oneOf]

/- A character that is asked for, and then a piece. -/
theorem literal_bind_takes
    {next : Unit → Scan β}
    {c : Char}
    (hNext : (next ()).Takes piece rest b) :
    (literal c >>= next).Takes (c :: piece) rest b :=
  (literal_takes c).bind hNext

/- No blanks are taken where none stand. -/
theorem blanks_takes
    {c : Char}
    (hBlank : isBlank c = false) :
    blanks.Takes [] (c :: rest) () := by
  simp [Takes, blanks, trimStart, hBlank]

theorem blanks_takes_nil :
    blanks.Takes [] [] () :=
  rfl

/- Blanks that are absent, and then a piece. -/
theorem blanks_bind_takes
    {next : Unit → Scan β}
    {c : Char}
    (hBlank : isBlank c = false)
    (hNext : (next ()).Takes (c :: piece) rest b) :
    (blanks >>= next).Takes (c :: piece) rest b :=
  (blanks_takes hBlank).bind hNext

------------------------------------------------------------
-- Rows Of Digits
------------------------------------------------------------

/- The row is taken that the front of the text begins with. -/
theorem digitRow_takes_of_leadingDigits
    {width : Option Nat}
    {row : List Char}
    (hRow : leadingDigits width (row ++ rest) = row)
    (hSome : row ≠ []) :
    (digitRow width).Takes row rest row := by
  simp [Takes, digitRow, hRow, hSome]

/- A row that is as wide as it may be. -/
theorem digitRow_takes_of_width
    {row : List Char}
    (hRow : ∀ c ∈ row, c.isDigit = true)
    (hSome : row ≠ []) :
    (digitRow (some row.length)).Takes row rest row := by
  apply digitRow_takes_of_leadingDigits _ hSome
  rw [leadingDigits, List.takeWhile_append_of_pos hRow]
  exact List.take_left

/- A row that the text behind it ends. -/
theorem digitRow_takes
    {row : List Char}
    (hRow : ∀ c ∈ row, c.isDigit = true)
    (hSome : row ≠ [])
    (hEnd : NoDigitFirst rest) :
    (digitRow none).Takes row rest row := by
  apply digitRow_takes_of_leadingDigits _ hSome
  exact takeWhile_isDigit_append hRow hEnd

theorem digitRow_takes_paddedDigits
    {width : Nat}
    (hWidth : 0 < width)
    (n : Nat) :
    (digitRow (some width)).Takes (paddedDigits width n) rest
      (paddedDigits width n) := by
  rcases exists_paddedDigits_eq_cons hWidth n with
    ⟨c, cs, hDigits, _⟩
  have hRow :
      (digitRow (some (paddedDigits width n).length)).Takes
        (paddedDigits width n) rest (paddedDigits width n) :=
    digitRow_takes_of_width
      (fun _ hMember => isDigit_of_mem_paddedDigits hMember)
      (by simp [hDigits])
  rwa [length_paddedDigits] at hRow

/- A number of so many digits, without blanks in front. -/
theorem number_takes
    {width n : Nat}
    (hWidth : 0 < width)
    (hLess : n < 10 ^ width) :
    (number width).Takes (paddedDigits width n) rest n := by
  rcases exists_paddedDigits_eq_cons hWidth n with
    ⟨c, cs, hDigits, hDigit⟩
  have hBlanks :
      blanks.Takes [] (paddedDigits width n ++ rest) () := by
    rw [hDigits]
    exact blanks_takes (isBlank_of_isDigit hDigit)
  have hValue :
      (pure (valueOfDigits (paddedDigits width n)) :
        Scan Nat).Takes [] rest n := by
    rw [valueOfDigits_paddedDigits_of_lt hLess]
    exact pure_takes
  exact hBlanks.bind
    ((digitRow_takes_paddedDigits hWidth n).bind_nil hValue)

/- Digits of a fixed width, all of which are written. -/
theorem exactDigits_takes
    {width n : Nat}
    (hWidth : 0 < width)
    (hLess : n < 10 ^ width) :
    (exactDigits width).Takes (paddedDigits width n) rest n := by
  apply (digitRow_takes_paddedDigits hWidth n).bind_nil
  rw [length_paddedDigits, if_pos rfl,
    valueOfDigits_paddedDigits_of_lt hLess]
  exact pure_takes

/- A fraction of nine digits at most is read in nanoseconds. -/
theorem pointAndDigits_takes
    {width n : Nat}
    (hWidth : 0 < width ∧ width ≤ 9)
    (hLess : n < 10 ^ width)
    (hEnd : NoDigitFirst rest) :
    pointAndDigits.Takes ('.' :: paddedDigits width n) rest
      (n * 10 ^ (9 - width)) := by
  rcases exists_paddedDigits_eq_cons hWidth.1 n with
    ⟨c, cs, hDigits, _⟩
  have hRow :
      (digitRow none).Takes (paddedDigits width n) rest
        (paddedDigits width n) :=
    digitRow_takes
      (fun _ hMember => isDigit_of_mem_paddedDigits hMember)
      (by simp [hDigits]) hEnd
  have hKept :
      (paddedDigits width n).take 9 = paddedDigits width n :=
    List.take_of_length_le
      (by rw [length_paddedDigits]; exact hWidth.2)
  refine literal_bind_takes (hRow.bind_nil ?_)
  simp only [hKept, length_paddedDigits,
    valueOfDigits_paddedDigits_of_lt hLess]
  exact pure_takes

end Scan

end EventSeries
