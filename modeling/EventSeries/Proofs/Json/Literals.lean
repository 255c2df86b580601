import EventSeries.Json.Reading
import EventSeries.Proofs.Text.Scan

/-
  The numbers and the strings of a JSON text are read back.
  A string is read character by character: each is written as
  itself or as an escape, and the reading takes just that.  A
  number ends where the text goes on with none of its signs.

  Main declarations:
    * `Json.stringBody?_escaped`
    * `Json.stringBody?_stringBodyOnto`
    * `Json.stringValue?_stringBodyOnto`
    * `Json.key?_stringOnto`
    * `Json.EndsNumber`
    * `Json.number?_signedDigits`
-/

namespace EventSeries.Json

------------------------------------------------------------
-- Characters Of A String
------------------------------------------------------------

/- A control character is read from its number. -/
theorem unicodeEscape?_control
    {c : Char}
    (hControl : c.toNat < 32)
    (rest : List Char) :
    unicodeEscape?
        ('0' :: '0' :: escapeDigit (c.toNat / 16)
          :: escapeDigit (c.toNat % 16) :: rest) =
      some (some c, rest) := by
  have hDigits :
      ∀ n < 32,
        valueOfHexDigits? ['0', '0', escapeDigit (n / 16),
          escapeDigit (n % 16)] = some n := by
    decide
  have hHigh : isHighSurrogate c.toNat = false := by
    simp only [isHighSurrogate, Bool.and_eq_false_iff,
      decide_eq_false_iff_not]
    omega
  have hLow : isLowSurrogate c.toNat = false := by
    simp only [isLowSurrogate, Bool.and_eq_false_iff,
      decide_eq_false_iff_not]
    omega
  simp [unicodeEscape?, hexUnit?, hDigits c.toNat hControl,
    hHigh, hLow]

/- A character in front of what is read of a string. -/
def consChar
    (c : Char) :
    Option (List Char) × List Char →
      Option (List Char) × List Char
  | (others, rest) => (others.map (c :: ·), rest)

/- An escape is read, and then the others. -/
theorem stringBody?_escape
    {c : Char}
    {escape rest : List Char}
    (hEscape : escape? escape = some (some c, rest))
    (fuel : Nat) :
    stringBody? (fuel + 1) ('\\' :: escape) =
      (stringBody? fuel rest).map (consChar c) := by
  rw [stringBody?, if_neg (by decide), if_pos rfl, hEscape]
  cases hOthers : stringBody? fuel rest <;>
    simp [hOthers, consChar]

/- A character that needs no escape stands for itself. -/
theorem stringBody?_plain
    {c : Char}
    (hQuote : c ≠ '\"')
    (hBackslash : c ≠ '\\')
    (hText : ¬ c.toNat < 32)
    (rest : List Char)
    (fuel : Nat) :
    stringBody? (fuel + 1) (c :: rest) =
      (stringBody? fuel rest).map (consChar c) := by
  rw [stringBody?, if_neg hQuote, if_neg hBackslash,
    if_neg hText]
  cases stringBody? fuel rest <;> rfl

/-
  One character of a string is read as it was written, and
  then the others are read.
-/
theorem stringBody?_escaped
    (c : Char)
    (rest : List Char)
    (fuel : Nat) :
    stringBody? (fuel + 1) (escaped c ++ rest) =
      (stringBody? fuel rest).map (consChar c) := by
  unfold escaped
  split
  · rename_i hQuote
    subst hQuote
    exact stringBody?_escape rfl fuel
  rename_i hQuote
  split
  · rename_i hBackslash
    subst hBackslash
    exact stringBody?_escape rfl fuel
  rename_i hBackslash
  split
  · rename_i hNewLine
    subst hNewLine
    exact stringBody?_escape rfl fuel
  split
  · rename_i hReturn
    subst hReturn
    exact stringBody?_escape rfl fuel
  split
  · rename_i hTab
    subst hTab
    exact stringBody?_escape rfl fuel
  split
  · rename_i hBackspace
    have hChar : c = '\x08' := Char.toNat_inj.mp hBackspace
    subst hChar
    exact stringBody?_escape rfl fuel
  split
  · rename_i hFormFeed
    have hChar : c = '\x0c' := Char.toNat_inj.mp hFormFeed
    subst hChar
    exact stringBody?_escape rfl fuel
  split
  · rename_i hControl
    have hEscape :
        escape?
            ('u' :: '0' :: '0' :: escapeDigit (c.toNat / 16)
              :: escapeDigit (c.toNat % 16) :: rest) =
          some (some c, rest) :=
      unicodeEscape?_control hControl rest
    exact stringBody?_escape hEscape fuel
  · rename_i hText
    exact stringBody?_plain hQuote hBackslash hText rest fuel

------------------------------------------------------------
-- Strings
------------------------------------------------------------

theorem length_lt_stringBodyOnto
    (cs rest : List Char) :
    cs.length + rest.length <
      (stringBodyOnto cs rest).length := by
  induction cs with
  | nil => simp [stringBodyOnto]
  | cons c cs ih =>
      have hEscaped : 1 ≤ (escaped c).length := by
        unfold escaped
        repeat' split
        all_goals simp [numberedEscape]
      rw [stringBodyOnto, List.length_append,
        List.length_cons]
      omega

theorem length_lt_stringOnto
    (s : String)
    (rest : List Char) :
    rest.length < (stringOnto s rest).length := by
  have hBody := length_lt_stringBodyOnto s.toList rest
  rw [stringOnto, List.length_cons]
  omega

/- The inside of a string is read up to its closing quote. -/
theorem stringBody?_stringBodyOnto
    (cs rest : List Char)
    {fuel : Nat}
    (hFuel : cs.length < fuel) :
    stringBody? fuel (stringBodyOnto cs rest) =
      some (some cs, rest) := by
  induction cs generalizing fuel with
  | nil =>
      rcases Nat.exists_eq_add_of_lt hFuel with ⟨n, rfl⟩
      simp [stringBodyOnto, stringBody?]
  | cons c cs ih =>
      cases fuel with
      | zero => exact absurd hFuel (Nat.not_lt_zero _)
      | succ fuel =>
          rw [stringBodyOnto, stringBody?_escaped,
            ih (Nat.lt_of_succ_lt_succ hFuel)]
          rfl

theorem stringValue?_stringBodyOnto
    (s : String)
    (rest : List Char) :
    stringValue? (stringBodyOnto s.toList rest) =
      some (.text s, rest) := by
  have hLength := length_lt_stringBodyOnto s.toList rest
  rw [stringValue?,
    stringBody?_stringBodyOnto s.toList rest (by omega)]
  simp

/- A key is read with its colon. -/
theorem key?_stringOnto
    (s : String)
    (rest : List Char) :
    key? (stringOnto s (':' :: rest)) = some (some s, rest) := by
  have hLength := length_lt_stringBodyOnto s.toList (':' :: rest)
  have hColon : skipSpace (':' :: rest) = ':' :: rest := rfl
  rw [stringOnto, key?,
    stringBody?_stringBodyOnto s.toList _ (by omega)]
  simp [hColon]

------------------------------------------------------------
-- Numbers
------------------------------------------------------------

/- The text does not go on with a part of a number. -/
structure EndsNumber
    (rest : List Char) : Prop where
  noDigit : NoDigitFirst rest
  noPoint : rest.head? ≠ some '.'
  noExponent :
    rest.head? ≠ some 'e' ∧ rest.head? ≠ some 'E'

theorem endsNumber_nil :
    EndsNumber [] :=
  ⟨rfl, by simp, by simp⟩

/- A whole part is read up to its last digit. -/
theorem wholePart?_digits
    (n : Nat)
    {rest : List Char}
    (hEnd : EndsNumber rest) :
    wholePart? (digits n ++ rest) = some (digits n, rest) := by
  have hRow :
      (digits n ++ rest).takeWhile Char.isDigit = digits n :=
    takeWhile_isDigit_append
      (fun _ hMember => isDigit_of_mem_digits hMember)
      hEnd.noDigit
  rcases Nat.eq_zero_or_pos n with rfl | hPos
  · rw [digits_of_lt (by decide)]
    rfl
  · rcases exists_digits_eq_cons n with
      ⟨c, cs, hDigits, _, hZero⟩
    rw [hDigits] at hRow ⊢
    unfold wholePart?
    split
    · rename_i hHead
      exact absurd (List.cons.inj hHead).1 (hZero hPos)
    · rw [List.cons_append] at hRow ⊢
      simp [hRow]

theorem unsignedNumber?_digits
    (negative : Bool)
    (n : Nat)
    {rest : List Char}
    (hEnd : EndsNumber rest) :
    unsignedNumber? negative (digits n ++ rest) =
      some (numberOf negative (digits n) [], rest) := by
  have hFraction : fractionPart? rest = some ([], rest) := by
    unfold fractionPart?
    split
    · exact absurd rfl hEnd.noPoint
    · rfl
  have hExponent : exponentPart? rest = some ([], rest) := by
    unfold exponentPart?
    split
    · rename_i c rest
      have hOther : ¬ (c = 'e' ∨ c = 'E') := by
        simpa using hEnd.noExponent
      rw [if_neg hOther]
    · rfl
  simp [unsignedNumber?, wholePart?_digits n hEnd, hFraction,
    hExponent]

/- A number without a tail is the integer of its digits. -/
theorem numberOf_digits
    {negative : Bool}
    {n : Nat}
    (hZero : negative = true → n ≠ 0) :
    numberOf negative (digits n) [] =
      .integer (if negative then -(n : Int) else n) := by
  have hWhole :
      (negative && digits n == ['0']) = false := by
    cases negative with
    | false => rfl
    | true =>
        simp only [Bool.true_and, beq_eq_false_iff_ne]
        intro hSame
        apply head?_digits (Nat.pos_of_ne_zero (hZero rfl))
        rw [hSame]
        rfl
  simp [numberOf, hWhole]

/- The first characters of integers. -/
def Numeric
    (c : Char) : Prop :=
  c = '-' ∨ c.isDigit = true

theorem Numeric.ne
    {c d : Char}
    (hNumeric : Numeric c)
    (hOther : d ≠ '-' ∧ d.isDigit = false) :
    c ≠ d := by
  rintro rfl
  rcases hNumeric with hMinus | hDigit
  · exact hOther.1 hMinus
  · rw [hOther.2] at hDigit
    cases hDigit

theorem exists_signedDigits_eq_cons
    (n : Int) :
    ∃ c cs, signedDigits n = c :: cs ∧ Numeric c := by
  rcases exists_digits_eq_cons n.natAbs with
    ⟨c, cs, hDigits, hDigit, _⟩
  unfold signedDigits
  split
  · exact ⟨'-', _, rfl, .inl rfl⟩
  · exact ⟨c, cs, hDigits, .inr hDigit⟩

/- An integer is read back from its digits and its sign. -/
theorem number?_signedDigits
    (n : Int)
    {rest : List Char}
    (hEnd : EndsNumber rest) :
    number? (signedDigits n ++ rest) =
      some (.integer n, rest) := by
  unfold signedDigits
  split
  · rename_i hNegative
    have hValue : -(n.natAbs : Int) = n := by omega
    rw [List.cons_append, number?,
      unsignedNumber?_digits true n.natAbs hEnd,
      numberOf_digits (fun _ => by omega), if_pos rfl, hValue]
  · rename_i hNatural
    have hValue : (n.natAbs : Int) = n := by omega
    have hRead := unsignedNumber?_digits false n.natAbs hEnd
    rw [numberOf_digits (by simp), if_neg (by decide),
      hValue] at hRead
    rcases exists_digits_eq_cons n.natAbs with
      ⟨c, cs, hDigits, hDigit, _⟩
    rw [hDigits] at hRead ⊢
    unfold number?
    split
    · rename_i hHead
      rw [(List.cons.inj hHead).1] at hDigit
      exact absurd hDigit (by decide)
    · exact hRead

end EventSeries.Json
