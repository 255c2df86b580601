import EventSeries.Identifier
import Mathlib.Algebra.Ring.Nat

/-
  An identifier is read back from its text.  Its 32 digits
  are those of a number of 128 bits, and the hyphens stand
  where the reading looks for them.

  Main declarations:
    * `valueOfHexDigits?_hexDigits`
    * `Id.withoutHyphens?_of_lengths`
    * `Id.withoutHyphens?_chars`
    * `Id.unwrapped_chars`
    * `Id.ofText?_text`
-/

namespace EventSeries

------------------------------------------------------------
-- Hexadecimal Digits
------------------------------------------------------------

/- A remainder by 16 is a digit, and its own value. -/
@[simp] theorem hexValue?_hexChar
    (n : Nat) :
    hexValue? (hexChar (n % 16)) = some (n % 16) := by
  have hDigits : ∀ d < 16, hexValue? (hexChar d) = some d := by
    decide
  exact hDigits (n % 16) (Nat.mod_lt n (by decide))

theorem valueOfHexDigits?_concat
    (cs : List Char)
    (c : Char) :
    valueOfHexDigits? (cs ++ [c]) =
      (valueOfHexDigits? cs).bind fun n =>
        (hexValue? c).map (16 * n + ·) := by
  simp [valueOfHexDigits?, List.foldlM_append]

@[simp] theorem length_hexDigits
    (width n : Nat) :
    (hexDigits width n).length = width := by
  induction width generalizing n with
  | zero => rfl
  | succ width ih => simp [hexDigits, ih]

/- So many last digits write the remainder of a number. -/
theorem valueOfHexDigits?_hexDigits
    (width n : Nat) :
    valueOfHexDigits? (hexDigits width n) =
      some (n % 16 ^ width) := by
  induction width generalizing n with
  | zero => simp [hexDigits, valueOfHexDigits?, Nat.mod_one]
  | succ width ih =>
      rw [hexDigits, valueOfHexDigits?_concat, ih,
        Option.bind_some, hexValue?_hexChar, Option.map_some,
        Nat.pow_succ', Nat.mod_mul, Nat.add_comm]

/- The first digit is one of the sixteen. -/
theorem exists_hexDigits_eq_cons
    (width n : Nat) :
    ∃ d < 16, ∃ cs,
      hexDigits (width + 1) n = hexChar d :: cs := by
  induction width generalizing n with
  | zero =>
      exact ⟨n % 16, Nat.mod_lt n (by decide), [], rfl⟩
  | succ width ih =>
      rcases ih (n / 16) with ⟨d, hDigit, cs, hDigits⟩
      exact ⟨d, hDigit, cs ++ [hexChar (n % 16)],
        by rw [hexDigits, hDigits, List.cons_append]⟩

namespace Id

------------------------------------------------------------
-- Hyphens
------------------------------------------------------------

/- Groups of these lengths are put together again. -/
theorem withoutHyphens?_of_lengths
    {first second third fourth last : List Char}
    (hFirst : first.length = 8)
    (hSecond : second.length = 4)
    (hThird : third.length = 4)
    (hFourth : fourth.length = 4)
    (hLast : last.length = 12) :
    withoutHyphens?
        (first ++ '-' :: second ++ '-' :: third
          ++ '-' :: fourth ++ '-' :: last) =
      some (first ++ second ++ third ++ fourth ++ last) := by
  simp [withoutHyphens?, List.drop_append,
    List.drop_of_length_le, hFirst, hSecond, hThird, hFourth,
    hLast]

/- The digits of an identifier. -/
def hex
    (id : Id) : List Char :=
  hexDigits 32 id.bits.toNat

/- The groups of the digits are all of them. -/
theorem withoutHyphens?_chars
    (id : Id) :
    withoutHyphens? id.chars = some id.hex := by
  have hSplit :
      ∀ start size,
        (id.hex.drop start).take size
            ++ id.hex.drop (start + size) =
          id.hex.drop start := by
    intro start size
    rw [← List.drop_drop]
    exact List.take_append_drop size (id.hex.drop start)
  have hGroups :
      id.hex.take 8 ++ (id.hex.drop 8).take 4
          ++ (id.hex.drop 12).take 4 ++ (id.hex.drop 16).take 4
          ++ id.hex.drop 20 = id.hex := by
    simp only [List.append_assoc]
    rw [hSplit 16 4, hSplit 12 4, hSplit 8 4]
    exact List.take_append_drop 8 id.hex
  have hParts :
      withoutHyphens? id.chars =
        some (id.hex.take 8 ++ (id.hex.drop 8).take 4
          ++ (id.hex.drop 12).take 4 ++ (id.hex.drop 16).take 4
          ++ id.hex.drop 20) := by
    apply withoutHyphens?_of_lengths <;> simp
  rw [hParts, hGroups]

/- No text in braces and no URN begins with a digit. -/
theorem unwrapped_chars
    (id : Id) :
    unwrapped id.chars = id.chars := by
  rcases exists_hexDigits_eq_cons 31 id.bits.toNat with
    ⟨d, hDigit, cs, hDigits⟩
  have hOther :
      ∀ d < 16, (hexChar d).toLower ≠ 'u' ∧
        hexChar d ≠ '\x7b' := by
    decide
  have hChars : ∃ rest, id.chars = hexChar d :: rest := by
    rw [chars, hDigits]
    exact ⟨_, rfl⟩
  rcases hChars with ⟨rest, hChars⟩
  rcases hOther d hDigit with ⟨hLetter, hBrace⟩
  have hUrn :
      (id.chars.take urnStart.length).map Char.toLower ≠
        urnStart := by
    intro hSame
    rw [hChars] at hSame
    exact hLetter (List.cons.inj hSame).1
  unfold unwrapped
  rw [if_neg hUrn, hChars]
  split
  · rename_i hHead
    exact absurd (List.cons.inj hHead).1 hBrace
  · rfl

/- An identifier is what its text reads as. -/
theorem ofText?_text
    (id : Id) :
    ofText? id.text = some id := by
  have hLength : id.chars.length ≠ 32 := by
    simp [chars]
  have hDigits : id.hex.length = 32 := length_hexDigits _ _
  have hBits : id.bits.toNat % 16 ^ 32 = id.bits.toNat :=
    Nat.mod_eq_of_lt id.bits.isLt
  rw [ofText?, text, String.toList_ofList, ofChars?,
    if_neg hLength, unwrapped_chars, ofHyphenated?,
    withoutHyphens?_chars, Option.bind_some, ofHexDigits?,
    if_pos hDigits, hex, valueOfHexDigits?_hexDigits, hBits]
  simp

end Id

end EventSeries
