import EventSeries.Text.Decimal
import Mathlib.Algebra.Ring.Nat

/-
  Numbers in decimal are read back as they were written.  The
  digits of a number have no zero in front unless they are all
  of it, and so many last digits of it write the remainder.

  Main declarations:
    * `valueOfDigits_concat`
    * `valueOfDigits_digits`
    * `valueOfDigits_paddedDigits`
    * `valueOfDigits_digitsAtLeast`
    * `digits_injective`
    * `length_digits_le`
-/

namespace EventSeries

------------------------------------------------------------
-- Single Digits
------------------------------------------------------------

/- A remainder by ten is a digit, and its own value. -/
theorem digitChar_spec
    (n : Nat) :
    (digitChar (n % 10)).isDigit = true ∧
      digitValue (digitChar (n % 10)) = n % 10 := by
  have hDigits :
      ∀ d < 10, (digitChar d).isDigit = true ∧
        digitValue (digitChar d) = d := by
    decide
  exact hDigits (n % 10) (Nat.mod_lt n (by decide))

@[simp] theorem isDigit_digitChar
    (n : Nat) :
    (digitChar (n % 10)).isDigit = true :=
  (digitChar_spec n).1

@[simp] theorem digitValue_digitChar
    (n : Nat) :
    digitValue (digitChar (n % 10)) = n % 10 :=
  (digitChar_spec n).2

theorem isDigit_digitChar_of_lt
    {n : Nat}
    (hLess : n < 10) :
    (digitChar n).isDigit = true := by
  have hDigit := isDigit_digitChar n
  rwa [Nat.mod_eq_of_lt hLess] at hDigit

------------------------------------------------------------
-- Rows Of Digits
------------------------------------------------------------

@[simp] theorem valueOfDigits_nil :
    valueOfDigits [] = 0 := rfl

theorem valueOfDigits_concat
    (cs : List Char)
    (c : Char) :
    valueOfDigits (cs ++ [c]) =
      10 * valueOfDigits cs + digitValue c := by
  simp [valueOfDigits, List.foldl_append]

@[simp] theorem length_paddedDigits
    (width n : Nat) :
    (paddedDigits width n).length = width := by
  induction width generalizing n with
  | zero => rfl
  | succ width ih => simp [paddedDigits, ih]

theorem isDigit_of_mem_paddedDigits
    {width n : Nat}
    {c : Char}
    (hMember : c ∈ paddedDigits width n) :
    c.isDigit = true := by
  induction width generalizing n with
  | zero => cases hMember
  | succ width ih =>
      rw [paddedDigits, List.mem_append,
        List.mem_singleton] at hMember
      rcases hMember with hFront | rfl
      · exact ih hFront
      · exact isDigit_digitChar n

/- A padded number of a digit or more begins with a digit. -/
theorem exists_paddedDigits_eq_cons
    {width : Nat}
    (hWidth : 0 < width)
    (n : Nat) :
    ∃ c cs, paddedDigits width n = c :: cs ∧
      c.isDigit = true := by
  cases hDigits : paddedDigits width n with
  | nil =>
      have hLength := length_paddedDigits width n
      rw [hDigits] at hLength
      exact absurd hLength (Nat.ne_of_lt hWidth)
  | cons c cs =>
      have hMember : c ∈ paddedDigits width n := by
        simp [hDigits]
      exact ⟨c, cs, rfl, isDigit_of_mem_paddedDigits hMember⟩

/- So many last digits write the remainder of a number. -/
theorem valueOfDigits_paddedDigits
    (width n : Nat) :
    valueOfDigits (paddedDigits width n) = n % 10 ^ width := by
  induction width generalizing n with
  | zero => simp [paddedDigits, Nat.mod_one]
  | succ width ih =>
      rw [paddedDigits, valueOfDigits_concat, ih,
        digitValue_digitChar, Nat.pow_succ',
        Nat.mod_mul, Nat.add_comm]

theorem valueOfDigits_paddedDigits_of_lt
    {width n : Nat}
    (hLess : n < 10 ^ width) :
    valueOfDigits (paddedDigits width n) = n := by
  rw [valueOfDigits_paddedDigits, Nat.mod_eq_of_lt hLess]

------------------------------------------------------------
-- Numbers
------------------------------------------------------------

theorem digits_of_lt
    {n : Nat}
    (hLess : n < 10) :
    digits n = [digitChar n] := by
  rw [digits, if_pos hLess]

theorem digits_of_le
    {n : Nat}
    (hLe : 10 ≤ n) :
    digits n = digits (n / 10) ++ [digitChar (n % 10)] := by
  rw [digits, if_neg (Nat.not_lt.mpr hLe)]

theorem isDigit_of_mem_digits
    {n : Nat}
    {c : Char}
    (hMember : c ∈ digits n) :
    c.isDigit = true := by
  induction n using Nat.strongRecOn with
  | ind n ih =>
      by_cases hLess : n < 10
      · rw [digits_of_lt hLess, List.mem_singleton] at hMember
        subst hMember
        exact isDigit_digitChar_of_lt hLess
      · rw [digits_of_le (by omega), List.mem_append,
          List.mem_singleton] at hMember
        rcases hMember with hFront | rfl
        · exact ih (n / 10) (by omega) hFront
        · exact isDigit_digitChar n

theorem digits_ne_nil
    (n : Nat) :
    digits n ≠ [] := by
  rw [digits]
  split <;> simp

/- A number is read back from its digits. -/
@[simp] theorem valueOfDigits_digits
    (n : Nat) :
    valueOfDigits (digits n) = n := by
  induction n using Nat.strongRecOn with
  | ind n ih =>
      by_cases hLess : n < 10
      · have hValue := digitValue_digitChar n
        rw [Nat.mod_eq_of_lt hLess] at hValue
        simp [digits_of_lt hLess, valueOfDigits, hValue]
      · rw [digits_of_le (by omega), valueOfDigits_concat,
          ih (n / 10) (by omega), digitValue_digitChar]
        omega

theorem digits_injective
    {m n : Nat}
    (hSame : digits m = digits n) :
    m = n := by
  rw [← valueOfDigits_digits m, hSame, valueOfDigits_digits]

/- Numbers below a power of ten have that many digits at most. -/
theorem length_digits_le
    {width n : Nat}
    (hSome : 0 < width)
    (hLess : n < 10 ^ width) :
    (digits n).length ≤ width := by
  induction width generalizing n with
  | zero => exact absurd hSome (Nat.lt_irrefl 0)
  | succ width ih =>
      by_cases hDigit : n < 10
      · rw [digits_of_lt hDigit]
        exact Nat.le_add_left 1 width
      · have hFront : n / 10 < 10 ^ width :=
          Nat.div_lt_of_lt_mul (by rwa [← Nat.pow_succ'])
        have hMore : 0 < width := by
          by_contra hNone
          rw [Nat.eq_zero_of_not_pos hNone] at hLess
          exact hDigit hLess
        rw [digits_of_le (Nat.le_of_not_lt hDigit),
          List.length_append]
        exact Nat.add_le_add_right (ih hMore hFront) 1

/- Only zero is written with a zero in front. -/
theorem head?_digits
    {n : Nat}
    (hPos : 0 < n) :
    (digits n).head? ≠ some '0' := by
  induction n using Nat.strongRecOn with
  | ind n ih =>
      by_cases hLess : n < 10
      · have hFirst :
            ∀ d < 10, 0 < d → digitChar d ≠ '0' := by
          decide
        rw [digits_of_lt hLess, List.head?_singleton, ne_eq,
          Option.some.injEq]
        exact hFirst n hLess hPos
      · have hFront := ih (n / 10) (by omega) (by omega)
        have hSome := digits_ne_nil (n / 10)
        rw [digits_of_le (by omega)]
        cases hDigits : digits (n / 10) with
        | nil => exact absurd hDigits hSome
        | cons c cs =>
            rw [hDigits] at hFront
            exact hFront

/- A number begins with a digit, and only zero with zero. -/
theorem exists_digits_eq_cons
    (n : Nat) :
    ∃ c cs, digits n = c :: cs ∧ c.isDigit = true ∧
      (0 < n → c ≠ '0') := by
  cases hDigits : digits n with
  | nil => exact absurd hDigits (digits_ne_nil n)
  | cons c cs =>
      have hMember : c ∈ digits n := by
        simp [hDigits]
      refine ⟨c, cs, rfl, isDigit_of_mem_digits hMember, ?_⟩
      intro hPos hZero
      apply head?_digits hPos
      rw [hDigits, hZero]
      rfl

theorem isDigit_of_mem_digitsAtLeast
    {width n : Nat}
    {c : Char}
    (hMember : c ∈ digitsAtLeast width n) :
    c.isDigit = true := by
  unfold digitsAtLeast at hMember
  split at hMember
  · exact isDigit_of_mem_paddedDigits hMember
  · exact isDigit_of_mem_digits hMember

@[simp] theorem valueOfDigits_digitsAtLeast
    (width n : Nat) :
    valueOfDigits (digitsAtLeast width n) = n := by
  unfold digitsAtLeast
  split
  · exact valueOfDigits_paddedDigits_of_lt ‹_›
  · exact valueOfDigits_digits n

theorem digitsAtLeast_ne_nil
    {width n : Nat}
    (hWidth : 0 < width) :
    digitsAtLeast width n ≠ [] := by
  unfold digitsAtLeast
  split
  · apply List.ne_nil_of_length_pos
    rw [length_paddedDigits]
    exact hWidth
  · exact digits_ne_nil n

end EventSeries
