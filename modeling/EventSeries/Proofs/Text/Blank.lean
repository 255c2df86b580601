import EventSeries.Text.Blank
import Mathlib.Data.List.DropRight
import Mathlib.Data.List.TakeWhile

/-
  Trimming takes the blanks off both ends of a text and leaves
  a text without blanks at its ends as it is, so that a text
  is trimmed once and for all.

  Main declarations:
    * `NoBlankFirst`
    * `Trimmed`
    * `trimmed_trimChars`
    * `trimChars_of_trimmed`
    * `trimChars_trimChars`
-/

namespace EventSeries

------------------------------------------------------------
-- The Front Of A Text
------------------------------------------------------------

/- The text does not begin with a blank. -/
def NoBlankFirst
    (cs : List Char) : Prop :=
  trimStart cs = cs

theorem noBlankFirst_cons_iff
    {c : Char}
    {cs : List Char} :
    NoBlankFirst (c :: cs) ↔ isBlank c = false := by
  rw [NoBlankFirst, trimStart, List.dropWhile_eq_self_iff]
  simp

theorem noBlankFirst_trimStart
    (cs : List Char) :
    NoBlankFirst (trimStart cs) :=
  List.dropWhile_idempotent isBlank cs

/- Nor does a text that such a text begins with. -/
theorem NoBlankFirst.front
    {cs ds : List Char}
    (hFirst : NoBlankFirst ds)
    (hPrefix : cs <+: ds) :
    NoBlankFirst cs := by
  cases cs with
  | nil => rfl
  | cons c cs =>
      rcases hPrefix with ⟨rest, rfl⟩
      rw [List.cons_append, noBlankFirst_cons_iff] at hFirst
      exact noBlankFirst_cons_iff.mpr hFirst

/- Blanks in front of a text are taken off it. -/
theorem trimStart_append
    {before cs : List Char}
    (hBlank : ∀ c ∈ before, isBlank c = true) :
    trimStart (before ++ cs) = trimStart cs :=
  List.dropWhile_append_of_pos hBlank

/- The text has no blanks at all. -/
def NoBlanks
    (cs : List Char) : Prop :=
  ∀ c ∈ cs, isBlank c = false

@[simp] theorem noBlanks_nil :
    NoBlanks [] :=
  nofun

@[simp] theorem noBlanks_cons_iff
    {c : Char}
    {cs : List Char} :
    NoBlanks (c :: cs) ↔ isBlank c = false ∧ NoBlanks cs :=
  List.forall_mem_cons

@[simp] theorem noBlanks_append_iff
    {cs ds : List Char} :
    NoBlanks (cs ++ ds) ↔ NoBlanks cs ∧ NoBlanks ds :=
  List.forall_mem_append

theorem NoBlanks.first_append
    {cs rest : List Char}
    (hNone : NoBlanks cs)
    (hSome : cs ≠ []) :
    NoBlankFirst (cs ++ rest) := by
  cases cs with
  | nil => exact absurd rfl hSome
  | cons c cs =>
      exact noBlankFirst_cons_iff.mpr
        (hNone c List.mem_cons_self)

------------------------------------------------------------
-- Both Ends Of A Text
------------------------------------------------------------

/- The text neither begins nor ends with a blank. -/
structure Trimmed
    (cs : List Char) : Prop where
  first : NoBlankFirst cs
  last : NoBlankFirst cs.reverse

/- Pieces without blanks at both ends are enough. -/
theorem trimmed_between
    {front back : List Char}
    (hFront : NoBlanks front)
    (hFrontSome : front ≠ [])
    (mid : List Char)
    (hBack : NoBlanks back)
    (hBackSome : back ≠ []) :
    Trimmed (front ++ mid ++ back) := by
  constructor
  · rw [List.append_assoc]
    exact hFront.first_append hFrontSome
  · rw [List.reverse_append]
    refine NoBlanks.first_append ?_ (by simpa using hBackSome)
    exact fun c hMember => hBack c (List.mem_reverse.mp hMember)

theorem trimmed_trimChars
    (cs : List Char) :
    Trimmed (trimChars cs) := by
  have hPrefix : trimChars cs <+: trimStart cs :=
    List.rdropWhile_prefix isBlank (trimStart cs)
  constructor
  · exact (noBlankFirst_trimStart cs).front hPrefix
  · rw [trimChars, List.reverse_reverse]
    exact noBlankFirst_trimStart _

/- What stands between blanks is left, if it is trimmed. -/
theorem trimChars_of_trimmed
    {before cs after : List Char}
    (hTrimmed : Trimmed cs)
    (hBefore : ∀ c ∈ before, isBlank c = true)
    (hAfter : ∀ c ∈ after, isBlank c = true) :
    trimChars (before ++ cs ++ after) = cs := by
  have hFront : trimStart (cs ++ after) = cs ++ after ∨
      cs = [] := by
    cases cs with
    | nil => exact Or.inr rfl
    | cons c cs =>
        left
        have hFirst := noBlankFirst_cons_iff.mp hTrimmed.first
        exact noBlankFirst_cons_iff.mpr hFirst
  have hBack : ∀ c ∈ after.reverse, isBlank c = true := by
    intro c hMember
    exact hAfter c (List.mem_reverse.mp hMember)
  rw [List.append_assoc, trimChars, trimStart_append hBefore]
  rcases hFront with hFront | rfl
  · rw [hFront, List.reverse_append, trimStart_append hBack,
      hTrimmed.last, List.reverse_reverse]
  · have hNone : trimStart after = [] := by
      rw [← List.append_nil after, trimStart_append hAfter]
      rfl
    rw [List.nil_append, hNone]
    rfl

@[simp] theorem trimChars_trimChars
    (cs : List Char) :
    trimChars (trimChars cs) = trimChars cs := by
  have hOnce :
      trimChars ([] ++ trimChars cs ++ []) = trimChars cs :=
    trimChars_of_trimmed (trimmed_trimChars cs) nofun nofun
  rwa [List.nil_append, List.append_nil] at hOnce

@[simp] theorem toList_trim
    (s : String) :
    (trim s).toList = trimChars s.toList := by
  rw [trim, String.toList_ofList]

end EventSeries
