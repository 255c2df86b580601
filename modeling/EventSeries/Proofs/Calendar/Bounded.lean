import EventSeries.Calendar.Date

/-
  Laws of results that may have left their range.  A sequence
  of steps returns what its last step returns, if all of them
  return; and what is shown of the result of each step is
  shown of the whole.

  Main declarations:
    * `Bounded.bind_eq_ok_iff`
    * `Bounded.Meets`
    * `Bounded.Meets.bind`
    * `Bounded.Meets.mono`
-/

namespace EventSeries.Bounded

variable {α β : Type}
variable {x : Bounded α}

------------------------------------------------------------
-- Sequences Of Steps
------------------------------------------------------------

/- Two steps return where both of them do. -/
theorem bind_eq_ok_iff
    {f : α → Bounded β}
    {b : β} :
    x >>= f = .ok b ↔ ∃ a, x = .ok a ∧ f a = .ok b := by
  cases x <;> simp [bind, Except.bind]

/- A step followed by a function returns where the step does. -/
theorem map_eq_ok_iff
    {f : α → β}
    {b : β} :
    f <$> x = .ok b ↔ ∃ a, x = .ok a ∧ f a = b := by
  cases x <;> simp [Functor.map, Except.map]

------------------------------------------------------------
-- Results That Are In Range
------------------------------------------------------------

variable {P : α → Prop}
variable {Q : β → Prop}

/- The arithmetic stays in range, with a result like this. -/
def Meets
    (x : Bounded α)
    (P : α → Prop) : Prop :=
  ∃ a, x = .ok a ∧ P a

namespace Meets

theorem bind
    {f : α → Bounded β}
    (hFirst : Meets x P)
    (hThen : ∀ a, P a → Meets (f a) Q) :
    Meets (x >>= f) Q := by
  obtain ⟨a, rfl, ha⟩ := hFirst
  exact hThen a ha

theorem map
    {f : α → β}
    (hFirst : Meets x P)
    (hThen : ∀ a, P a → Q (f a)) :
    Meets (f <$> x) Q := by
  obtain ⟨a, rfl, ha⟩ := hFirst
  exact ⟨f a, rfl, hThen a ha⟩

theorem mono
    {P' : α → Prop}
    (hMeets : Meets x P)
    (hThen : ∀ a, P a → P' a) :
    Meets x P' := by
  obtain ⟨a, hx, ha⟩ := hMeets
  exact ⟨a, hx, hThen a ha⟩

end Meets

end EventSeries.Bounded
