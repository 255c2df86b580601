import EventSeries.Time.Instant

/-
  Instants are linearly ordered, and `Instant.earliest?`
  finds the least of a list.

  Main declarations:
    * the order instances of `Instant`
    * `Instant.earliest?_eq_some_iff`
    * `Instant.earliest?_eq_none_iff`
-/

namespace EventSeries

namespace Instant

------------------------------------------------------------
-- Linear Order
------------------------------------------------------------

theorem le_def
    {a b : Instant} :
    a ≤ b ↔
      a.seconds < b.seconds ∨
        (a.seconds = b.seconds ∧ a.nanos ≤ b.nanos) :=
  Iff.rfl

theorem lt_def
    {a b : Instant} :
    a < b ↔
      a.seconds < b.seconds ∨
        (a.seconds = b.seconds ∧ a.nanos < b.nanos) :=
  Iff.rfl

instance : Std.IsLinearOrder Instant where
  le_refl a := by
    rw [le_def]
    omega
  le_trans a b c hab hbc := by
    rw [le_def] at *
    omega
  le_antisymm a b hab hba := by
    rw [le_def] at hab hba
    cases a
    cases b
    simp only [mk.injEq] at *
    omega
  le_total a b := by
    rw [le_def, le_def]
    omega

instance : Std.LawfulOrderLT Instant where
  lt_iff a b := by
    rw [lt_def, le_def, le_def]
    omega

theorem min_def
    (a b : Instant) :
    min a b = if a ≤ b then a else b :=
  rfl

instance : Std.LawfulOrderMin Instant where
  min_eq_or a b := by
    rw [min_def]
    split
    · exact Or.inl rfl
    · exact Or.inr rfl
  le_min_iff a b c := by
    rw [min_def]
    split
    · grind
    · grind

------------------------------------------------------------
-- The Earliest Of Some Instants
------------------------------------------------------------

theorem earliest?_eq_some_iff
    {ts : List Instant}
    {t : Instant} :
    earliest? ts = some t ↔ t ∈ ts ∧ ∀ u ∈ ts, t ≤ u :=
  List.min?_eq_some_iff

theorem earliest?_eq_none_iff
    {ts : List Instant} :
    earliest? ts = none ↔ ts = [] :=
  List.min?_eq_none_iff

/- The earliest of some instants depends on which there are. -/
theorem earliest?_congr
    {ts us : List Instant}
    (hSame : ∀ t, t ∈ ts ↔ t ∈ us) :
    earliest? ts = earliest? us := by
  cases hTs : earliest? ts with
  | none =>
      rw [earliest?_eq_none_iff] at hTs
      have hUs : us = [] := by
        apply List.eq_nil_iff_forall_not_mem.mpr
        intro t hMember
        rw [← hSame t, hTs] at hMember
        cases hMember
      rw [hUs]
      rfl
  | some t =>
      rw [earliest?_eq_some_iff] at hTs
      symm
      rw [earliest?_eq_some_iff]
      refine ⟨(hSame t).mp hTs.1, ?_⟩
      intro u hMember
      exact hTs.2 u ((hSame u).mpr hMember)

end Instant

end EventSeries
