import EventSeries.Override
import EventSeries.Proofs.Text.Decimal
import Mathlib.Data.Finset.Card
import Mathlib.Data.Finset.Dedup
import Mathlib.Data.Finset.Range

/-
  The numbered candidates for the slug of an override are all
  different, since their numbers stand behind the last hyphen.
  A registry that has fewer slugs than there are numbers
  therefore leaves one of them free.

  Main declarations:
    * `slugCandidate_injective`
    * `firstFreeSlug?_eq_none_iff`
    * `exists_freeSlug`
-/

namespace EventSeries

------------------------------------------------------------
-- Candidates
------------------------------------------------------------

/- Digits stand behind the last hyphen of a text. -/
theorem behindHyphen_digits
    (cs : List Char)
    (n : Nat) :
    (cs ++ '-' :: digits n).reverse.takeWhile (· != '-') =
      (digits n).reverse := by
  have hDigits :
      ∀ c ∈ (digits n).reverse, (c != '-') = true := by
    intro c hMember
    have hDigit := isDigit_of_mem_digits (List.mem_reverse.mp hMember)
    rw [bne_iff_ne]
    rintro rfl
    revert hDigit
    decide
  rw [List.reverse_append, List.reverse_cons, List.append_assoc,
    List.takeWhile_append_of_pos hDigits]
  simp

/- No number leads to the candidate of another. -/
theorem slugCandidate_injective
    {base : List Char}
    {m n : Nat}
    (hSame : slugCandidate base (m + 1) = slugCandidate base (n + 1)) :
    m = n := by
  unfold slugCandidate slugWithSuffix at hSame
  have hBehind :=
    congrArg (fun cs => cs.reverse.takeWhile (· != '-')) hSame
  simp only [behindHyphen_digits, List.reverse_inj] at hBehind
  have hNumbers := digits_injective hBehind
  omega

------------------------------------------------------------
-- Free Slugs
------------------------------------------------------------

/- The search goes on from a candidate that is taken. -/
theorem firstFreeSlug?_of_taken
    {taken : SlugSet}
    {base : List Char}
    {n : Nat}
    (hTaken : String.ofList (slugCandidate base n) ∈ taken)
    (more : Nat) :
    firstFreeSlug? taken base (more + 1) n =
      firstFreeSlug? taken base more (n + 1) := by
  rw [firstFreeSlug?]
  simp only [List.contains_iff_mem.mpr hTaken, if_true]

/- It ends with a candidate that is free. -/
theorem firstFreeSlug?_of_free
    {taken : SlugSet}
    {base : List Char}
    {n : Nat}
    (hFree : String.ofList (slugCandidate base n) ∉ taken)
    (more : Nat) :
    firstFreeSlug? taken base more n =
      some (String.ofList (slugCandidate base n)) := by
  unfold firstFreeSlug?
  exact if_neg fun hTaken =>
    hFree (List.contains_iff_mem.mp hTaken)

/- The search fails where every candidate in reach is taken. -/
theorem firstFreeSlug?_eq_none_iff
    {taken : SlugSet}
    {base : List Char}
    {more n : Nat} :
    firstFreeSlug? taken base more n = none ↔
      ∀ k, n ≤ k → k ≤ n + more →
        String.ofList (slugCandidate base k) ∈ taken := by
  have hFirst :
      ∀ more n, firstFreeSlug? taken base more n = none →
        String.ofList (slugCandidate base n) ∈ taken := by
    intro more n hNone
    by_contra hFree
    rw [firstFreeSlug?_of_free hFree] at hNone
    cases hNone
  induction more generalizing n with
  | zero =>
      constructor
      · intro hNone k hFrom hTo
        have hSame : k = n := by omega
        rw [hSame]
        exact hFirst 0 n hNone
      · intro hAll
        simpa [firstFreeSlug?] using
          hAll n (by omega) (by omega)
  | succ more ih =>
      have hRest := ih (n := n + 1)
      constructor
      · intro hNone k hFrom hTo
        have hTaken := hFirst (more + 1) n hNone
        rw [firstFreeSlug?_of_taken hTaken] at hNone
        by_cases hHere : k = n
        · rw [hHere]
          exact hTaken
        · exact hRest.mp hNone k (by omega) (by omega)
      · intro hAll
        rw [firstFreeSlug?_of_taken
          (hAll n (by omega) (by omega))]
        apply hRest.mpr
        intro k hFrom hTo
        exact hAll k (by omega) (by omega)

/- Fewer slugs than numbers leave a slug to be found. -/
theorem exists_freeSlug
    {taken : SlugSet}
    (hFew : taken.toFinset.card < largestSlugNumber)
    (base : List Char) :
    ∃ slug, freeSlug taken base = .ok slug := by
  unfold freeSlug
  cases hFound :
      firstFreeSlug? taken base largestSlugNumber 0 with
  | some slug => exact ⟨slug, rfl⟩
  | none =>
      exfalso
      have hAll := firstFreeSlug?_eq_none_iff.mp hFound
      have hTaken :
          (Finset.range largestSlugNumber).card ≤
            taken.toFinset.card := by
        apply Finset.card_le_card_of_injOn
          fun k => String.ofList (slugCandidate base (k + 1))
        · intro k hNumber
          have hLess : k < largestSlugNumber := by
            simpa using hNumber
          simpa using hAll (k + 1) (by omega) (by omega)
        · intro m _ n _ hSame
          exact slugCandidate_injective
            (String.ofList_injective hSame)
      rw [Finset.card_range] at hTaken
      omega

end EventSeries
