import EventSeries.Proofs.Override.Detached

/-
  The slug of an override is free and fits, and it is the
  first that does: the slug of the event with the local start,
  or else with the least number behind it that makes it free.
  Overrides that are made in turn, each registered before the
  next, therefore have different slugs, and a registry with
  room for them leaves a slug for each.

  Main declarations:
    * `plainSlug`
    * `numberedSlug`
    * `IsFirstFree`
    * `isFirstFree_of_freeSlug`
    * `OverrideRequest`
    * `overridesInTurn`
    * `nodup_overridesInTurn`
    * `exists_overridesInTurn`
    * `Event.occurrenceSlug_firstFree`
-/

namespace EventSeries

------------------------------------------------------------
-- The First Free Slug
------------------------------------------------------------

/- A base that is cut to the largest length. -/
def plainSlug
    (base : List Char) : String :=
  String.ofList (base.take slugLimit)

/- A base that is cut to leave room for a number behind it. -/
def numberedSlug
    (base : List Char)
    (n : Nat) : String :=
  String.ofList
    (base.take (slugLimit - (1 + (digits n).length)) ++
      '-' :: digits n)

/-
  The slug is short enough and not taken.  It is the base
  where this is not taken, and has the least number behind it
  that makes it free where it is.
-/
structure IsFirstFree
    (taken : SlugSet)
    (base : List Char)
    (slug : String) : Prop where
  free : slug ∉ taken
  short : slug.length ≤ slugLimit
  plain : plainSlug base ∉ taken → slug = plainSlug base
  numbered :
    plainSlug base ∈ taken →
      ∃ n, IsLeast {k | 0 < k ∧ numberedSlug base k ∉ taken} n ∧
        slug = numberedSlug base n

variable {taken : SlugSet}
variable {base : List Char}

theorem slugCandidate_zero
    (base : List Char) :
    String.ofList (slugCandidate base 0) = plainSlug base := by
  rw [slugCandidate, slugWithSuffix, List.append_nil]
  rfl

theorem slugCandidate_of_pos
    (base : List Char)
    {n : Nat}
    (hPos : 0 < n) :
    String.ofList (slugCandidate base n) =
      numberedSlug base n := by
  rcases Nat.exists_eq_add_of_le' hPos with ⟨k, rfl⟩
  rw [slugCandidate, slugWithSuffix, List.length_cons,
    Nat.add_comm _ 1]
  rfl

/- Numbers that are tried leave a candidate short enough. -/
theorem length_slugCandidate_le
    (base : List Char)
    {n : Nat}
    (hTried : n ≤ largestSlugNumber) :
    (slugCandidate base n).length ≤ slugLimit := by
  cases n with
  | zero =>
      rw [slugCandidate, slugWithSuffix, List.append_nil]
      exact List.length_take_le slugLimit base
  | succ n =>
      have hDigits : (digits (n + 1)).length ≤ 10 := by
        apply length_digits_le (by decide)
        exact Nat.lt_of_le_of_lt hTried (by decide)
      have hCut := List.length_take_le
        (slugLimit - ('-' :: digits (n + 1)).length) base
      simp only [slugCandidate, slugWithSuffix, slugLimit,
        List.length_append, List.length_cons] at hCut ⊢
      omega

/- The search stops at the first candidate that is free. -/
theorem first_of_firstFreeSlug?
    {more n : Nat}
    {slug : String}
    (hFound : firstFreeSlug? taken base more n = some slug) :
    ∃ k ≤ n + more,
      IsLeast {j | n ≤ j ∧
        String.ofList (slugCandidate base j) ∉ taken} k ∧
      slug = String.ofList (slugCandidate base k) := by
  have hFirst :
      ∀ n, String.ofList (slugCandidate base n) ∉ taken →
        IsLeast {j | n ≤ j ∧
          String.ofList (slugCandidate base j) ∉ taken} n := by
    intro n hFree
    exact ⟨⟨Nat.le_refl n, hFree⟩, fun j hLater => hLater.1⟩
  -- The induction is on the number of candidates behind the first.
  induction more generalizing n with
  | zero =>
      have hFree : String.ofList (slugCandidate base n) ∉ taken := by
        intro hTaken
        have hNone : firstFreeSlug? taken base 0 n = none := by
          apply firstFreeSlug?_eq_none_iff.mpr
          intro k hFrom hTo
          rwa [Nat.le_antisymm hTo hFrom]
        rw [hFound] at hNone
        cases hNone
      rw [firstFreeSlug?_of_free hFree] at hFound
      cases hFound
      exact ⟨n, Nat.le_refl n, hFirst n hFree, rfl⟩
  | succ more hSmaller =>
      by_cases hTaken : String.ofList (slugCandidate base n) ∈ taken
      · rw [firstFreeSlug?_of_taken hTaken] at hFound
        rcases hSmaller hFound with
          ⟨k, hTried, ⟨⟨hFrom, hFree⟩, hLeast⟩, hSlug⟩
        refine ⟨k, by omega, ⟨⟨by omega, hFree⟩, ?_⟩, hSlug⟩
        rintro j ⟨hLater, hAlso⟩
        rcases Nat.eq_or_lt_of_le hLater with rfl | hBehind
        · exact absurd hTaken hAlso
        · exact hLeast ⟨hBehind, hAlso⟩
      · rw [firstFreeSlug?_of_free hTaken] at hFound
        cases hFound
        exact ⟨n, Nat.le_add_right n _, hFirst n hTaken, rfl⟩

theorem isFirstFree_of_freeSlug
    {slug : String}
    (hFree : freeSlug taken base = .ok slug) :
    IsFirstFree taken base slug := by
  have hFound :
      firstFreeSlug? taken base largestSlugNumber 0 =
        some slug := by
    unfold freeSlug at hFree
    split at hFree
    · cases hFree
      assumption
    · cases hFree
  rcases first_of_firstFreeSlug? hFound with
    ⟨k, hTried, ⟨⟨_, hNotTaken⟩, hLeast⟩, rfl⟩
  refine ⟨hNotTaken, ?_, ?_, ?_⟩
  · rw [String.length_ofList]
    exact length_slugCandidate_le base (by omega)
  · intro hPlain
    rw [← slugCandidate_zero] at hPlain ⊢
    have hZero := hLeast ⟨Nat.zero_le 0, hPlain⟩
    rw [Nat.le_zero.mp hZero]
  · intro hPlain
    rw [← slugCandidate_zero] at hPlain
    have hPos : 0 < k := by
      apply Nat.pos_of_ne_zero
      rintro rfl
      exact hNotTaken hPlain
    refine ⟨k, ⟨⟨hPos, ?_⟩, ?_⟩, slugCandidate_of_pos base hPos⟩
    · rwa [← slugCandidate_of_pos base hPos]
    · rintro j ⟨hLater, hFree⟩
      rw [← slugCandidate_of_pos base hLater] at hFree
      exact hLeast ⟨Nat.zero_le j, hFree⟩

------------------------------------------------------------
-- Overrides In Turn
------------------------------------------------------------

/- An override that is asked for. -/
structure OverrideRequest where
  event : Event
  id : Id
  start : Instant
  zone : Zone

namespace OverrideRequest

/- The override, made while some slugs are taken. -/
def made
    (r : OverrideRequest)
    (taken : SlugSet) : Bounded Event :=
  r.event.cloneFor r.id r.start r.zone taken

/-
  The calendar holds what the clocks show at its start, and
  the times that are carried over to it.
-/
structure InCalendar
    (r : OverrideRequest) : Prop where
  shown : (r.zone.wallTime r.start).inUtc.InCalendar
  times :
    ∀ t, some t ∈
        [r.event.doorsAt, r.event.endsAt, r.event.curfewAt] →
      (r.start.plusUnchecked
        (t.since
          (r.event.referenceStart?.getD r.start))).InCalendar

variable {r : OverrideRequest}
variable {clone : Event}

theorem free_of_made
    (hMade : r.made taken = .ok clone) :
    clone.slug ∉ taken := by
  rcases Event.cloneFor_eq_ok_iff.mp hMade with
    ⟨slug, _, _, _, hSlug, _, _, _, rfl⟩
  rcases Bounded.bind_eq_ok_iff.mp hSlug with ⟨here, _, hFree⟩
  exact (isFirstFree_of_freeSlug hFree).free

/- A registry with room leaves a slug for an override. -/
theorem exists_made
    (hInside : r.InCalendar)
    (hFew : taken.toFinset.card < largestSlugNumber) :
    ∃ clone, r.made taken = .ok clone := by
  apply Event.exists_cloneFor_iff.mpr
  exact ⟨hInside.shown,
    Event.exists_freeSlug_iff.mp (exists_freeSlug hFew _),
    hInside.times⟩

end OverrideRequest

/-
  Overrides that are made one after the other, the slug of
  each being taken before the next one is made.
-/
def overridesInTurn :
    SlugSet → List OverrideRequest → Bounded (List Event)
  | _, [] => return []
  | taken, r :: later => do
      let clone ← r.made taken
      return clone ::
        (← overridesInTurn (taken.insert clone.slug) later)

/- One override comes first, and then the others. -/
theorem overridesInTurn_cons_eq_ok_iff
    {r : OverrideRequest}
    {later : List OverrideRequest}
    {clones : List Event} :
    overridesInTurn taken (r :: later) = .ok clones ↔
      ∃ clone, r.made taken = .ok clone ∧
        ∃ further,
          overridesInTurn (taken.insert clone.slug) later =
            .ok further ∧
          clone :: further = clones := by
  simp only [overridesInTurn, Bounded.bind_eq_ok_iff, pure,
    Except.pure, Except.ok.injEq]

/- No two of them have one slug, and none has one of before. -/
theorem nodup_overridesInTurn
    {requests : List OverrideRequest}
    {clones : List Event}
    (hMade : overridesInTurn taken requests = .ok clones) :
    (clones.map (·.slug)).Nodup ∧
      ∀ clone ∈ clones, clone.slug ∉ taken := by
  induction requests generalizing taken clones with
  | nil =>
      cases hMade
      exact ⟨List.nodup_nil, fun _ hNone => by cases hNone⟩
  | cons r later hSmaller =>
      rcases overridesInTurn_cons_eq_ok_iff.mp hMade with
        ⟨clone, hFirst, further, hFurther, rfl⟩
      -- Further ones avoid the slug of this one with the others.
      rcases hSmaller hFurther with ⟨hApart, hFree⟩
      simp only [List.mem_insert_iff, not_or] at hFree
      constructor
      · rw [List.map_cons, List.nodup_cons]
        refine ⟨?_, hApart⟩
        intro hAgain
        rcases List.mem_map.mp hAgain with ⟨other, hOther, hSame⟩
        exact (hFree other hOther).1 hSame
      · rw [List.forall_mem_cons]
        exact ⟨OverrideRequest.free_of_made hFirst,
          fun other hOther => (hFree other hOther).2⟩

/- A registry with room for all of them leaves slugs for all. -/
theorem exists_overridesInTurn
    {requests : List OverrideRequest}
    (hInside : ∀ r ∈ requests, r.InCalendar)
    (hRoom :
      taken.toFinset.card + requests.length ≤ largestSlugNumber) :
    ∃ clones, overridesInTurn taken requests = .ok clones ∧
      clones.length = requests.length := by
  induction requests generalizing taken with
  | nil => exact ⟨[], rfl, rfl⟩
  | cons r later hSmaller =>
      rw [List.forall_mem_cons] at hInside
      rw [List.length_cons] at hRoom
      have hMade : ∃ clone, r.made taken = .ok clone :=
        OverrideRequest.exists_made hInside.1 (by omega)
      rcases hMade with ⟨clone, hFirst⟩
      have hMore :
          (taken.insert clone.slug).toFinset.card ≤
            taken.toFinset.card + 1 := by
        have hSet :
            (taken.insert clone.slug).toFinset =
              insert clone.slug taken.toFinset := by
          ext slug
          simp
        rw [hSet]
        exact Finset.card_insert_le _ _
      have hLater := hSmaller hInside.2
        (by omega : (taken.insert clone.slug).toFinset.card +
          later.length ≤ largestSlugNumber)
      rcases hLater with ⟨further, hFurther, hLength⟩
      refine ⟨clone :: further, ?_, by simp [hLength]⟩
      exact overridesInTurn_cons_eq_ok_iff.mpr
        ⟨clone, hFirst, further, hFurther, rfl⟩

------------------------------------------------------------
-- Slugs Of Overrides
------------------------------------------------------------

namespace Event

/-
  With fewer slugs taken than there are numbers, an occurrence
  whose wall time is in the calendar has the first free slug
  for its override; another has none.  Overrides made in turn
  all have different slugs, none of which was taken, and there
  is one for each request that stays in the calendar as long
  as there are numbers for all.
-/
theorem occurrenceSlug_firstFree
    {taken : SlugSet}
    (hFew : taken.toFinset.card < largestSlugNumber)
    (e : Event)
    (start : Instant)
    (z : Zone) :
    ((z.wallTime start).inUtc.InCalendar →
      ∃ slug, e.occurrenceSlug start z taken = .ok slug ∧
        IsFirstFree taken
          (e.occurrenceSlugBase (z.wallTime start)) slug) ∧
    (¬ (z.wallTime start).inUtc.InCalendar →
      e.occurrenceSlug start z taken = .error .calendar) ∧
    ∀ requests : List OverrideRequest,
      (∀ clones, overridesInTurn taken requests = .ok clones →
        (clones.map (·.slug)).Nodup ∧
          ∀ clone ∈ clones, clone.slug ∉ taken) ∧
      ((∀ r ∈ requests, r.InCalendar) →
        taken.toFinset.card + requests.length ≤
            largestSlugNumber →
          ∃ clones, overridesInTurn taken requests = .ok clones ∧
            clones.length = requests.length) := by
  refine ⟨?_, ?_, ?_⟩
  · intro hInside
    rcases exists_freeSlug hFew
        (e.occurrenceSlugBase (z.wallTime start)) with
      ⟨slug, hFree⟩
    refine ⟨slug, ?_, isFirstFree_of_freeSlug hFree⟩
    exact Bounded.bind_eq_ok_iff.mpr
      ⟨z.wallTime start, if_pos hInside, hFree⟩
  · intro hOutside
    rw [occurrenceSlug, Zone.toLocal, if_neg hOutside]
    rfl
  · intro requests
    exact ⟨fun _ => nodup_overridesInTurn,
      exists_overridesInTurn⟩

/-
  The second jazz night, with the slug of its override and the
  first number behind it taken, and two overrides of it that
  are made in turn.
-/
theorem occurrenceSlug_firstFree_jazzNight :
    let taken : SlugSet :=
      ["jazz-night-202501092000", "jazz-night-202501092000-1"]
    let start := nightTime 1 0
    let base :=
      jazzNight.occurrenceSlugBase (Zone.utc.wallTime start)
    let slug := "jazz-night-202501092000-2"
    let request (id : Id) : OverrideRequest :=
      ⟨jazzNight, id, start, .utc⟩
    taken.toFinset.card < largestSlugNumber ∧
      (jazzNight.occurrenceSlug start .utc taken = .ok slug ∧
        IsFirstFree taken base slug) ∧
      ∃ clones,
        overridesInTurn taken [request ⟨2⟩, request ⟨3⟩] =
          .ok clones ∧
        clones.length = 2 ∧
        (clones.map (·.slug)).Nodup := by
  intro taken start base slug request
  have hFew : taken.toFinset.card < largestSlugNumber := by
    decide
  have hInside : (Zone.utc.wallTime start).inUtc.InCalendar := by
    decide
  have hSlug :
      jazzNight.occurrenceSlug start .utc taken = .ok slug := by
    decide +kernel
  rcases occurrenceSlug_firstFree hFew jazzNight start .utc with
    ⟨hFound, _, hTurn⟩
  refine ⟨hFew, ⟨hSlug, ?_⟩, ?_⟩
  · rcases hFound hInside with ⟨found, hSame, hFirst⟩
    rw [hSlug] at hSame
    cases hSame
    exact hFirst
  · have hRequest (id : Id) : (request id).InCalendar :=
      ⟨hInside, fun t hTime => by
        simp [request, jazzNight] at hTime⟩
    rcases hTurn [request ⟨2⟩, request ⟨3⟩] with
      ⟨hApart, hMade⟩
    rcases hMade (by simp [hRequest]) (by decide) with
      ⟨clones, hClones, hTwo⟩
    exact ⟨clones, hClones, hTwo, (hApart clones hClones).1⟩

/-
  In Tokyo the last afternoon of the calendar is past its end,
  and has no slug.
-/
theorem occurrenceSlug_past_calendar :
    let taken : SlugSet := []
    let start : Instant :=
      ⟨(Date.last.dayNumber + 1) * secondsPerDay - 32400, 0⟩
    taken.toFinset.card < largestSlugNumber ∧
      start.InCalendar ∧
        jazzNight.occurrenceSlug start .tokyo taken =
          .error .calendar := by
  decide +kernel

end Event

end EventSeries
