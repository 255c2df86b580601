import EventSeries.Text.Slug
import Mathlib

/-
  The slug of a text joins the words of the text by hyphens
  and is cut to a largest length.  The cut may fall right
  behind a hyphen.  That apart, a slug neither begins nor ends
  with a hyphen, has no two in a row, and is its own slug.

  Main declarations:
    * `slugWords`
    * `fullSlug`
    * `slugChars_eq`
    * `IsHyphenated`
    * `IsSlugFront`
    * `IsSlug`
    * `CutAtHyphen`
    * `slugify_canonical_iff`
-/

namespace EventSeries

------------------------------------------------------------
-- Characters
------------------------------------------------------------

/- Letters and digits by their numbers. -/
theorem isAlphanum_iff
    {c : Char} :
    c.isAlphanum = true ↔
      ((65 ≤ c.toNat ∧ c.toNat ≤ 90) ∨
        (97 ≤ c.toNat ∧ c.toNat ≤ 122)) ∨
      (48 ≤ c.toNat ∧ c.toNat ≤ 57) := by
  simp [Char.isAlphanum, Char.isAlpha, Char.isUpper,
    Char.isLower, Char.isDigit, UInt32.le_iff_toNat_le,
    ← Char.toNat_val]

theorem not_isUpper_of_isDigit
    {c : Char}
    (hDigit : c.isDigit = true) :
    ¬ c.isUpper = true := by
  intro hUpper
  have hDigits : 48 ≤ c.toNat ∧ c.toNat ≤ 57 :=
    Char.isDigit_iff_toNat.mp hDigit
  have hCapitals : 65 ≤ c.toNat ∧ c.toNat ≤ 90 := by
    simpa [Char.isUpper, UInt32.le_iff_toNat_le,
      ← Char.toNat_val] using hUpper
  omega

/- Lower-case letters and digits, of which words are made. -/
def isSlugLetter
    (c : Char) : Bool :=
  c.isLower || c.isDigit

theorem ne_hyphen_of_isSlugLetter
    {c : Char}
    (hLetter : isSlugLetter c = true) :
    c ≠ '-' := by
  rintro rfl
  exact absurd hLetter (by decide)

theorem isSlugLetter_toLower
    {c : Char}
    (hKept : c.isAlphanum = true) :
    isSlugLetter c.toLower = true := by
  rw [isSlugLetter, Bool.or_eq_true,
    Char.isLower_toLower_eq_isAlpha]
  rcases Bool.or_eq_true_iff.mp hKept with hAlpha | hDigit
  · exact Or.inl hAlpha
  · right
    rwa [Char.toLower_eq_of_not_isUpper
      (not_isUpper_of_isDigit hDigit)]

/- Letters of a slug are kept as they are. -/
theorem kept_of_isSlugLetter
    {c : Char}
    (hLetter : isSlugLetter c = true) :
    c.isAlphanum = true ∧ c.toLower = c := by
  rcases Bool.or_eq_true_iff.mp hLetter with hLower | hDigit
  · exact ⟨by simp [Char.isAlphanum, Char.isAlpha, hLower],
      Char.toLower_eq_of_not_isUpper
        (Char.not_isUpper_of_isLower hLower)⟩
  · exact ⟨by simp [Char.isAlphanum, hDigit],
      Char.toLower_eq_of_not_isUpper
        (not_isUpper_of_isDigit hDigit)⟩

/- No separator is a letter or a digit. -/
theorem isWordSeparator_of_isAlphanum
    {c : Char}
    (hKept : c.isAlphanum = true) :
    isWordSeparator c = false := by
  have hBlank : isBlank c = false := by
    rw [isAlphanum_iff] at hKept
    simp only [isBlank, Bool.or_eq_false_iff,
      Bool.and_eq_false_iff, beq_eq_false_iff_ne,
      decide_eq_false_iff_not]
    omega
  have hHyphen : c ≠ '-' := by
    rintro rfl
    exact absurd hKept (by decide)
  have hUnderscore : c ≠ '_' := by
    rintro rfl
    exact absurd hKept (by decide)
  simp [isWordSeparator, hBlank, hHyphen, hUnderscore]

------------------------------------------------------------
-- Hyphens At The End
------------------------------------------------------------

/- Text without its trailing hyphens. -/
def dropLastHyphens
    (cs : List Char) : List Char :=
  cs.rdropWhile (· == '-')

theorem trimHyphens_eq
    (cs : List Char) :
    trimHyphens cs = dropLastHyphens (dropHyphens cs) :=
  rfl

theorem dropLastHyphens_eq_self_iff
    {cs : List Char} :
    dropLastHyphens cs = cs ↔ cs.getLast? ≠ some '-' := by
  rw [dropLastHyphens, List.rdropWhile_eq_self_iff]
  constructor
  · intro hLast hSome
    rcases List.getLast?_eq_some_iff.mp hSome with ⟨ds, rfl⟩
    simpa using hLast (by simp)
  · intro hLast hSome hHyphen
    rw [beq_iff_eq] at hHyphen
    exact hLast (hHyphen ▸ List.getLast?_eq_some_getLast hSome)

theorem dropLastHyphens_idempotent
    (cs : List Char) :
    dropLastHyphens (dropLastHyphens cs) = dropLastHyphens cs :=
  List.rdropWhile_idempotent _ cs

theorem dropLastHyphens_concat
    (cs : List Char) :
    dropLastHyphens (cs ++ ['-']) = dropLastHyphens cs :=
  List.rdropWhile_concat_pos _ _ _ (by decide)

/- A first character stays with what is left behind it. -/
theorem dropLastHyphens_cons
    (c : Char)
    (cs : List Char) :
    dropLastHyphens (c :: cs) =
      if c = '-' ∧ dropLastHyphens cs = [] then []
      else c :: dropLastHyphens cs := by
  induction cs using List.reverseRecOn with
  | nil =>
      simp [dropLastHyphens, List.rdropWhile_singleton]
  | append_singleton cs d hSmaller =>
      by_cases hHyphen : d = '-'
      · subst hHyphen
        rw [← List.cons_append, dropLastHyphens_concat,
          dropLastHyphens_concat, hSmaller]
      · have hStays :
            ∀ ds : List Char,
              dropLastHyphens (ds ++ [d]) = ds ++ [d] := by
          intro ds
          rw [dropLastHyphens_eq_self_iff]
          simpa using hHyphen
        rw [← List.cons_append, hStays, hStays, if_neg (by simp),
          List.cons_append]

------------------------------------------------------------
-- The Words Of A Slug
------------------------------------------------------------

/- What a slug keeps of a stretch of text. -/
def slugWord
    (cs : List Char) : List Char :=
  (cs.filter Char.isAlphanum).map Char.toLower

/- What a slug keeps of stretches of which it keeps any. -/
def keptWords
    (stretches : List (List Char)) : List (List Char) :=
  (stretches.map slugWord).filter (· ≠ [])

/-
  The words of the slug of a text, from the stretches of the
  text between its separators.
-/
def slugWords
    (cs : List Char) : List (List Char) :=
  keptWords (cs.splitOnP isWordSeparator)

/- The slug of a text before it is cut. -/
def fullSlug
    (cs : List Char) : List Char :=
  ['-'].intercalate (slugWords cs)

theorem slugWord_cons
    (c : Char)
    (cs : List Char) :
    slugWord (c :: cs) =
      if c.isAlphanum then c.toLower :: slugWord cs
      else slugWord cs := by
  by_cases hKept : c.isAlphanum = true
  · simp [slugWord, hKept]
  · simp [slugWord, hKept]

theorem keptWords_cons
    (stretch : List Char)
    (stretches : List (List Char)) :
    keptWords (stretch :: stretches) =
      if slugWord stretch = [] then keptWords stretches
      else slugWord stretch :: keptWords stretches := by
  by_cases hNone : slugWord stretch = []
  · simp [keptWords, hNone]
  · simp [keptWords, hNone]

theorem of_mem_keptWords
    {stretches : List (List Char)}
    {word : List Char}
    (hWord : word ∈ keptWords stretches) :
    word ≠ [] ∧ ∀ c ∈ word, isSlugLetter c = true := by
  rw [keptWords, List.mem_filter, List.mem_map] at hWord
  rcases hWord with ⟨⟨stretch, _, rfl⟩, hSome⟩
  refine ⟨by simpa using hSome, ?_⟩
  intro c hChar
  rcases List.mem_map.mp hChar with ⟨d, hKept, rfl⟩
  exact isSlugLetter_toLower (List.mem_filter.mp hKept).2

/- Words behind a first one, each with its hyphen. -/
def furtherWords
    (words : List (List Char)) : List Char :=
  words.flatMap ('-' :: ·)

theorem intercalate_cons
    (word : List Char)
    (words : List (List Char)) :
    ['-'].intercalate (word :: words) =
      word ++ furtherWords words := by
  induction words generalizing word with
  | nil => simp [furtherWords]
  | cons next words hSmaller =>
      rw [List.intercalate_cons_cons, hSmaller]
      simp [furtherWords]

/- Words that are no first ones. -/
theorem furtherWords_eq
    {words : List (List Char)}
    (hSome : ∀ word ∈ words, word ≠ []) :
    furtherWords words =
      if ['-'].intercalate words = [] then []
      else '-' :: ['-'].intercalate words := by
  cases words with
  | nil => rfl
  | cons word words =>
      rw [intercalate_cons, if_neg]
      · rfl
      · simp [hSome word List.mem_cons_self]

------------------------------------------------------------
-- Collapsing
------------------------------------------------------------

theorem collapse_of_isAlphanum
    {c : Char}
    (hKept : c.isAlphanum = true)
    (afterHyphen : Bool)
    (cs : List Char) :
    collapse afterHyphen (c :: cs) =
      c.toLower :: collapse false cs := by
  rw [collapse, if_pos hKept]

theorem collapse_of_isWordSeparator
    {c : Char}
    (hSeparator : isWordSeparator c = true)
    (afterHyphen : Bool)
    (cs : List Char) :
    collapse afterHyphen (c :: cs) =
      if afterHyphen then collapse true cs
      else '-' :: collapse true cs := by
  have hNotKept : ¬ c.isAlphanum = true := by
    intro hKept
    simp [isWordSeparator_of_isAlphanum hKept] at hSeparator
  rw [collapse, if_neg hNotKept, if_pos hSeparator]

theorem collapse_of_dropped
    {c : Char}
    (hNotKept : ¬ c.isAlphanum = true)
    (hNoSeparator : ¬ isWordSeparator c = true)
    (afterHyphen : Bool)
    (cs : List Char) :
    collapse afterHyphen (c :: cs) =
      collapse afterHyphen cs := by
  rw [collapse, if_neg hNotKept, if_neg hNoSeparator]

/- Leading hyphens are those of a text that begins with one. -/
theorem dropHyphens_collapse
    (afterHyphen : Bool)
    (cs : List Char) :
    dropHyphens (collapse afterHyphen cs) =
      collapse true cs := by
  induction cs generalizing afterHyphen with
  | nil => rfl
  | cons c cs hSmaller =>
      by_cases hKept : c.isAlphanum = true
      · have hLetter := isSlugLetter_toLower hKept
        rw [collapse_of_isAlphanum hKept,
          collapse_of_isAlphanum hKept, dropHyphens,
          List.dropWhile_cons_of_neg]
        simpa using ne_hyphen_of_isSlugLetter hLetter
      · by_cases hSeparator : isWordSeparator c = true
        · rw [collapse_of_isWordSeparator hSeparator,
            collapse_of_isWordSeparator hSeparator]
          cases afterHyphen with
          | false => exact hSmaller true
          | true => exact hSmaller true
        · rw [collapse_of_dropped hKept hSeparator,
            collapse_of_dropped hKept hSeparator]
          exact hSmaller afterHyphen

/-
  Behind a hyphen the collapsed text is that of the words.
  Elsewhere it goes on with what is left of the first stretch,
  be it nothing.
-/
theorem dropLastHyphens_collapse
    {cs stretch : List Char}
    {stretches : List (List Char)}
    (hSplit :
      cs.splitOnP isWordSeparator = stretch :: stretches) :
    dropLastHyphens (collapse true cs) =
      ['-'].intercalate (keptWords (stretch :: stretches)) ∧
    dropLastHyphens (collapse false cs) =
      slugWord stretch ++ furtherWords (keptWords stretches) := by
  induction cs generalizing stretch stretches with
  | nil =>
      rw [List.splitOnP_nil] at hSplit
      cases hSplit
      exact ⟨rfl, rfl⟩
  | cons c cs hSmaller =>
      rw [List.splitOnP_cons_eq_if_modifyHead] at hSplit
      rcases hRest : cs.splitOnP isWordSeparator with
        _ | ⟨next, further⟩
      · exact absurd hRest (List.splitOnP_ne_nil _ _)
      have hNext := hSmaller hRest
      rw [hRest] at hSplit
      by_cases hKept : c.isAlphanum = true
      · -- The character continues the first word.
        have hLetter := isSlugLetter_toLower hKept
        have hCollapse :
            ∀ afterHyphen,
              dropLastHyphens (collapse afterHyphen (c :: cs)) =
                slugWord (c :: next) ++
                  furtherWords (keptWords further) := by
          intro afterHyphen
          have hNoHyphen := ne_hyphen_of_isSlugLetter hLetter
          rw [collapse_of_isAlphanum hKept, dropLastHyphens_cons,
            if_neg fun hBoth => hNoHyphen hBoth.1, hNext.2,
            slugWord_cons, if_pos hKept, List.cons_append]
        have hWord : slugWord (c :: next) ≠ [] := by
          simp [slugWord_cons, hKept]
        simp only [isWordSeparator_of_isAlphanum hKept,
          Bool.false_eq_true, if_false, List.modifyHead_cons,
          List.cons.injEq] at hSplit
        rcases hSplit with ⟨rfl, rfl⟩
        refine ⟨?_, hCollapse false⟩
        rw [hCollapse true, keptWords_cons, if_neg hWord,
          intercalate_cons]
      · by_cases hSeparator : isWordSeparator c = true
        · -- The first stretch ends here, without a word.
          rw [if_pos hSeparator, List.cons.injEq] at hSplit
          rcases hSplit with ⟨rfl, rfl⟩
          have hNonempty : ∀ word ∈ keptWords (next :: further),
              word ≠ [] := by
            intro word hWord
            exact (of_mem_keptWords hWord).1
          simp only [collapse_of_isWordSeparator hSeparator,
            keptWords_cons [], furtherWords_eq hNonempty]
          simp [slugWord, dropLastHyphens_cons, hNext.1]
        · -- The character is dropped.
          rw [if_neg hSeparator, List.modifyHead_cons,
            List.cons.injEq] at hSplit
          rcases hSplit with ⟨rfl, rfl⟩
          have hWord : slugWord (c :: next) = slugWord next := by
            rw [slugWord_cons, if_neg hKept]
          rw [collapse_of_dropped hKept hSeparator,
            collapse_of_dropped hKept hSeparator,
            keptWords_cons, hWord, ← keptWords_cons]
          exact hNext

/- Collapsing and trimming leaves the words of a text. -/
theorem trimHyphens_collapse
    (cs : List Char) :
    trimHyphens (collapse false cs) = fullSlug cs := by
  rcases hSplit : cs.splitOnP isWordSeparator with
    _ | ⟨stretch, stretches⟩
  · exact absurd hSplit (List.splitOnP_ne_nil _ _)
  · rw [trimHyphens_eq, dropHyphens_collapse,
      (dropLastHyphens_collapse hSplit).1, fullSlug, slugWords,
      hSplit]

/- The slug of a text is that of its words, cut. -/
theorem slugChars_eq
    (cs : List Char) :
    slugChars cs = (fullSlug cs).take slugLimit := by
  rw [slugChars, trimHyphens_collapse]

------------------------------------------------------------
-- Single Hyphens
------------------------------------------------------------

/- Letters and digits with no two hyphens in a row. -/
structure IsHyphenated
    (cs : List Char) : Prop where
  chars : ∀ c ∈ cs, isSlugLetter c = true ∨ c = '-'
  single : cs.IsChain fun c d => c = '-' → d ≠ '-'

theorem isHyphenated_nil :
    IsHyphenated [] :=
  ⟨nofun, List.isChain_nil⟩

theorem isHyphenated_cons_iff
    {c : Char}
    {cs : List Char} :
    IsHyphenated (c :: cs) ↔
      (isSlugLetter c = true ∨
        c = '-' ∧ cs.head? ≠ some '-') ∧
      IsHyphenated cs := by
  have hNext :
      (∀ d ∈ cs.head?, c = '-' → d ≠ '-') ↔
        (c = '-' → cs.head? ≠ some '-') := by
    cases cs with
    | nil => simp
    | cons d cs => simp
  constructor
  · rintro ⟨hChars, hSingle⟩
    rw [List.forall_mem_cons] at hChars
    rw [List.isChain_cons, hNext] at hSingle
    refine ⟨?_, hChars.2, hSingle.2⟩
    exact hChars.1.imp id fun hHyphen =>
      ⟨hHyphen, hSingle.1 hHyphen⟩
  · rintro ⟨hFirst, hChars, hSingle⟩
    constructor
    · rw [List.forall_mem_cons]
      exact ⟨hFirst.imp id And.left, hChars⟩
    · rw [List.isChain_cons, hNext]
      refine ⟨?_, hSingle⟩
      rintro rfl
      exact (hFirst.resolve_left (by decide)).2

theorem IsHyphenated.front
    {cs ds : List Char}
    (hHyphenated : IsHyphenated ds)
    (hPrefix : cs <+: ds) :
    IsHyphenated cs where
  chars := fun c hChar =>
    hHyphenated.chars c (hPrefix.subset hChar)
  single := hHyphenated.single.prefix hPrefix

/- No hyphen comes in front when less is taken. -/
theorem head?_of_begins
    {cs ds : List Char}
    (hFirst : ds.head? ≠ some '-')
    (hPrefix : cs <+: ds) :
    cs.head? ≠ some '-' := by
  cases cs with
  | nil => exact nofun
  | cons c cs =>
      rcases hPrefix with ⟨rest, rfl⟩
      exact hFirst

/- No hyphen ends what a hyphen follows. -/
theorem IsHyphenated.getLast?
    {cs : List Char}
    (hHyphenated : IsHyphenated (cs ++ ['-'])) :
    cs.getLast? ≠ some '-' := by
  have hApart := (List.isChain_append.mp hHyphenated.single).2.2
  intro hLast
  exact hApart '-' hLast '-' rfl rfl rfl

theorem head?_collapse
    (cs : List Char) :
    (collapse true cs).head? ≠ some '-' := by
  rw [← dropHyphens_collapse true cs]
  intro hHead
  have hNot := List.head?_dropWhile_not (· == '-')
    (collapse true cs)
  rw [dropHyphens] at hHead
  simp [hHead] at hNot

theorem isHyphenated_collapse
    (afterHyphen : Bool)
    (cs : List Char) :
    IsHyphenated (collapse afterHyphen cs) := by
  induction cs generalizing afterHyphen with
  | nil => exact isHyphenated_nil
  | cons c cs hSmaller =>
      by_cases hKept : c.isAlphanum = true
      · rw [collapse_of_isAlphanum hKept, isHyphenated_cons_iff]
        exact ⟨Or.inl (isSlugLetter_toLower hKept),
          hSmaller false⟩
      · by_cases hSeparator : isWordSeparator c = true
        · rw [collapse_of_isWordSeparator hSeparator]
          cases afterHyphen with
          | false =>
              rw [if_neg (by decide), isHyphenated_cons_iff]
              exact ⟨Or.inr ⟨rfl, head?_collapse cs⟩,
                hSmaller true⟩
          | true => exact hSmaller true
        · rw [collapse_of_dropped hKept hSeparator]
          exact hSmaller afterHyphen

/- Such a text has nothing to collapse. -/
theorem IsHyphenated.collapse_eq
    {cs : List Char}
    (hHyphenated : IsHyphenated cs) :
    collapse false cs = cs ∧
    (cs.head? ≠ some '-' → collapse true cs = cs) := by
  induction cs with
  | nil => exact ⟨rfl, fun _ => rfl⟩
  | cons c cs hSmaller =>
      rw [isHyphenated_cons_iff] at hHyphenated
      rcases hHyphenated with
        ⟨hLetter | ⟨rfl, hNext⟩, hHyphenated⟩
      · have hCollapse :
            ∀ afterHyphen,
              collapse afterHyphen (c :: cs) = c :: cs := by
          intro afterHyphen
          have hKept := kept_of_isSlugLetter hLetter
          rw [collapse_of_isAlphanum hKept.1, hKept.2,
            (hSmaller hHyphenated).1]
        exact ⟨hCollapse false, fun _ => hCollapse true⟩
      · constructor
        · rw [collapse_of_isWordSeparator (by decide),
            if_neg (by decide), (hSmaller hHyphenated).2 hNext]
        · intro hFirst
          exact absurd rfl hFirst

------------------------------------------------------------
-- Slugs
------------------------------------------------------------

/- What a slug may begin with. -/
structure IsSlugFront
    (cs : List Char) : Prop extends IsHyphenated cs where
  first : cs.head? ≠ some '-'
  short : cs.length ≤ slugLimit

/- A text that may stand as a slug. -/
structure IsSlug
    (cs : List Char) : Prop extends IsSlugFront cs where
  last : cs.getLast? ≠ some '-'

theorem IsSlugFront.front
    {cs ds : List Char}
    (hFront : IsSlugFront ds)
    (hPrefix : cs <+: ds) :
    IsSlugFront cs where
  toIsHyphenated := hFront.toIsHyphenated.front hPrefix
  first := head?_of_begins hFront.first hPrefix
  short := hPrefix.length_le.trans hFront.short

/- Such a text but loses the hyphens at its end. -/
theorem IsSlugFront.slugChars_eq
    {cs : List Char}
    (hFront : IsSlugFront cs) :
    slugChars cs = dropLastHyphens cs := by
  have hDrop : dropHyphens cs = cs := by
    cases cs with
    | nil => rfl
    | cons c cs =>
        rw [dropHyphens, List.dropWhile_cons_of_neg]
        simpa using hFront.first
  have hLess := (List.rdropWhile_prefix (· == '-') cs).length_le
  rw [slugChars, hFront.toIsHyphenated.collapse_eq.1,
    trimHyphens_eq, hDrop]
  exact List.take_of_length_le (hLess.trans hFront.short)

/- What is left is a slug. -/
theorem IsSlugFront.isSlug
    {cs : List Char}
    (hFront : IsSlugFront cs) :
    IsSlug (dropLastHyphens cs) where
  toIsSlugFront := hFront.front (List.rdropWhile_prefix _ cs)
  last := by
    rw [← dropLastHyphens_eq_self_iff]
    exact dropLastHyphens_idempotent cs

theorem isSlug_iff
    {cs : List Char}
    (hFront : IsSlugFront cs) :
    IsSlug cs ↔ dropLastHyphens cs = cs := by
  rw [dropLastHyphens_eq_self_iff]
  exact ⟨IsSlug.last, fun hLast => ⟨hFront, hLast⟩⟩

theorem slugChars_begins
    (cs : List Char) :
    slugChars cs <+: collapse true cs := by
  rw [slugChars, trimHyphens_eq, dropHyphens_collapse]
  exact (List.take_prefix slugLimit _).trans
    (List.rdropWhile_prefix _ _)

theorem isSlugFront_slugChars
    (cs : List Char) :
    IsSlugFront (slugChars cs) where
  toIsHyphenated :=
    (isHyphenated_collapse true cs).front (slugChars_begins cs)
  first :=
    head?_of_begins (head?_collapse cs) (slugChars_begins cs)
  short := List.length_take_le slugLimit _

/- A hyphen is the last character that the cut leaves. -/
def CutAtHyphen
    (text : String) : Prop :=
  (fullSlug text.toList)[slugLimit - 1]? = some '-'

theorem getLast?_slugChars_iff
    (text : String) :
    (slugChars text.toList).getLast? = some '-' ↔
      CutAtHyphen text := by
  have hLast : (fullSlug text.toList).getLast? ≠ some '-' := by
    rw [← dropLastHyphens_eq_self_iff, ← trimHyphens_collapse,
      trimHyphens_eq, dropLastHyphens_idempotent]
  rw [slugChars_eq, List.getLast?_take, if_neg (by decide),
    CutAtHyphen]
  cases (fullSlug text.toList)[slugLimit - 1]? with
  | none => simpa using hLast
  | some c => simp

/- No more than one hyphen is at the end of a slug. -/
theorem slugChars_of_getLast?
    {cs : List Char}
    (hLast : (slugChars cs).getLast? = some '-') :
    slugChars cs = dropLastHyphens (slugChars cs) ++ ['-'] := by
  rcases List.getLast?_eq_some_iff.mp hLast with ⟨ds, hEnd⟩
  have hHyphenated := (isSlugFront_slugChars cs).toIsHyphenated
  rw [hEnd] at hHyphenated
  have hBefore := hHyphenated.getLast?
  rw [← dropLastHyphens_eq_self_iff] at hBefore
  rw [hEnd, dropLastHyphens_concat, hBefore]

/-
  A slug consists of lower-case letters, digits and hyphens,
  no two of them in a row, with none in front, and is no
  longer than allowed.  No hyphen ends it, and it is its own
  slug, unless the words of the text are cut behind a hyphen.
  It then has that one hyphen more than its own slug.
-/
theorem slugify_canonical_iff
    (text : String) :
    IsSlugFront (slugify text).toList ∧
    (IsSlug (slugify text).toList ↔ ¬ CutAtHyphen text) ∧
    (slugify (slugify text) = slugify text ↔
      ¬ CutAtHyphen text) ∧
    (CutAtHyphen text →
      slugify text = slugify (slugify text) ++ "-" ∧
      IsSlug (slugify (slugify text)).toList) := by
  have hFront := isSlugFront_slugChars text.toList
  have hCanonical :
      dropLastHyphens (slugChars text.toList) =
        slugChars text.toList ↔ ¬ CutAtHyphen text := by
    rw [dropLastHyphens_eq_self_iff, Ne, getLast?_slugChars_iff]
  simp only [slugify, String.toList_ofList, hFront.slugChars_eq]
  refine ⟨hFront, (isSlug_iff hFront).trans hCanonical, ?_, ?_⟩
  · rw [String.ofList_inj, hCanonical]
  · intro hCut
    refine ⟨?_, hFront.isSlug⟩
    have hOnce := slugChars_of_getLast?
      ((getLast?_slugChars_iff text).mpr hCut)
    rw [← String.toList_inj, String.toList_append,
      String.toList_ofList, String.toList_ofList]
    exact hOnce

/-
  Behind 219 letters the cut leaves the hyphen in front of the
  next word.
-/
theorem slugify_not_canonical :
    (slugify (String.ofList
      (List.replicate 219 'a' ++ [' ', 'b']))).toList.getLast? =
        some '-' ∧
    slugify (slugify (String.ofList
      (List.replicate 219 'a' ++ [' ', 'b']))) ≠
        slugify (String.ofList
          (List.replicate 219 'a' ++ [' ', 'b'])) := by
  simp only [slugify, String.toList_ofList, Ne,
    String.ofList_inj]
  decide +kernel

end EventSeries
