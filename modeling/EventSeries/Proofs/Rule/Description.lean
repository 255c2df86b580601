import EventSeries.Event.Validation
import EventSeries.Proofs.Calendar.MonthDates
import EventSeries.Proofs.Text.Decimal
import EventSeries.Rule.Stepping
import EventSeries.Zone.Tables.Europe

/-
  The summary of a rule against its steps.  A summary is a
  sentence, whose words are found again between its blanks;
  they name every parameter that the frequency uses, as long
  as the parameters are in range.  Rules of one frequency with
  the same summary therefore take the same steps.

  Main declarations:
    * `sentence_injective`
    * `eq_of_label`
    * `Rule.words`
    * `Rule.description_eq_sentence`
    * `Rule.description_eq_iff`
    * `Rule.nextAfter_canonical`
    * `Rule.nextAfter_of_description`
-/

namespace EventSeries

------------------------------------------------------------
-- Sentences
------------------------------------------------------------

/- Words with a blank between any two of them. -/
def sentence
    (words : List String) : String :=
  String.ofList ([' '].intercalate (words.map String.toList))

/- Some words, none of which has a blank in it. -/
def AreWords
    (words : List String) : Prop :=
  words ≠ [] ∧ ∀ w ∈ words, ' ' ∉ w.toList

/- The words of a sentence stand between its blanks. -/
theorem sentence_injective
    {words others : List String}
    (hWords : AreWords words)
    (hOthers : AreWords others)
    (hSame : sentence words = sentence others) :
    words = others := by
  have hSplit {ws : List String} (hWs : AreWords ws) :
      ([' '].intercalate (ws.map String.toList)).splitOn ' ' =
        ws.map String.toList := by
    apply List.splitOn_intercalate
    · intro cs hMember
      rcases List.mem_map.mp hMember with ⟨w, hWord, rfl⟩
      exact hWs.2 w hWord
    · simpa using hWs.1
  have hChars := String.ofList_injective hSame
  have hLists := congrArg (List.splitOn ' ') hChars
  rw [hSplit hWords, hSplit hOthers] at hLists
  exact List.map_injective_iff.mpr
    (fun _ _ => String.toList_inj.mp) hLists

------------------------------------------------------------
-- Names Of Parameters
------------------------------------------------------------

theorem outside_eq_false_iff
    {low high : Nat}
    {parameter : Option UInt8} :
    outside low high parameter = false ↔
      ∀ n, parameter = some n → low ≤ n.toNat ∧ n.toNat ≤ high := by
  cases parameter with
  | none => simp [outside]
  | some n => simp [outside]

/-
  Where every number of a range has a label of its own, a
  parameter in range is known by its label, or by not having
  one.
-/
theorem eq_of_label
    {label : UInt8 → Option String}
    {low high : Nat}
    {parameter other : Option UInt8}
    (hLabelled :
      ∀ i ≤ high, low ≤ i → label (.ofNat i) ≠ none)
    (hOwn :
      ∀ i ≤ high, ∀ j ≤ high, low ≤ i → low ≤ j →
        label (.ofNat i) = label (.ofNat j) → i = j)
    (hRange : outside low high parameter = false)
    (hOther : outside low high other = false)
    (hSame : parameter.bind label = other.bind label) :
    parameter = other := by
  rw [outside_eq_false_iff] at hRange hOther
  have hNumber (n : UInt8) : UInt8.ofNat n.toNat = n :=
    UInt8.ofNat_toNat
  cases parameter with
  | none =>
      cases other with
      | none => rfl
      | some n =>
          rcases hOther n rfl with ⟨hLow, hHigh⟩
          have hSome := hLabelled n.toNat hHigh hLow
          rw [hNumber] at hSome
          exact absurd hSame.symm hSome
  | some m =>
      rcases hRange m rfl with ⟨hLow, hHigh⟩
      cases other with
      | none =>
          have hSome := hLabelled m.toNat hHigh hLow
          rw [hNumber] at hSome
          exact absurd hSame hSome
      | some n =>
          rcases hOther n rfl with ⟨hOtherLow, hOtherHigh⟩
          have hEq :=
            hOwn m.toNat hHigh n.toNat hOtherHigh hLow hOtherLow
          rw [hNumber, hNumber] at hEq
          rw [UInt8.toNat_inj.mp (hEq hSame)]

theorem eq_of_weekdayLabel
    {weekday other : Option UInt8}
    (hRange : outside 0 6 weekday = false)
    (hOther : outside 0 6 other = false)
    (hSame : weekday.bind weekdayLabel? = other.bind weekdayLabel?) :
    weekday = other :=
  eq_of_label (by decide) (by decide) hRange hOther hSame

theorem eq_of_weekOfMonthWord
    {week other : Option UInt8}
    (hRange : outside 1 5 week = false)
    (hOther : outside 1 5 other = false)
    (hSame :
      week.bind weekOfMonthWord? = other.bind weekOfMonthWord?) :
    week = other :=
  eq_of_label (by decide) (by decide) hRange hOther hSame

namespace Rule

------------------------------------------------------------
-- Words Of A Summary
------------------------------------------------------------

/- The words that a weekday adds, if there is one. -/
def dayWords :
    Option String → List String
  | some day => ["on", day]
  | .none => []

/- The words that a day of the month adds, if there is one. -/
def dayNumberWords :
    Option Nat → List String
  | some n => ["on", "day", String.ofList (digits n)]
  | .none => []

/- The words that the week and the weekday of a month add. -/
def weekWords :
    Option String → Option String → List String
  | some week, some day => ["on", "the", week, day]
  | some week, .none => ["on", "the", week, "week"]
  | .none, day => dayWords day

/- The words of the summary of a rule. -/
def words
    (r : Rule) : List String :=
  let day := r.weekday.bind weekdayLabel?
  match r.frequency with
  | .none => ["Does", "not", "repeat"]
  | .weekly => "Weekly" :: dayWords day
  | .biweekly => "Every" :: "other" :: "week" :: dayWords day
  | .monthlyByDate =>
      "Monthly" :: dayNumberWords (positive? r.dayOfMonth)
  | .monthlyByWeekday =>
      "Monthly" ::
        weekWords (r.weekOfMonth.bind weekOfMonthWord?) day

/- What a weekday adds to a summary are words of its own. -/
theorem toList_describeOn
    (base : String)
    (day : Option String) :
    (describeOn base day).toList =
      [' '].intercalate
        (base.toList :: (dayWords day).map String.toList) := by
  cases day with
  | none => simp [describeOn, dayWords]
  | some day => simp [describeOn, dayWords]

theorem description_eq_sentence
    (r : Rule) :
    r.description = sentence r.words := by
  apply String.toList_inj.mp
  rw [sentence, String.toList_ofList]
  unfold description words
  cases r.frequency with
  | none => simp
  | weekly => exact toList_describeOn "Weekly" _
  | biweekly =>
      simp only [toList_describeOn]
      cases r.weekday.bind weekdayLabel? with
      | none => simp [dayWords]
      | some day => simp [dayWords]
  | monthlyByDate =>
      cases r.dayOfMonth with
      | none => simp [positive?, dayNumberWords]
      | some n =>
          by_cases hPos : 0 < n.toNat
          · simp [positive?, hPos, dayNumberWords]
          · simp [positive?, hPos, dayNumberWords]
  | monthlyByWeekday =>
      cases r.weekOfMonth.bind weekOfMonthWord? with
      | none => exact toList_describeOn "Monthly" _
      | some week =>
          cases r.weekday.bind weekdayLabel? with
          | none => simp [weekWords]
          | some day => simp [weekWords]

/- No word of a summary has a blank in it. -/
theorem blank_not_mem_weekdayLabel
    {weekday : Option UInt8}
    {label : String}
    (hLabel : weekday.bind weekdayLabel? = some label) :
    ' ' ∉ label.toList := by
  rcases Option.bind_eq_some_iff.mp hLabel with ⟨_, _, hNamed⟩
  rcases Option.map_eq_some_iff.mp hNamed with ⟨w, _, rfl⟩
  cases w <;> decide

theorem blank_not_mem_weekOfMonthWord
    {week : Option UInt8}
    {word : String}
    (hWord : week.bind weekOfMonthWord? = some word) :
    ' ' ∉ word.toList := by
  rcases Option.bind_eq_some_iff.mp hWord with ⟨n, _, hNamed⟩
  unfold weekOfMonthWord? at hNamed
  split at hNamed
  case h_6 => cases hNamed
  all_goals
    cases hNamed
    decide

theorem blank_not_mem_dayWords
    {day : Option String}
    (hDay : ∀ label, day = some label → ' ' ∉ label.toList) :
    ∀ w ∈ dayWords day, ' ' ∉ w.toList := by
  cases day with
  | none => nofun
  | some label => simpa [dayWords] using hDay label rfl

theorem areWords_words
    (r : Rule) :
    AreWords r.words := by
  have hLabels :
      ∀ label, r.weekday.bind weekdayLabel? = some label →
        ' ' ∉ label.toList := by
    intro label hLabel
    exact blank_not_mem_weekdayLabel hLabel
  have hDay := blank_not_mem_dayWords hLabels
  unfold words
  cases r.frequency with
  | none => exact ⟨by simp, by simp⟩
  | weekly => exact ⟨by simp, by simpa using hDay⟩
  | biweekly => exact ⟨by simp, by simpa using hDay⟩
  | monthlyByDate =>
      refine ⟨by simp, ?_⟩
      cases positive? r.dayOfMonth with
      | none => simp [dayNumberWords]
      | some n =>
          have hDigits : ' ' ∉ digits n := by
            intro hMember
            have hDigit := isDigit_of_mem_digits hMember
            revert hDigit
            decide
          simpa [dayNumberWords] using hDigits
  | monthlyByWeekday =>
      refine ⟨by simp, ?_⟩
      cases hWeek : r.weekOfMonth.bind weekOfMonthWord? with
      | none => simpa [weekWords] using hDay
      | some week =>
          have hWord := blank_not_mem_weekOfMonthWord hWeek
          cases hLabel : r.weekday.bind weekdayLabel? with
          | none => simpa [weekWords] using hWord
          | some day =>
              have hName := blank_not_mem_weekdayLabel hLabel
              simpa [weekWords] using ⟨hWord, hName⟩

------------------------------------------------------------
-- Rules With The Same Summary
------------------------------------------------------------

theorem conflict?_eq_none_iff
    {r : Rule} :
    r.conflict? = .none ↔
      outside 0 6 r.weekday = false ∧
        outside 1 5 r.weekOfMonth = false ∧
        outside 1 31 r.dayOfMonth = false := by
  unfold conflict?
  cases outside 0 6 r.weekday <;>
    cases outside 1 5 r.weekOfMonth <;>
    cases outside 1 31 r.dayOfMonth <;> simp

theorem dayWords_injective :
    Function.Injective dayWords := by
  intro day other hSame
  cases day <;> cases other <;> simp_all [dayWords]

theorem dayNumberWords_injective :
    Function.Injective dayNumberWords := by
  intro day other hSame
  cases day with
  | none =>
      cases other with
      | none => rfl
      | some n => cases hSame
  | some m =>
      cases other with
      | none => cases hSame
      | some n =>
          simp only [dayNumberWords, List.cons.injEq, and_true,
            true_and] at hSame
          rw [digits_injective (String.ofList_injective hSame)]

/- A week is named before its weekday, and no day is a week. -/
theorem weekWords_injective
    {week otherWeek day otherDay : Option String}
    (hDay : day ≠ some "week")
    (hOther : otherDay ≠ some "week")
    (hSame : weekWords week day = weekWords otherWeek otherDay) :
    week = otherWeek ∧ day = otherDay := by
  cases week <;> cases otherWeek <;> cases day <;>
    cases otherDay <;> simp_all [weekWords, dayWords]

theorem weekdayLabel_ne_week
    (weekday : Option UInt8) :
    weekday.bind weekdayLabel? ≠ some "week" := by
  intro hLabel
  rcases Option.bind_eq_some_iff.mp hLabel with ⟨_, _, hNamed⟩
  rcases Option.map_eq_some_iff.mp hNamed with ⟨w, _, hName⟩
  revert hName
  cases w <;> decide

/- A day in range is positive, and so used as it is given. -/
theorem positive?_of_range
    {day : Option UInt8}
    (hRange : outside 1 31 day = false) :
    positive? day = day.map UInt8.toNat := by
  cases day with
  | none => rfl
  | some n => exact if_pos (outside_eq_false_iff.mp hRange n rfl).1

variable {r other : Rule}

/- The words of a summary name all that its frequency uses. -/
theorem canonical_eq_of_words
    (hFrequency : r.frequency = other.frequency)
    (hRange : r.conflict? = .none)
    (hOther : other.conflict? = .none)
    (hSame : r.words = other.words) :
    r.canonical = other.canonical := by
  rcases conflict?_eq_none_iff.mp hRange with
    ⟨hWeekday, hWeek, hDay⟩
  rcases conflict?_eq_none_iff.mp hOther with
    ⟨hOtherWeekday, hOtherWeek, hOtherDay⟩
  unfold words at hSame
  unfold canonical
  rw [← hFrequency] at hSame ⊢
  cases hCase : r.frequency with
  | none => rfl
  | weekly =>
      simp only [hCase, List.cons.injEq, true_and] at hSame
      simp only
      rw [eq_of_weekdayLabel hWeekday hOtherWeekday
        (dayWords_injective hSame)]
  | biweekly =>
      simp only [hCase, List.cons.injEq, true_and] at hSame
      simp only
      rw [eq_of_weekdayLabel hWeekday hOtherWeekday
        (dayWords_injective hSame)]
  | monthlyByDate =>
      simp only [hCase, List.cons.injEq, true_and] at hSame
      have hNumbers := dayNumberWords_injective hSame
      rw [positive?_of_range hDay, positive?_of_range hOtherDay]
        at hNumbers
      simp only
      rw [Option.map_injective
        (fun _ _ => UInt8.toNat_inj.mp) hNumbers]
  | monthlyByWeekday =>
      simp only [hCase, List.cons.injEq, true_and] at hSame
      rcases weekWords_injective (weekdayLabel_ne_week _)
          (weekdayLabel_ne_week _) hSame with
        ⟨hWord, hLabel⟩
      simp only
      rw [eq_of_weekdayLabel hWeekday hOtherWeekday hLabel,
        eq_of_weekOfMonthWord hWeek hOtherWeek hWord]

theorem words_canonical
    (r : Rule) :
    r.canonical.words = r.words := by
  rcases r with ⟨frequency, weekday, week, day⟩
  cases frequency <;> rfl

/-
  With parameters in range, rules of one frequency have the
  same summary exactly if they agree on its parameters.
-/
theorem description_eq_iff
    (hFrequency : r.frequency = other.frequency)
    (hRange : r.conflict? = .none)
    (hOther : other.conflict? = .none) :
    r.description = other.description ↔
      r.canonical = other.canonical := by
  rw [description_eq_sentence, description_eq_sentence]
  constructor
  · intro hSame
    exact canonical_eq_of_words hFrequency hRange hOther
      (sentence_injective r.areWords_words other.areWords_words
        hSame)
  · intro hSame
    rw [← words_canonical r, hSame, words_canonical]

------------------------------------------------------------
-- Steps
------------------------------------------------------------

/- A rule steps by the parameters of its frequency only. -/
theorem nextDate_canonical
    (r : Rule)
    (d : Date) :
    r.canonical.nextDate d = r.nextDate d := by
  rcases r with ⟨frequency, weekday, week, day⟩
  cases frequency <;> rfl

theorem nextAfter_canonical
    (r : Rule)
    (z : Zone)
    (time : ClockTime)
    (current : Instant) :
    r.canonical.nextAfter z time current =
      r.nextAfter z time current := by
  simp only [nextAfter, nextDate_canonical]

/-
  Two rules of one frequency, with parameters that are in
  range or missing, take the same steps if they have the same
  summary: from every start, at every time of day and in every
  zone.
-/
theorem nextAfter_of_description
    (hFrequency : r.frequency = other.frequency)
    (hRange : r.conflict? = .none)
    (hOther : other.conflict? = .none)
    (hSame : r.description = other.description)
    (z : Zone)
    (time : ClockTime)
    (current : Instant) :
    r.nextAfter z time current =
      other.nextAfter z time current := by
  have hCanonical :=
    (description_eq_iff hFrequency hRange hOther).mp hSame
  rw [← nextAfter_canonical r, hCanonical, nextAfter_canonical]

/-
  A monthly rule for the first Thursday, and one that has a
  day of the month besides, which its frequency does not use.
-/
theorem nextAfter_of_description_firstThursday :
    let r := monthlyByWeekday (some 3) (some 1)
    let other := { r with dayOfMonth := some 31 }
    let time : ClockTime := ⟨72000, 0, by decide⟩
    r.frequency = other.frequency ∧
      r.conflict? = .none ∧
      other.conflict? = .none ∧
      r.description = other.description ∧
      ∀ current : Instant,
        r.nextAfter .berlin time current =
          other.nextAfter .berlin time current := by
  intro r other time
  have hRange : r.conflict? = .none := by decide
  have hOther : other.conflict? = .none := by decide
  refine ⟨rfl, hRange, hOther, rfl, ?_⟩
  exact nextAfter_of_description rfl hRange hOther rfl .berlin
    time

end Rule

end EventSeries
