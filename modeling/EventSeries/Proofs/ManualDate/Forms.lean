import EventSeries.ManualDate
import EventSeries.Proofs.Text.Narrower

/-
  The five forms of a date that is listed by hand: the strict
  one, which has an offset, and the four layouts of wall
  times.  No text has two of them.  What stands behind the
  date, and what is left behind minute and second, tells the
  only form that a text can have; so the order in which the
  forms are tried makes no difference.

  Main declarations:
    * `ManualDate.Form`
    * `ManualDate.Form.ofText?`
    * `ManualDate.Form.ofText?_of_reads`
    * `ManualDate.Form.eq_of_reads`
    * `ManualDate.readingBy?_of_reads`
    * `ManualDate.forms_unambiguous`
-/

namespace EventSeries

open Scan (WallLayout)

------------------------------------------------------------
-- Parts Of A Time Of Day
------------------------------------------------------------

namespace Scan

variable {gap : Scan Unit}
variable {cs rest : List Char}
variable {c : ClockTime}

theorem hourAndMinuteWith_run_trimStart
    (cs : List Char) :
    (hourAndMinuteWith gap).run (trimStart cs) =
      (hourAndMinuteWith gap).run cs := by
  rw [hourAndMinuteWith, StateT.run_bind, StateT.run_bind,
    number_run_trimStart]

/- Blanks and digits are all that can come before a minute. -/
theorem digit_or_blank_of_hourAndMinute
    {first : Char}
    {r : (Nat × Nat) × List Char}
    (hRun :
      (hourAndMinuteWith gap).run (first :: cs) = some r) :
    first.isDigit = true ∨ isBlank first = true := by
  rcases run_bind_eq_some_iff.mp hRun with
    ⟨h, mid, hHour, _⟩
  exact digit_or_blank_of_number hHour

/- What is required takes nothing off the text. -/
theorem rest_of_require
    {α : Type}
    {a : α}
    {value : Option α}
    (hRun : (require value).run cs = some (a, rest)) :
    rest = cs := by
  cases value with
  | none => cases hRun
  | some b =>
      cases hRun
      rfl

theorem parts_of_timeOfHourAndMinute
    (hRun : (timeOfHourAndMinute gap).run cs = some (c, rest)) :
    ∃ hm, (hourAndMinuteWith gap).run cs =
      some (hm, rest) := by
  rcases run_bind_eq_some_iff.mp hRun with
    ⟨hm, mid, hMinute, hTime⟩
  rw [rest_of_require hTime]
  exact ⟨hm, hMinute⟩

/- Behind the minute there is a colon, and then the second. -/
theorem parts_of_time
    (hRun : (timeWith nothing).run cs = some (c, rest)) :
    ∃ hm mid,
      (hourAndMinuteWith nothing).run cs = some (hm, mid) ∧
        mid ≠ [] ∧
        ∃ sn, (secondAndNanosWith nothing).run mid =
          some (sn, rest) := by
  rcases run_bind_eq_some_iff.mp hRun with
    ⟨hm, mid, hMinute, hRest⟩
  rcases run_bind_eq_some_iff.mp hRest with
    ⟨sn, tail, hSecond, hTime⟩
  rw [rest_of_require hTime]
  refine ⟨hm, mid, hMinute, ?_, sn, hSecond⟩
  rintro rfl
  cases hSecond

/- An offset is not empty. -/
theorem ne_nil_of_offset
    {colon : Scan Unit}
    {offset : Int}
    (hRun : (offsetWith colon).run cs = some (offset, rest)) :
    cs ≠ [] := by
  rintro rfl
  cases hRun

end Scan

namespace ManualDate

------------------------------------------------------------
-- Forms
------------------------------------------------------------

/- The forms in which a date can be listed. -/
inductive Form where
  | strict
  | wall (layout : WallLayout)
  deriving DecidableEq, Repr

namespace Form

/- What a trimmed text says in a form. -/
def reading?
    (cs : List Char) : Form → Option Reading
  | strict => strictReading? cs
  | wall layout => wallReading? cs layout

/- The forms in the order in which they are tried. -/
def all : List Form :=
  strict :: WallLayout.all.map wall

theorem mem_all
    (f : Form) :
    f ∈ all := by
  rcases f with _ | _ | _ | _ | _ <;> decide

end Form

/- The first reading of a trimmed text in some forms. -/
def readingBy?
    (forms : List Form)
    (cs : List Char) : Option Reading :=
  forms.findSome? (Form.reading? cs)

/- The instant that a text lists in the first of some forms. -/
def parseBy
    (forms : List Form)
    (z : Zone)
    (raw : String) : Except ScheduleError Instant :=
  match readingBy? forms (trimChars raw.toList) with
  | some r => Bounded.toSchedule (r.instantIn z)
  | none => .error (.invalidManualDate raw)

theorem readingBy?_all
    (cs : List Char) :
    readingBy? Form.all cs = reading? cs := by
  rw [readingBy?, Form.all, List.findSome?_cons,
    List.findSome?_map, reading?]
  cases hStrict : strictReading? cs with
  | some r => simp only [Form.reading?, hStrict, Option.some_or]
  | none =>
      simp only [Form.reading?, hStrict, Option.none_or]
      rfl

------------------------------------------------------------
-- The Form Of A Text
------------------------------------------------------------

namespace Form

/- The layout with or without a letter, and seconds. -/
def layoutWith : Bool → Bool → WallLayout
  | true, true => .letterWithSeconds
  | true, false => .letterWithoutSeconds
  | false, true => .blankWithSeconds
  | false, false => .blankWithoutSeconds

/- The text behind a letter that parts date and time. -/
def behindLetter : List Char → List Char
  | 'T' :: cs => cs
  | 't' :: cs => cs
  | cs => cs

/-
  The only form that a text can have.  A wall time ends with
  its minute or its second, and a letter T may come before
  its hour; a strict text goes on behind its second.
-/
def ofText?
    (cs : List Char) : Option Form := do
  let (_, rest) ← (Scan.dateWith Scan.nothing).run cs
  let letter := rest.head? == some 'T'
  let (_, behindMinute) ←
    (Scan.hourAndMinuteWith Scan.nothing).run
      (behindLetter rest)
  if behindMinute = [] then
    return wall (layoutWith letter false)
  else
    let (_, behindSecond) ←
      (Scan.secondAndNanosWith Scan.nothing).run behindMinute
    if behindSecond = [] then
      return wall (layoutWith letter true)
    else
      return strict

variable {cs rest mid tail : List Char}
variable {d : Date}
variable {hm sn : Nat × Nat}

/- A text that ends with its minute. -/
theorem ofText?_of_minute
    (hDate :
      (Scan.dateWith Scan.nothing).run cs = some (d, rest))
    (hMinute :
      (Scan.hourAndMinuteWith Scan.nothing).run
        (behindLetter rest) = some (hm, [])) :
    ofText? cs =
      some
        (wall (layoutWith (rest.head? == some 'T') false)) := by
  simp [ofText?, hDate, hMinute]

/- A text that goes on behind its minute with a second. -/
theorem ofText?_of_second
    (hDate :
      (Scan.dateWith Scan.nothing).run cs = some (d, rest))
    (hMinute :
      (Scan.hourAndMinuteWith Scan.nothing).run
        (behindLetter rest) = some (hm, mid))
    (hSome : mid ≠ [])
    (hSecond :
      (Scan.secondAndNanosWith Scan.nothing).run mid =
        some (sn, tail)) :
    ofText? cs =
      some (if tail = [] then
        wall (layoutWith (rest.head? == some 'T') true)
      else
        strict) := by
  simp only [ofText?, hDate, hMinute, hSecond, if_neg hSome,
    Option.bind_eq_bind, Option.bind_some]
  split <;> rfl

/-
  Where blanks part date and time, there is no letter, and
  they make no difference to what is read behind them.
-/
theorem minute_of_blanks
    {r : (Nat × Nat) × List Char}
    (hMinute :
      (Scan.hourAndMinuteWith Scan.nothing).run
        (trimStart rest) = some r) :
    (Scan.hourAndMinuteWith Scan.nothing).run
        (behindLetter rest) = some r ∧
      (rest.head? == some 'T') = false := by
  rw [Scan.hourAndMinuteWith_run_trimStart] at hMinute
  have hFirst (c : Char) (tail : List Char)
      (hCons : rest = c :: tail) :
      c.isDigit = true ∨ isBlank c = true :=
    Scan.digit_or_blank_of_hourAndMinute (hCons ▸ hMinute)
  unfold behindLetter
  split
  · exact absurd (hFirst 'T' _ rfl) (by decide)
  · exact absurd (hFirst 't' _ rfl) (by decide)
  · refine ⟨hMinute, ?_⟩
    rw [beq_eq_false_iff_ne]
    intro hHead
    rcases List.head?_eq_some_iff.mp hHead with ⟨tail, hCons⟩
    exact absurd (hFirst 'T' tail hCons) (by decide)

theorem ofText?_of_layout
    {layout : WallLayout}
    {c : ClockTime}
    (hDate :
      (Scan.dateWith Scan.nothing).run cs = some (d, rest))
    (hSeparator : layout.separator.run rest = some ((), mid))
    (hTime : layout.timeOfDay.run mid = some (c, [])) :
    ofText? cs = some (wall layout) := by
  cases layout with
  | letterWithSeconds =>
      cases Scan.literal_run_eq_some hSeparator
      rcases Scan.parts_of_time hTime with
        ⟨_, _, hMinute, hSome, _, hSecond⟩
      exact ofText?_of_second hDate hMinute hSome hSecond
  | letterWithoutSeconds =>
      cases Scan.literal_run_eq_some hSeparator
      rcases Scan.parts_of_timeOfHourAndMinute hTime with
        ⟨_, hMinute⟩
      exact ofText?_of_minute hDate hMinute
  | blankWithSeconds =>
      cases hSeparator
      rcases Scan.parts_of_time hTime with
        ⟨_, _, hMinute, hSome, _, hSecond⟩
      rcases minute_of_blanks hMinute with ⟨hMinute, hLetter⟩
      rw [ofText?_of_second hDate hMinute hSome hSecond,
        hLetter]
      rfl
  | blankWithoutSeconds =>
      cases hSeparator
      rcases Scan.parts_of_timeOfHourAndMinute hTime with
        ⟨_, hMinute⟩
      rcases minute_of_blanks hMinute with ⟨hMinute, hLetter⟩
      rw [ofText?_of_minute hDate hMinute, hLetter]
      rfl

/- The separator of a strict text is a letter or a blank. -/
theorem minute_of_dateTimeSeparator
    {r : (Nat × Nat) × List Char}
    (hSeparator :
      Scan.dateTimeSeparator.run rest = some ((), mid))
    (hMinute :
      (Scan.hourAndMinuteWith Scan.nothing).run mid = some r) :
    (Scan.hourAndMinuteWith Scan.nothing).run
      (behindLetter rest) = some r := by
  rcases Scan.run_bind_eq_some_iff.mp hSeparator with
    ⟨c, tail, hOne, hRest⟩
  cases hRest
  rcases Scan.oneOf_run_eq_some hOne with ⟨rfl, hOk⟩
  simp only [Bool.or_eq_true, beq_iff_eq] at hOk
  rcases hOk with (rfl | rfl) | rfl
  · exact hMinute
  · exact hMinute
  · have hBlank : trimStart (' ' :: mid) = trimStart mid := rfl
    rw [← Scan.hourAndMinuteWith_run_trimStart, ← hBlank]
      at hMinute
    exact (minute_of_blanks hMinute).1

theorem ofText?_of_strict
    {t : Instant}
    (hRun : Scan.strictInstant.run cs = some (t, [])) :
    ofText? cs = some strict := by
  rw [Scan.strictInstant_eq] at hRun
  rcases Scan.run_bind_eq_some_iff.mp hRun with
    ⟨d, rest, hDate, hRun⟩
  rcases Scan.run_bind_eq_some_iff.mp hRun with
    ⟨_, mid, hSeparator, hRun⟩
  rcases Scan.run_bind_eq_some_iff.mp hRun with
    ⟨c, tail, hTime, hRun⟩
  rcases Scan.run_bind_eq_some_iff.mp hRun with
    ⟨offset, _, hOffset, _⟩
  -- Date and time read as those of a wall time, and then the
  -- offset is left, with which no wall time goes on.
  rcases Scan.parts_of_time
      (Scan.strictTime_narrower Scan.isGap_nothing mid _
        hTime) with
    ⟨_, _, hMinute, hSome, _, hSecond⟩
  rw [ofText?_of_second
    (Scan.strictDate_narrower Scan.isGap_nothing cs _ hDate)
    (minute_of_dateTimeSeparator hSeparator hMinute) hSome
    hSecond, if_neg (Scan.ne_nil_of_offset hOffset)]

/- A text that can be read in a form is of that form. -/
theorem ofText?_of_reads
    {f : Form}
    {r : Reading}
    (hReads : f.reading? cs = some r) :
    ofText? cs = some f := by
  cases f with
  | strict =>
      rcases Option.map_eq_some_iff.mp hReads with
        ⟨t, hWhole, _⟩
      exact ofText?_of_strict (Scan.whole?_eq_some_iff.mp hWhole)
  | wall layout =>
      rcases Option.map_eq_some_iff.mp hReads with
        ⟨l, hWhole, _⟩
      rcases Scan.run_bind_eq_some_iff.mp
          (Scan.whole?_eq_some_iff.mp hWhole) with
        ⟨d, rest, hDate, hRun⟩
      rcases Scan.run_bind_eq_some_iff.mp hRun with
        ⟨_, mid, hSeparator, hRun⟩
      rcases Scan.run_bind_eq_some_iff.mp hRun with
        ⟨c, tail, hTime, hLast⟩
      cases hLast
      exact ofText?_of_layout hDate hSeparator hTime

/- No text can be read in two forms. -/
theorem eq_of_reads
    {f g : Form}
    {r s : Reading}
    (hReads : f.reading? cs = some r)
    (hOther : g.reading? cs = some s) :
    f = g := by
  have hForm : ofText? cs = some f := ofText?_of_reads hReads
  rw [ofText?_of_reads hOther] at hForm
  exact (Option.some.inj hForm).symm

end Form

------------------------------------------------------------
-- Any Order Of The Forms
------------------------------------------------------------

variable {cs : List Char}

/- What a text says in one of some forms is all it says. -/
theorem readingBy?_of_reads
    {forms : List Form}
    {f : Form}
    {r : Reading}
    (hMember : f ∈ forms)
    (hReads : f.reading? cs = some r) :
    readingBy? forms cs = some r := by
  have hSome : (readingBy? forms cs).isSome := by
    rw [readingBy?, List.findSome?_isSome_iff]
    exact ⟨f, hMember, by rw [hReads]; rfl⟩
  rcases Option.isSome_iff_exists.mp hSome with ⟨s, hFirst⟩
  rcases List.exists_of_findSome?_eq_some hFirst with
    ⟨g, _, hOther⟩
  have hSame : f = g := Form.eq_of_reads hReads hOther
  rw [hFirst, ← hOther, ← hSame, hReads]

/- All forms together say the same in any order. -/
theorem readingBy?_eq_reading?
    {forms : List Form}
    (hAll : ∀ f, f ∈ forms)
    (cs : List Char) :
    readingBy? forms cs = reading? cs := by
  rw [← readingBy?_all]
  cases hReading : readingBy? Form.all cs with
  | some r =>
      rcases List.exists_of_findSome?_eq_some hReading with
        ⟨f, _, hReads⟩
      exact readingBy?_of_reads (hAll f) hReads
  | none =>
      rw [readingBy?, List.findSome?_eq_none_iff] at hReading ⊢
      exact fun f _ => hReading f f.mem_all

/-
  No text can be read in two forms, so that the forms may be
  tried in any order.
-/
theorem forms_unambiguous
    (raw : String) :
    (∀ (f g : Form) (r s : Reading),
      f.reading? (trimChars raw.toList) = some r →
        g.reading? (trimChars raw.toList) = some s →
          f = g) ∧
      ∀ forms : List Form, (∀ f, f ∈ forms) →
        ∀ z, parseBy forms z raw = parse z raw := by
  constructor
  · intro f g r s hReads hOther
    exact Form.eq_of_reads hReads hOther
  · intro forms hAll z
    rw [parseBy, readingBy?_eq_reading? hAll]
    rfl

/-
  A text that has nothing between its date and its time is a
  wall time and nothing else, whichever form comes first.
-/
theorem forms_unambiguous_fourthOfJuly :
    let raw := " 2025-07-0421:00\u3000"
    let form := Form.wall .blankWithoutSeconds
    form.reading? (trimChars raw.toList) =
        some (.wall ⟨⟨20273⟩, .ofSecond 75600 0⟩) ∧
      (∀ g s, g.reading? (trimChars raw.toList) = some s →
        g = form) ∧
      (∀ f, f ∈ Form.all.reverse) ∧
      ∀ z, parseBy Form.all.reverse z raw = parse z raw := by
  intro raw form
  have hReads :
      form.reading? (trimChars raw.toList) =
        some (.wall ⟨⟨20273⟩, .ofSecond 75600 0⟩) := by
    decide
  have hAll (f : Form) : f ∈ Form.all.reverse :=
    List.mem_reverse.mpr f.mem_all
  rcases forms_unambiguous raw with ⟨hOnly, hOrder⟩
  exact ⟨hReads,
    fun g s hOther => hOnly g form s _ hOther hReads, hAll,
    hOrder _ hAll⟩

end ManualDate

end EventSeries
