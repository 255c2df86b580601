import EventSeries.Calendar.Date
import EventSeries.Text.Decimal

/-
  This file defines recurrence rules.  An event does not
  repeat, repeats every week or every other week, or repeats
  monthly on a day number or on the n-th weekday.  A rule
  carries the parameters of all shapes; which of them matter
  is decided by its frequency.

  Key definitions include:
    * `Frequency`
    * `Frequency.isRecurring`
    * `Frequency.label`
    * `Rule`
    * `Rule.none`
    * `Rule.weekly`
    * `Rule.biweekly`
    * `Rule.monthlyByDate`
    * `Rule.monthlyByWeekday`
    * `Rule.targetWeekday?`
    * `weekdayLabel?`
    * `weekOfMonthLabel?`
    * `weekOfMonthWord?`
    * `Rule.description`
-/

namespace EventSeries

------------------------------------------------------------
-- Frequencies
------------------------------------------------------------

/- The five ways in which an event can repeat. -/
inductive Frequency where
  | none
  | weekly
  | biweekly
  | monthlyByDate
  | monthlyByWeekday
  deriving DecidableEq, Repr

namespace Frequency

/- All frequencies but the first repeat. -/
def isRecurring : Frequency → Bool
  | .none => false
  | _ => true

/- Short label of a frequency. -/
def label : Frequency → String
  | .none => "Does not repeat"
  | .weekly => "Weekly"
  | .biweekly => "Every other week"
  | .monthlyByDate => "Monthly (specific date)"
  | .monthlyByWeekday => "Monthly (weekday, e.g. 1st Thursday)"

end Frequency

------------------------------------------------------------
-- Rules
------------------------------------------------------------

/-
  A frequency with its parameters: a weekday counted from
  Monday as 0, a week of the month from 1 to 5, and a day of
  the month from 1 to 31.  Parameters are small numbers whose
  ranges are not enforced here.
-/
structure Rule where
  frequency : Frequency := .none
  weekday : Option UInt8 := .none
  weekOfMonth : Option UInt8 := .none
  dayOfMonth : Option UInt8 := .none
  deriving DecidableEq, Repr

namespace Rule

/- The rule of an event that happens once. -/
def none : Rule :=
  {}

/- Every week, on a weekday if one is given. -/
def weekly
    (weekday : Option UInt8) : Rule where
  frequency := .weekly
  weekday := weekday

/- Every other week, on a weekday if one is given. -/
def biweekly
    (weekday : Option UInt8) : Rule where
  frequency := .biweekly
  weekday := weekday

/- Every month, on a day number if one is given. -/
def monthlyByDate
    (dayOfMonth : Option UInt8) : Rule where
  frequency := .monthlyByDate
  dayOfMonth := dayOfMonth

/- Every month, on the weekday of a week. -/
def monthlyByWeekday
    (weekday weekOfMonth : Option UInt8) : Rule where
  frequency := .monthlyByWeekday
  weekday := weekday
  weekOfMonth := weekOfMonth

/- The rule that keeps the parameters of its frequency. -/
def canonical
    (r : Rule) : Rule :=
  match r.frequency with
  | .none => none
  | .weekly => weekly r.weekday
  | .biweekly => biweekly r.weekday
  | .monthlyByDate => monthlyByDate r.dayOfMonth
  | .monthlyByWeekday =>
      monthlyByWeekday r.weekday r.weekOfMonth

/- Whether events under the rule repeat. -/
def isRecurring
    (r : Rule) : Bool :=
  r.frequency.isRecurring

/- The weekday parameter, if it names a weekday. -/
def targetWeekday?
    (r : Rule) : Option Weekday :=
  r.weekday.bind fun index => Weekday.ofIndex? index.toNat

end Rule

------------------------------------------------------------
-- Descriptions
------------------------------------------------------------

/- Name of the weekday with an index. -/
def weekdayLabel?
    (index : UInt8) : Option String :=
  (Weekday.ofIndex? index.toNat).map Weekday.name

/- Ordinal word for a week of the month. -/
def weekOfMonthLabel?
    (week : UInt8) : Option String :=
  match week.toNat with
  | 1 => some "First"
  | 2 => some "Second"
  | 3 => some "Third"
  | 4 => some "Fourth"
  | 5 => some "Fifth"
  | _ => .none

/- As `weekOfMonthLabel?`, inside a sentence. -/
def weekOfMonthWord?
    (week : UInt8) : Option String :=
  match week.toNat with
  | 1 => some "first"
  | 2 => some "second"
  | 3 => some "third"
  | 4 => some "fourth"
  | 5 => some "fifth"
  | _ => .none

namespace Rule

/- A base text, with the weekday if there is one. -/
def describeOn
    (base : String) :
    Option String → String
  | some day => base ++ " on " ++ day
  | .none => base

/- Summary of a rule in words. -/
def description
    (r : Rule) : String :=
  let day := r.weekday.bind weekdayLabel?
  match r.frequency with
  | .none => "Does not repeat"
  | .weekly => describeOn "Weekly" day
  | .biweekly => describeOn "Every other week" day
  | .monthlyByDate =>
      match r.dayOfMonth with
      | some n =>
          if 0 < n.toNat then
            "Monthly on day " ++ String.ofList (digits n.toNat)
          else
            "Monthly"
      | .none => "Monthly"
  | .monthlyByWeekday =>
      match r.weekOfMonth.bind weekOfMonthWord?, day with
      | some week, some day =>
          "Monthly on the " ++ week ++ " " ++ day
      | some week, .none =>
          "Monthly on the " ++ week ++ " week"
      | .none, day => describeOn "Monthly" day

end Rule

end EventSeries
