import EventSeries.Calendar.Date

/-
  This file defines the errors of scheduling and their texts.

  Key definitions include:
    * `ScheduleError`
    * `ScheduleError.message`
    * `Bounded.toSchedule`
-/

namespace EventSeries

/- Ways in which the recurrence fields of an event clash. -/
inductive RuleConflict where
  | manualDatesRepeat
  | startMissing
  | overrideRepeats
  | weekdayRange
  | weekOfMonthRange
  | dayOfMonthRange
  deriving DecidableEq, Repr

/- Settings that must not be zero. -/
inductive SettingBound where
  | attemptsPerOccurrence
  | maxOccurrences
  deriving DecidableEq, Repr

/- Ways in which the text of the settings is unusable. -/
inductive SettingsFault where
  | malformed
  | zero (setting : SettingBound)
  deriving DecidableEq, Repr

/-
  What can go wrong: a zone that is not known, a manual date
  that cannot be read, recurrence fields that clash, unusable
  settings, a failing store, or arithmetic out of range.
-/
inductive ScheduleError where
  | invalidTimezone (name : String)
  | invalidManualDate (value : String)
  | invalidRecurrence (conflict : RuleConflict)
  | invalidConfig (fault : SettingsFault)
  | store (reason : String)
  | outOfRange (range : OutOfRange)
  deriving DecidableEq, Repr

namespace RuleConflict

/- The rule that a conflict breaks. -/
def message : RuleConflict → String
  | manualDatesRepeat =>
      "manual occurrences require frequency 'none'"
  | startMissing => "a recurring event needs a start time"
  | overrideRepeats => "an override event cannot repeat"
  | weekdayRange =>
      "weekday must be between 0 (Monday) and 6 (Sunday)"
  | weekOfMonthRange =>
      "week of month must be between 1 and 5"
  | dayOfMonthRange =>
      "day of month must be between 1 and 31"

end RuleConflict

namespace SettingsFault

/- The rule that the settings break. -/
def message : SettingsFault → String
  | malformed => "not a settings document"
  | zero .attemptsPerOccurrence =>
      "attempts_per_occurrence must be at least 1"
  | zero .maxOccurrences =>
      "max_occurrences must be at least 1"

end SettingsFault

namespace ScheduleError

/- The text of an error. -/
def message : ScheduleError → String
  | invalidTimezone name => "Invalid timezone: " ++ name
  | invalidManualDate value =>
      "Invalid manual occurrence '" ++ value
        ++ "': expected an ISO 8601 datetime"
  | invalidRecurrence conflict =>
      "Invalid recurrence: " ++ conflict.message
  | invalidConfig fault =>
      "Invalid configuration: " ++ fault.message
  | store reason => "Store error: " ++ reason
  | outOfRange _ => "Out of the calendar's range"

end ScheduleError

/- Arithmetic out of range, as an error of scheduling. -/
def Bounded.toSchedule
    {α : Type} :
    Bounded α → Except ScheduleError α
  | .ok a => .ok a
  | .error range => .error (.outOfRange range)

end EventSeries
