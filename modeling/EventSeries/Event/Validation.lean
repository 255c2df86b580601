import EventSeries.Event.Basic
import EventSeries.ManualDate

/-
  This file checks what must hold of an event before it is
  scheduled: that its recurrence fields agree, that their
  values are in range, and that its manual dates can be read.

  Key definitions include:
    * `Rule.conflict?`
    * `Event.conflict?`
    * `Event.validate`
-/

namespace EventSeries

/- A parameter that is given and outside a range. -/
def outside
    (low high : Nat) :
    Option UInt8 → Bool
  | some n => n.toNat < low || high < n.toNat
  | none => false

/- The first parameter of a rule that is out of range. -/
def Rule.conflict?
    (r : Rule) : Option RuleConflict :=
  if outside 0 6 r.weekday then
    some .weekdayRange
  else if outside 1 5 r.weekOfMonth then
    some .weekOfMonthRange
  else if outside 1 31 r.dayOfMonth then
    some .dayOfMonthRange
  else
    .none

namespace Event

/- The first rule that the recurrence fields break. -/
def conflict?
    (e : Event) : Option RuleConflict :=
  if e.hasManualOccurrences && e.isRecurring then
    some .manualDatesRepeat
  else if e.isRecurring && e.referenceStart?.isNone then
    some .startMissing
  else if e.isOverride && e.isRecurring then
    some .overrideRepeats
  else
    e.recurrence.conflict?

/- The first manual date that cannot be read, as an error. -/
def checkManualDates
    (z : Zone) :
    List String → Except ScheduleError Unit
  | [] => .ok ()
  | raw :: rest => do
      let _ ← ManualDate.parse z raw
      checkManualDates z rest

/- Whether an event may be handed to the scheduler. -/
def validate
    (e : Event)
    (z : Zone) : Except ScheduleError Unit :=
  match e.conflict? with
  | some conflict => .error (.invalidRecurrence conflict)
  | none => checkManualDates z e.manualOccurrences

end Event

end EventSeries
