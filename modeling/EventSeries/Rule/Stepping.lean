import EventSeries.Rule.Basic
import EventSeries.Zone.Basic

/-
  This file defines how a recurrence rule steps from one date
  to the next, and from one start to the next.  A step is
  made on the local date of the current start, and its result
  is placed at a time of day that the caller fixes, so that a
  start which the clocks moved does not pass its moved time
  on.

  Key definitions include:
    * `Rule.nextDate`
    * `Rule.nextAfter`
    * `Rule.startsAfter`
-/

namespace EventSeries.Rule

------------------------------------------------------------
-- Dates
------------------------------------------------------------

/-
  So many weeks later, and then forward to the target weekday
  if there is one.
-/
def stepWeeks
    (r : Rule)
    (weeks : Nat)
    (d : Date) : Bounded Date := do
  let stepped ← d.addDays (7 * weeks)
  match r.targetWeekday? with
  | some w => stepped.addDays (stepped.weekday.daysUntil w)
  | .none => return stepped

/- A parameter that is given and not 0. -/
def positive? : Option UInt8 → Option Nat
  | some n => if 0 < n.toNat then some n.toNat else .none
  | .none => .none

/-
  The next month, on the configured day or on the day of the
  date.  There is no next month after the calendar's last.
-/
def stepMonthByDate
    (r : Rule)
    (d : Date) : Bounded (Option Date) := do
  let next ← nextMonth d.year d.month
  clampedDate? next.1 next.2
    ((positive? r.dayOfMonth).getD d.day)

/-
  The next month, on the weekday of the configured week; the
  weekday of the date and the first week stand in for what is
  missing.
-/
def stepMonthByWeekday
    (r : Rule)
    (d : Date) : Bounded (Option Date) := do
  let next ← nextMonth d.year d.month
  let day ← nthWeekdayOfMonth next.1 next.2
    (r.targetWeekday?.getD d.weekday)
    ((positive? r.weekOfMonth).getD 1)
  clampedDate? next.1 next.2 day

/- The date that follows `d` in the pattern, if one does. -/
def nextDate
    (r : Rule)
    (d : Date) : Bounded (Option Date) :=
  match r.frequency with
  | .none => .ok .none
  | .weekly => some <$> r.stepWeeks 1 d
  | .biweekly => some <$> r.stepWeeks 2 d
  | .monthlyByDate => r.stepMonthByDate d
  | .monthlyByWeekday => r.stepMonthByWeekday d

------------------------------------------------------------
-- Starts
------------------------------------------------------------

/- The start that follows `current`, at a given time of day. -/
def nextAfter
    (r : Rule)
    (z : Zone)
    (time : ClockTime)
    (current : Instant) : Bounded (Option Instant) := do
  let here ← z.toLocal current
  match ← r.nextDate here.date with
  | .none => return .none
  | some next => some <$> z.localize ⟨next, time⟩

/-
  The next `steps` starts after `current`, or fewer when the
  pattern ends.  The place where it ends is marked by `none`.
-/
def startsAfter
    (r : Rule)
    (z : Zone)
    (time : ClockTime) :
    Nat → Instant → Bounded (List (Option Instant))
  | 0, _ => .ok []
  | steps + 1, current => do
      match ← r.nextAfter z time current with
      | .none => return [.none]
      | some next =>
          let later ← startsAfter r z time steps next
          return some next :: later

end EventSeries.Rule
