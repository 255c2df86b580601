import EventSeries.Error
import EventSeries.Series.Basic
import EventSeries.Zone.Names

/-
  This file defines the settings of an organization: its time
  zone, how many occurrences its listings show, how far ahead
  they look, and how hard a walk tries.

  Key definitions include:
    * `Settings`
    * `Zone.parse`
    * `Settings.zone`
    * `Settings.validate`
    * `Settings.defaultHorizon`
-/

namespace EventSeries

/-
  The zone with a given name, or an error that quotes it.
  Names of the tz database that `Zone.known` leaves out are in
  error, too.
-/
def Zone.parse
    (name : String) : Except ScheduleError Zone :=
  match Zone.ofName? name with
  | some z => .ok z
  | none => .error (.invalidTimezone name)

/- The settings of an organization. -/
structure Settings where
  timezone : String := "UTC"
  maxOccurrences : Nat := 64
  horizonMonths : Nat := 6
  attemptsPerOccurrence : Nat := 6
  deriving DecidableEq, Repr

namespace Settings

/- A horizon is never more than a hundred years away. -/
def maxHorizonMonths : Nat :=
  12 * 100

/- The zone that the settings name. -/
def zone
    (s : Settings) : Except ScheduleError Zone :=
  Zone.parse s.timezone

/- The first bound that is zero. -/
def zeroBound?
    (s : Settings) : Option SettingBound :=
  if s.attemptsPerOccurrence = 0 then
    some .attemptsPerOccurrence
  else if s.maxOccurrences = 0 then
    some .maxOccurrences
  else
    none

/- The zone of settings whose bounds are not zero. -/
def validate
    (s : Settings) : Except ScheduleError Zone :=
  match s.zeroBound? with
  | some bound => .error (.invalidConfig (.zero bound))
  | none => s.zone

/- The months between the present and the horizon. -/
def monthsAhead
    (s : Settings) : Nat :=
  min s.horizonMonths maxHorizonMonths

/- The horizon, counted in months on the wall calendar. -/
def defaultHorizon
    (s : Settings)
    (z : Zone)
    (now : Instant) : Bounded Instant := do
  let here ← z.toLocal now
  z.localize (← here.addMonths s.monthsAhead)

end Settings

end EventSeries
