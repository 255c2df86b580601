import EventSeries.Zone.Tables.Africa
import EventSeries.Zone.Tables.America
import EventSeries.Zone.Tables.Antarctica
import EventSeries.Zone.Tables.Asia
import EventSeries.Zone.Tables.Australia
import EventSeries.Zone.Tables.Etc
import EventSeries.Zone.Tables.Europe
import EventSeries.Zone.Tables.Pacific
import EventSeries.Text.Blank

/-
  This file finds zones by name.  Names are those of the tz
  database, in its spelling; blanks around a name are
  ignored.  Of the names of the database only sixteen are
  listed here, and any other is as unknown as one that the
  database does not have.

  Key definitions include:
    * `Zone.known`
    * `Zone.ofName?`
-/

namespace EventSeries.Zone

/-
  The zones whose tables are at hand.  Laws of series,
  refreshes and overrides take a zone as it comes, listed or
  not; the list only says what a name can stand for.
-/
def known : List Zone := [
  utc,
  fiveHoursWest,
  kathmandu,
  kolkata,
  tokyo,
  kiritimati,
  apia,
  chatham,
  saoPaulo,
  newYork,
  easternUnitedStates,
  troll,
  casablanca,
  lordHowe,
  sydney,
  berlin]

/- The zone with a given name, if it is listed. -/
def ofName?
    (name : String) : Option Zone :=
  known.find? (·.name == trim name)

end EventSeries.Zone
