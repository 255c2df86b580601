import EventSeries.Zone.Basic

/-
  This file holds the tables of zones with one offset.  Their
  names count hours west of Greenwich.

  Key definitions include:
    * `Zone.fiveHoursWest`
-/

namespace EventSeries.Zone

------------------------------------------------------------
-- Etc/GMT+5
------------------------------------------------------------

/- The clocks of `Etc/GMT+5`. -/
def fiveHoursWest : Zone where
  name := "Etc/GMT+5"
  initialOffset := -18000
  transitions := []

end EventSeries.Zone
