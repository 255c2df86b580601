import EventSeries.Zone.Basic

/-
  This file holds the zone tables of Asia.  Each lists
  the universal second of every change of the clocks up to
  the end of 2099, and the offset that holds from then on.

  Key definitions include:
    * `Zone.kathmandu`
    * `Zone.kolkata`
    * `Zone.tokyo`
-/

namespace EventSeries.Zone

------------------------------------------------------------
-- Asia/Kathmandu
------------------------------------------------------------

/- The clocks of `Asia/Kathmandu`. -/
def kathmandu : Zone where
  name := "Asia/Kathmandu"
  initialOffset := 20476
  transitions := [
    ⟨-1577943676, 19800⟩, ⟨504901800, 20700⟩]

------------------------------------------------------------
-- Asia/Kolkata
------------------------------------------------------------

/- The clocks of `Asia/Kolkata`. -/
def kolkata : Zone where
  name := "Asia/Kolkata"
  initialOffset := 21208
  transitions := [
    ⟨-3645237208, 21200⟩, ⟨-3155694800, 19270⟩,
    ⟨-2019705670, 19800⟩, ⟨-891581400, 23400⟩,
    ⟨-872058600, 19800⟩, ⟨-862637400, 23400⟩,
    ⟨-764145000, 19800⟩]

------------------------------------------------------------
-- Asia/Tokyo
------------------------------------------------------------

/- The clocks of `Asia/Tokyo`. -/
def tokyo : Zone where
  name := "Asia/Tokyo"
  initialOffset := 33539
  transitions := [
    ⟨-2587712400, 32400⟩, ⟨-683802000, 36000⟩,
    ⟨-672310800, 32400⟩, ⟨-654771600, 36000⟩,
    ⟨-640861200, 32400⟩, ⟨-620298000, 36000⟩,
    ⟨-609411600, 32400⟩, ⟨-588848400, 36000⟩,
    ⟨-577962000, 32400⟩]

end EventSeries.Zone
