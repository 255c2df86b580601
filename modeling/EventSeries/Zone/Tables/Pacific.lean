import EventSeries.Zone.Basic

/-
  This file holds the zone tables of the Pacific.  Each lists
  the universal second of every change of the clocks up to
  the end of 2099, and the offset that holds from then on.

  Key definitions include:
    * `Zone.kiritimati`
    * `Zone.apia`
    * `Zone.chatham`
-/

namespace EventSeries.Zone

------------------------------------------------------------
-- Pacific/Kiritimati
------------------------------------------------------------

/- The clocks of `Pacific/Kiritimati`. -/
def kiritimati : Zone where
  name := "Pacific/Kiritimati"
  initialOffset := -37760
  transitions := [
    ⟨-2177415040, -38400⟩, ⟨307622400, -36000⟩,
    ⟨788868000, 50400⟩]

------------------------------------------------------------
-- Pacific/Apia
------------------------------------------------------------

/- The clocks of `Pacific/Apia`. -/
def apia : Zone where
  name := "Pacific/Apia"
  initialOffset := 45184
  transitions := [
    ⟨-2445424384, -41216⟩, ⟨-1861878784, -41400⟩,
    ⟨-631110600, -39600⟩, ⟨1285498800, -36000⟩,
    ⟨1301752800, -39600⟩, ⟨1316872800, -36000⟩,
    ⟨1325239200, 50400⟩, ⟨1333202400, 46800⟩,
    ⟨1348927200, 50400⟩, ⟨1365256800, 46800⟩,
    ⟨1380376800, 50400⟩, ⟨1396706400, 46800⟩,
    ⟨1411826400, 50400⟩, ⟨1428156000, 46800⟩,
    ⟨1443276000, 50400⟩, ⟨1459605600, 46800⟩,
    ⟨1474725600, 50400⟩, ⟨1491055200, 46800⟩,
    ⟨1506175200, 50400⟩, ⟨1522504800, 46800⟩,
    ⟨1538229600, 50400⟩, ⟨1554559200, 46800⟩,
    ⟨1569679200, 50400⟩, ⟨1586008800, 46800⟩,
    ⟨1601128800, 50400⟩, ⟨1617458400, 46800⟩]

------------------------------------------------------------
-- Pacific/Chatham
------------------------------------------------------------

/- The clocks of `Pacific/Chatham`. -/
def chatham : Zone where
  name := "Pacific/Chatham"
  initialOffset := 44028
  transitions := [
    ⟨-3192437628, 44100⟩, ⟨-757426500, 45900⟩,
    ⟨152632800, 49500⟩, ⟨162309600, 45900⟩,
    ⟨183477600, 49500⟩, ⟨194968800, 45900⟩,
    ⟨215532000, 49500⟩, ⟨226418400, 45900⟩,
    ⟨246981600, 49500⟩, ⟨257868000, 45900⟩,
    ⟨278431200, 49500⟩, ⟨289317600, 45900⟩,
    ⟨309880800, 49500⟩, ⟨320767200, 45900⟩,
    ⟨341330400, 49500⟩, ⟨352216800, 45900⟩,
    ⟨372780000, 49500⟩, ⟨384271200, 45900⟩,
    ⟨404834400, 49500⟩, ⟨415720800, 45900⟩,
    ⟨436284000, 49500⟩, ⟨447170400, 45900⟩,
    ⟨467733600, 49500⟩, ⟨478620000, 45900⟩,
    ⟨499183200, 49500⟩, ⟨510069600, 45900⟩,
    ⟨530632800, 49500⟩, ⟨541519200, 45900⟩,
    ⟨562082400, 49500⟩, ⟨573573600, 45900⟩,
    ⟨594136800, 49500⟩, ⟨605023200, 45900⟩,
    ⟨623772000, 49500⟩, ⟨637682400, 45900⟩,
    ⟨655221600, 49500⟩, ⟨669132000, 45900⟩,
    ⟨686671200, 49500⟩, ⟨700581600, 45900⟩,
    ⟨718120800, 49500⟩, ⟨732636000, 45900⟩,
    ⟨749570400, 49500⟩, ⟨764085600, 45900⟩,
    ⟨781020000, 49500⟩, ⟨795535200, 45900⟩,
    ⟨812469600, 49500⟩, ⟨826984800, 45900⟩,
    ⟨844524000, 49500⟩, ⟨858434400, 45900⟩,
    ⟨875973600, 49500⟩, ⟨889884000, 45900⟩,
    ⟨907423200, 49500⟩, ⟨921938400, 45900⟩,
    ⟨938872800, 49500⟩, ⟨953388000, 45900⟩,
    ⟨970322400, 49500⟩, ⟨984837600, 45900⟩,
    ⟨1002376800, 49500⟩, ⟨1016287200, 45900⟩,
    ⟨1033826400, 49500⟩, ⟨1047736800, 45900⟩,
    ⟨1065276000, 49500⟩, ⟨1079791200, 45900⟩,
    ⟨1096725600, 49500⟩, ⟨1111240800, 45900⟩,
    ⟨1128175200, 49500⟩, ⟨1142690400, 45900⟩,
    ⟨1159624800, 49500⟩, ⟨1174140000, 45900⟩,
    ⟨1191074400, 49500⟩, ⟨1207404000, 45900⟩,
    ⟨1222524000, 49500⟩, ⟨1238853600, 45900⟩,
    ⟨1253973600, 49500⟩, ⟨1270303200, 45900⟩,
    ⟨1285423200, 49500⟩, ⟨1301752800, 45900⟩,
    ⟨1316872800, 49500⟩, ⟨1333202400, 45900⟩,
    ⟨1348927200, 49500⟩, ⟨1365256800, 45900⟩,
    ⟨1380376800, 49500⟩, ⟨1396706400, 45900⟩,
    ⟨1411826400, 49500⟩, ⟨1428156000, 45900⟩,
    ⟨1443276000, 49500⟩, ⟨1459605600, 45900⟩,
    ⟨1474725600, 49500⟩, ⟨1491055200, 45900⟩,
    ⟨1506175200, 49500⟩, ⟨1522504800, 45900⟩,
    ⟨1538229600, 49500⟩, ⟨1554559200, 45900⟩,
    ⟨1569679200, 49500⟩, ⟨1586008800, 45900⟩,
    ⟨1601128800, 49500⟩, ⟨1617458400, 45900⟩,
    ⟨1632578400, 49500⟩, ⟨1648908000, 45900⟩,
    ⟨1664028000, 49500⟩, ⟨1680357600, 45900⟩,
    ⟨1695477600, 49500⟩, ⟨1712412000, 45900⟩,
    ⟨1727532000, 49500⟩, ⟨1743861600, 45900⟩,
    ⟨1758981600, 49500⟩, ⟨1775311200, 45900⟩,
    ⟨1790431200, 49500⟩, ⟨1806760800, 45900⟩,
    ⟨1821880800, 49500⟩, ⟨1838210400, 45900⟩,
    ⟨1853330400, 49500⟩, ⟨1869660000, 45900⟩,
    ⟨1885384800, 49500⟩, ⟨1901714400, 45900⟩,
    ⟨1916834400, 49500⟩, ⟨1933164000, 45900⟩,
    ⟨1948284000, 49500⟩, ⟨1964613600, 45900⟩,
    ⟨1979733600, 49500⟩, ⟨1996063200, 45900⟩,
    ⟨2011183200, 49500⟩, ⟨2027512800, 45900⟩,
    ⟨2042632800, 49500⟩, ⟨2058962400, 45900⟩,
    ⟨2074687200, 49500⟩, ⟨2091016800, 45900⟩,
    ⟨2106136800, 49500⟩, ⟨2122466400, 45900⟩,
    ⟨2137586400, 49500⟩, ⟨2153916000, 45900⟩,
    ⟨2169036000, 49500⟩, ⟨2185365600, 45900⟩,
    ⟨2200485600, 49500⟩, ⟨2216815200, 45900⟩,
    ⟨2232540000, 49500⟩, ⟨2248869600, 45900⟩,
    ⟨2263989600, 49500⟩, ⟨2280319200, 45900⟩,
    ⟨2295439200, 49500⟩, ⟨2311768800, 45900⟩,
    ⟨2326888800, 49500⟩, ⟨2343218400, 45900⟩,
    ⟨2358338400, 49500⟩, ⟨2374668000, 45900⟩,
    ⟨2389788000, 49500⟩, ⟨2406117600, 45900⟩,
    ⟨2421842400, 49500⟩, ⟨2438172000, 45900⟩,
    ⟨2453292000, 49500⟩, ⟨2469621600, 45900⟩,
    ⟨2484741600, 49500⟩, ⟨2501071200, 45900⟩,
    ⟨2516191200, 49500⟩, ⟨2532520800, 45900⟩,
    ⟨2547640800, 49500⟩, ⟨2563970400, 45900⟩,
    ⟨2579090400, 49500⟩, ⟨2596024800, 45900⟩,
    ⟨2611144800, 49500⟩, ⟨2627474400, 45900⟩,
    ⟨2642594400, 49500⟩, ⟨2658924000, 45900⟩,
    ⟨2674044000, 49500⟩, ⟨2690373600, 45900⟩,
    ⟨2705493600, 49500⟩, ⟨2721823200, 45900⟩,
    ⟨2736943200, 49500⟩, ⟨2753272800, 45900⟩,
    ⟨2768997600, 49500⟩, ⟨2785327200, 45900⟩,
    ⟨2800447200, 49500⟩, ⟨2816776800, 45900⟩,
    ⟨2831896800, 49500⟩, ⟨2848226400, 45900⟩,
    ⟨2863346400, 49500⟩, ⟨2879676000, 45900⟩,
    ⟨2894796000, 49500⟩, ⟨2911125600, 45900⟩,
    ⟨2926245600, 49500⟩, ⟨2942575200, 45900⟩,
    ⟨2958300000, 49500⟩, ⟨2974629600, 45900⟩,
    ⟨2989749600, 49500⟩, ⟨3006079200, 45900⟩,
    ⟨3021199200, 49500⟩, ⟨3037528800, 45900⟩,
    ⟨3052648800, 49500⟩, ⟨3068978400, 45900⟩,
    ⟨3084098400, 49500⟩, ⟨3100428000, 45900⟩,
    ⟨3116152800, 49500⟩, ⟨3132482400, 45900⟩,
    ⟨3147602400, 49500⟩, ⟨3163932000, 45900⟩,
    ⟨3179052000, 49500⟩, ⟨3195381600, 45900⟩,
    ⟨3210501600, 49500⟩, ⟨3226831200, 45900⟩,
    ⟨3241951200, 49500⟩, ⟨3258280800, 45900⟩,
    ⟨3273400800, 49500⟩, ⟨3289730400, 45900⟩,
    ⟨3305455200, 49500⟩, ⟨3321784800, 45900⟩,
    ⟨3336904800, 49500⟩, ⟨3353234400, 45900⟩,
    ⟨3368354400, 49500⟩, ⟨3384684000, 45900⟩,
    ⟨3399804000, 49500⟩, ⟨3416133600, 45900⟩,
    ⟨3431253600, 49500⟩, ⟨3447583200, 45900⟩,
    ⟨3462703200, 49500⟩, ⟨3479637600, 45900⟩,
    ⟨3494757600, 49500⟩, ⟨3511087200, 45900⟩,
    ⟨3526207200, 49500⟩, ⟨3542536800, 45900⟩,
    ⟨3557656800, 49500⟩, ⟨3573986400, 45900⟩,
    ⟨3589106400, 49500⟩, ⟨3605436000, 45900⟩,
    ⟨3620556000, 49500⟩, ⟨3636885600, 45900⟩,
    ⟨3652610400, 49500⟩, ⟨3668940000, 45900⟩,
    ⟨3684060000, 49500⟩, ⟨3700389600, 45900⟩,
    ⟨3715509600, 49500⟩, ⟨3731839200, 45900⟩,
    ⟨3746959200, 49500⟩, ⟨3763288800, 45900⟩,
    ⟨3778408800, 49500⟩, ⟨3794738400, 45900⟩,
    ⟨3809858400, 49500⟩, ⟨3826188000, 45900⟩,
    ⟨3841912800, 49500⟩, ⟨3858242400, 45900⟩,
    ⟨3873362400, 49500⟩, ⟨3889692000, 45900⟩,
    ⟨3904812000, 49500⟩, ⟨3921141600, 45900⟩,
    ⟨3936261600, 49500⟩, ⟨3952591200, 45900⟩,
    ⟨3967711200, 49500⟩, ⟨3984040800, 45900⟩,
    ⟨3999765600, 49500⟩, ⟨4016095200, 45900⟩,
    ⟨4031215200, 49500⟩, ⟨4047544800, 45900⟩,
    ⟨4062664800, 49500⟩, ⟨4078994400, 45900⟩,
    ⟨4094114400, 49500⟩]

end EventSeries.Zone
