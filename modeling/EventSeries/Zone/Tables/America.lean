import EventSeries.Zone.Basic

/-
  This file holds the zone tables of America.  Each lists
  the universal second of every change of the clocks up to
  the end of 2099, and the offset that holds from then on.

  Key definitions include:
    * `Zone.saoPaulo`
    * `Zone.newYork`
    * `Zone.easternUnitedStates`
-/

namespace EventSeries.Zone

------------------------------------------------------------
-- America/Sao_Paulo
------------------------------------------------------------

/- The clocks of `America/Sao_Paulo`. -/
def saoPaulo : Zone where
  name := "America/Sao_Paulo"
  initialOffset := -11188
  transitions := [
    ⟨-1767214412, -10800⟩, ⟨-1206957600, -7200⟩,
    ⟨-1191362400, -10800⟩, ⟨-1175374800, -7200⟩,
    ⟨-1159826400, -10800⟩, ⟨-633819600, -7200⟩,
    ⟨-622069200, -10800⟩, ⟨-602283600, -7200⟩,
    ⟨-591832800, -10800⟩, ⟨-570747600, -7200⟩,
    ⟨-560210400, -10800⟩, ⟨-539125200, -7200⟩,
    ⟨-531352800, -10800⟩, ⟨-195426000, -7200⟩,
    ⟨-184197600, -10800⟩, ⟨-155163600, -7200⟩,
    ⟨-150069600, -10800⟩, ⟨-128898000, -7200⟩,
    ⟨-121125600, -10800⟩, ⟨-99954000, -7200⟩,
    ⟨-89589600, -10800⟩, ⟨-68418000, -7200⟩,
    ⟨-57967200, -10800⟩, ⟨499748400, -7200⟩,
    ⟨511236000, -10800⟩, ⟨530593200, -7200⟩,
    ⟨540266400, -10800⟩, ⟨562129200, -7200⟩,
    ⟨571197600, -10800⟩, ⟨592974000, -7200⟩,
    ⟨602042400, -10800⟩, ⟨624423600, -7200⟩,
    ⟨634701600, -10800⟩, ⟨656478000, -7200⟩,
    ⟨666756000, -10800⟩, ⟨687927600, -7200⟩,
    ⟨697600800, -10800⟩, ⟨719982000, -7200⟩,
    ⟨728445600, -10800⟩, ⟨750826800, -7200⟩,
    ⟨761709600, -10800⟩, ⟨782276400, -7200⟩,
    ⟨793159200, -10800⟩, ⟨813726000, -7200⟩,
    ⟨824004000, -10800⟩, ⟨844570800, -7200⟩,
    ⟨856058400, -10800⟩, ⟨876106800, -7200⟩,
    ⟨888717600, -10800⟩, ⟨908074800, -7200⟩,
    ⟨919562400, -10800⟩, ⟨938919600, -7200⟩,
    ⟨951616800, -10800⟩, ⟨970974000, -7200⟩,
    ⟨982461600, -10800⟩, ⟨1003028400, -7200⟩,
    ⟨1013911200, -10800⟩, ⟨1036292400, -7200⟩,
    ⟨1045360800, -10800⟩, ⟨1066532400, -7200⟩,
    ⟨1076810400, -10800⟩, ⟨1099364400, -7200⟩,
    ⟨1108864800, -10800⟩, ⟨1129431600, -7200⟩,
    ⟨1140314400, -10800⟩, ⟨1162695600, -7200⟩,
    ⟨1172368800, -10800⟩, ⟨1192330800, -7200⟩,
    ⟨1203213600, -10800⟩, ⟨1224385200, -7200⟩,
    ⟨1234663200, -10800⟩, ⟨1255834800, -7200⟩,
    ⟨1266717600, -10800⟩, ⟨1287284400, -7200⟩,
    ⟨1298167200, -10800⟩, ⟨1318734000, -7200⟩,
    ⟨1330221600, -10800⟩, ⟨1350788400, -7200⟩,
    ⟨1361066400, -10800⟩, ⟨1382238000, -7200⟩,
    ⟨1392516000, -10800⟩, ⟨1413687600, -7200⟩,
    ⟨1424570400, -10800⟩, ⟨1445137200, -7200⟩,
    ⟨1456020000, -10800⟩, ⟨1476586800, -7200⟩,
    ⟨1487469600, -10800⟩, ⟨1508036400, -7200⟩,
    ⟨1518919200, -10800⟩, ⟨1541300400, -7200⟩,
    ⟨1550368800, -10800⟩]

------------------------------------------------------------
-- America/New_York
------------------------------------------------------------

/- The clocks of `America/New_York`. -/
def newYork : Zone where
  name := "America/New_York"
  initialOffset := -17762
  transitions := [
    ⟨-2717650800, -18000⟩, ⟨-1633280400, -14400⟩,
    ⟨-1615140000, -18000⟩, ⟨-1601830800, -14400⟩,
    ⟨-1583690400, -18000⟩, ⟨-1570381200, -14400⟩,
    ⟨-1551636000, -18000⟩, ⟨-1536512400, -14400⟩,
    ⟨-1523210400, -18000⟩, ⟨-1504458000, -14400⟩,
    ⟨-1491760800, -18000⟩, ⟨-1473008400, -14400⟩,
    ⟨-1459706400, -18000⟩, ⟨-1441558800, -14400⟩,
    ⟨-1428256800, -18000⟩, ⟨-1410109200, -14400⟩,
    ⟨-1396807200, -18000⟩, ⟨-1378659600, -14400⟩,
    ⟨-1365357600, -18000⟩, ⟨-1347210000, -14400⟩,
    ⟨-1333908000, -18000⟩, ⟨-1315155600, -14400⟩,
    ⟨-1301853600, -18000⟩, ⟨-1283706000, -14400⟩,
    ⟨-1270404000, -18000⟩, ⟨-1252256400, -14400⟩,
    ⟨-1238954400, -18000⟩, ⟨-1220806800, -14400⟩,
    ⟨-1207504800, -18000⟩, ⟨-1189357200, -14400⟩,
    ⟨-1176055200, -18000⟩, ⟨-1157302800, -14400⟩,
    ⟨-1144605600, -18000⟩, ⟨-1125853200, -14400⟩,
    ⟨-1112551200, -18000⟩, ⟨-1094403600, -14400⟩,
    ⟨-1081101600, -18000⟩, ⟨-1062954000, -14400⟩,
    ⟨-1049652000, -18000⟩, ⟨-1031504400, -14400⟩,
    ⟨-1018202400, -18000⟩, ⟨-1000054800, -14400⟩,
    ⟨-986752800, -18000⟩, ⟨-968000400, -14400⟩,
    ⟨-955303200, -18000⟩, ⟨-936550800, -14400⟩,
    ⟨-923248800, -18000⟩, ⟨-905101200, -14400⟩,
    ⟨-891799200, -18000⟩, ⟨-880218000, -14400⟩,
    ⟨-769395600, -14400⟩, ⟨-765396000, -18000⟩,
    ⟨-747248400, -14400⟩, ⟨-733946400, -18000⟩,
    ⟨-715798800, -14400⟩, ⟨-702496800, -18000⟩,
    ⟨-684349200, -14400⟩, ⟨-671047200, -18000⟩,
    ⟨-652899600, -14400⟩, ⟨-639597600, -18000⟩,
    ⟨-620845200, -14400⟩, ⟨-608148000, -18000⟩,
    ⟨-589395600, -14400⟩, ⟨-576093600, -18000⟩,
    ⟨-557946000, -14400⟩, ⟨-544644000, -18000⟩,
    ⟨-526496400, -14400⟩, ⟨-513194400, -18000⟩,
    ⟨-495046800, -14400⟩, ⟨-481744800, -18000⟩,
    ⟨-463597200, -14400⟩, ⟨-447271200, -18000⟩,
    ⟨-431542800, -14400⟩, ⟨-415821600, -18000⟩,
    ⟨-400093200, -14400⟩, ⟨-384372000, -18000⟩,
    ⟨-368643600, -14400⟩, ⟨-352922400, -18000⟩,
    ⟨-337194000, -14400⟩, ⟨-321472800, -18000⟩,
    ⟨-305744400, -14400⟩, ⟨-289418400, -18000⟩,
    ⟨-273690000, -14400⟩, ⟨-257968800, -18000⟩,
    ⟨-242240400, -14400⟩, ⟨-226519200, -18000⟩,
    ⟨-210790800, -14400⟩, ⟨-195069600, -18000⟩,
    ⟨-179341200, -14400⟩, ⟨-163620000, -18000⟩,
    ⟨-147891600, -14400⟩, ⟨-131565600, -18000⟩,
    ⟨-116442000, -14400⟩, ⟨-100116000, -18000⟩,
    ⟨-84387600, -14400⟩, ⟨-68666400, -18000⟩,
    ⟨-52938000, -14400⟩, ⟨-37216800, -18000⟩,
    ⟨-21488400, -14400⟩, ⟨-5767200, -18000⟩,
    ⟨9961200, -14400⟩, ⟨25682400, -18000⟩,
    ⟨41410800, -14400⟩, ⟨57736800, -18000⟩,
    ⟨73465200, -14400⟩, ⟨89186400, -18000⟩,
    ⟨104914800, -14400⟩, ⟨120636000, -18000⟩,
    ⟨126687600, -14400⟩, ⟨152085600, -18000⟩,
    ⟨162370800, -14400⟩, ⟨183535200, -18000⟩,
    ⟨199263600, -14400⟩, ⟨215589600, -18000⟩,
    ⟨230713200, -14400⟩, ⟨247039200, -18000⟩,
    ⟨262767600, -14400⟩, ⟨278488800, -18000⟩,
    ⟨294217200, -14400⟩, ⟨309938400, -18000⟩,
    ⟨325666800, -14400⟩, ⟨341388000, -18000⟩,
    ⟨357116400, -14400⟩, ⟨372837600, -18000⟩,
    ⟨388566000, -14400⟩, ⟨404892000, -18000⟩,
    ⟨420015600, -14400⟩, ⟨436341600, -18000⟩,
    ⟨452070000, -14400⟩, ⟨467791200, -18000⟩,
    ⟨483519600, -14400⟩, ⟨499240800, -18000⟩,
    ⟨514969200, -14400⟩, ⟨530690400, -18000⟩,
    ⟨544604400, -14400⟩, ⟨562140000, -18000⟩,
    ⟨576054000, -14400⟩, ⟨594194400, -18000⟩,
    ⟨607503600, -14400⟩, ⟨625644000, -18000⟩,
    ⟨638953200, -14400⟩, ⟨657093600, -18000⟩,
    ⟨671007600, -14400⟩, ⟨688543200, -18000⟩,
    ⟨702457200, -14400⟩, ⟨719992800, -18000⟩,
    ⟨733906800, -14400⟩, ⟨752047200, -18000⟩,
    ⟨765356400, -14400⟩, ⟨783496800, -18000⟩,
    ⟨796806000, -14400⟩, ⟨814946400, -18000⟩,
    ⟨828860400, -14400⟩, ⟨846396000, -18000⟩,
    ⟨860310000, -14400⟩, ⟨877845600, -18000⟩,
    ⟨891759600, -14400⟩, ⟨909295200, -18000⟩,
    ⟨923209200, -14400⟩, ⟨941349600, -18000⟩,
    ⟨954658800, -14400⟩, ⟨972799200, -18000⟩,
    ⟨986108400, -14400⟩, ⟨1004248800, -18000⟩,
    ⟨1018162800, -14400⟩, ⟨1035698400, -18000⟩,
    ⟨1049612400, -14400⟩, ⟨1067148000, -18000⟩,
    ⟨1081062000, -14400⟩, ⟨1099202400, -18000⟩,
    ⟨1112511600, -14400⟩, ⟨1130652000, -18000⟩,
    ⟨1143961200, -14400⟩, ⟨1162101600, -18000⟩,
    ⟨1173596400, -14400⟩, ⟨1194156000, -18000⟩,
    ⟨1205046000, -14400⟩, ⟨1225605600, -18000⟩,
    ⟨1236495600, -14400⟩, ⟨1257055200, -18000⟩,
    ⟨1268550000, -14400⟩, ⟨1289109600, -18000⟩,
    ⟨1299999600, -14400⟩, ⟨1320559200, -18000⟩,
    ⟨1331449200, -14400⟩, ⟨1352008800, -18000⟩,
    ⟨1362898800, -14400⟩, ⟨1383458400, -18000⟩,
    ⟨1394348400, -14400⟩, ⟨1414908000, -18000⟩,
    ⟨1425798000, -14400⟩, ⟨1446357600, -18000⟩,
    ⟨1457852400, -14400⟩, ⟨1478412000, -18000⟩,
    ⟨1489302000, -14400⟩, ⟨1509861600, -18000⟩,
    ⟨1520751600, -14400⟩, ⟨1541311200, -18000⟩,
    ⟨1552201200, -14400⟩, ⟨1572760800, -18000⟩,
    ⟨1583650800, -14400⟩, ⟨1604210400, -18000⟩,
    ⟨1615705200, -14400⟩, ⟨1636264800, -18000⟩,
    ⟨1647154800, -14400⟩, ⟨1667714400, -18000⟩,
    ⟨1678604400, -14400⟩, ⟨1699164000, -18000⟩,
    ⟨1710054000, -14400⟩, ⟨1730613600, -18000⟩,
    ⟨1741503600, -14400⟩, ⟨1762063200, -18000⟩,
    ⟨1772953200, -14400⟩, ⟨1793512800, -18000⟩,
    ⟨1805007600, -14400⟩, ⟨1825567200, -18000⟩,
    ⟨1836457200, -14400⟩, ⟨1857016800, -18000⟩,
    ⟨1867906800, -14400⟩, ⟨1888466400, -18000⟩,
    ⟨1899356400, -14400⟩, ⟨1919916000, -18000⟩,
    ⟨1930806000, -14400⟩, ⟨1951365600, -18000⟩,
    ⟨1962860400, -14400⟩, ⟨1983420000, -18000⟩,
    ⟨1994310000, -14400⟩, ⟨2014869600, -18000⟩,
    ⟨2025759600, -14400⟩, ⟨2046319200, -18000⟩,
    ⟨2057209200, -14400⟩, ⟨2077768800, -18000⟩,
    ⟨2088658800, -14400⟩, ⟨2109218400, -18000⟩,
    ⟨2120108400, -14400⟩, ⟨2140668000, -18000⟩,
    ⟨2152162800, -14400⟩, ⟨2172722400, -18000⟩,
    ⟨2183612400, -14400⟩, ⟨2204172000, -18000⟩,
    ⟨2215062000, -14400⟩, ⟨2235621600, -18000⟩,
    ⟨2246511600, -14400⟩, ⟨2267071200, -18000⟩,
    ⟨2277961200, -14400⟩, ⟨2298520800, -18000⟩,
    ⟨2309410800, -14400⟩, ⟨2329970400, -18000⟩,
    ⟨2341465200, -14400⟩, ⟨2362024800, -18000⟩,
    ⟨2372914800, -14400⟩, ⟨2393474400, -18000⟩,
    ⟨2404364400, -14400⟩, ⟨2424924000, -18000⟩,
    ⟨2435814000, -14400⟩, ⟨2456373600, -18000⟩,
    ⟨2467263600, -14400⟩, ⟨2487823200, -18000⟩,
    ⟨2499318000, -14400⟩, ⟨2519877600, -18000⟩,
    ⟨2530767600, -14400⟩, ⟨2551327200, -18000⟩,
    ⟨2562217200, -14400⟩, ⟨2582776800, -18000⟩,
    ⟨2593666800, -14400⟩, ⟨2614226400, -18000⟩,
    ⟨2625116400, -14400⟩, ⟨2645676000, -18000⟩,
    ⟨2656566000, -14400⟩, ⟨2677125600, -18000⟩,
    ⟨2688620400, -14400⟩, ⟨2709180000, -18000⟩,
    ⟨2720070000, -14400⟩, ⟨2740629600, -18000⟩,
    ⟨2751519600, -14400⟩, ⟨2772079200, -18000⟩,
    ⟨2782969200, -14400⟩, ⟨2803528800, -18000⟩,
    ⟨2814418800, -14400⟩, ⟨2834978400, -18000⟩,
    ⟨2846473200, -14400⟩, ⟨2867032800, -18000⟩,
    ⟨2877922800, -14400⟩, ⟨2898482400, -18000⟩,
    ⟨2909372400, -14400⟩, ⟨2929932000, -18000⟩,
    ⟨2940822000, -14400⟩, ⟨2961381600, -18000⟩,
    ⟨2972271600, -14400⟩, ⟨2992831200, -18000⟩,
    ⟨3003721200, -14400⟩, ⟨3024280800, -18000⟩,
    ⟨3035775600, -14400⟩, ⟨3056335200, -18000⟩,
    ⟨3067225200, -14400⟩, ⟨3087784800, -18000⟩,
    ⟨3098674800, -14400⟩, ⟨3119234400, -18000⟩,
    ⟨3130124400, -14400⟩, ⟨3150684000, -18000⟩,
    ⟨3161574000, -14400⟩, ⟨3182133600, -18000⟩,
    ⟨3193023600, -14400⟩, ⟨3213583200, -18000⟩,
    ⟨3225078000, -14400⟩, ⟨3245637600, -18000⟩,
    ⟨3256527600, -14400⟩, ⟨3277087200, -18000⟩,
    ⟨3287977200, -14400⟩, ⟨3308536800, -18000⟩,
    ⟨3319426800, -14400⟩, ⟨3339986400, -18000⟩,
    ⟨3350876400, -14400⟩, ⟨3371436000, -18000⟩,
    ⟨3382930800, -14400⟩, ⟨3403490400, -18000⟩,
    ⟨3414380400, -14400⟩, ⟨3434940000, -18000⟩,
    ⟨3445830000, -14400⟩, ⟨3466389600, -18000⟩,
    ⟨3477279600, -14400⟩, ⟨3497839200, -18000⟩,
    ⟨3508729200, -14400⟩, ⟨3529288800, -18000⟩,
    ⟨3540178800, -14400⟩, ⟨3560738400, -18000⟩,
    ⟨3572233200, -14400⟩, ⟨3592792800, -18000⟩,
    ⟨3603682800, -14400⟩, ⟨3624242400, -18000⟩,
    ⟨3635132400, -14400⟩, ⟨3655692000, -18000⟩,
    ⟨3666582000, -14400⟩, ⟨3687141600, -18000⟩,
    ⟨3698031600, -14400⟩, ⟨3718591200, -18000⟩,
    ⟨3730086000, -14400⟩, ⟨3750645600, -18000⟩,
    ⟨3761535600, -14400⟩, ⟨3782095200, -18000⟩,
    ⟨3792985200, -14400⟩, ⟨3813544800, -18000⟩,
    ⟨3824434800, -14400⟩, ⟨3844994400, -18000⟩,
    ⟨3855884400, -14400⟩, ⟨3876444000, -18000⟩,
    ⟨3887334000, -14400⟩, ⟨3907893600, -18000⟩,
    ⟨3919388400, -14400⟩, ⟨3939948000, -18000⟩,
    ⟨3950838000, -14400⟩, ⟨3971397600, -18000⟩,
    ⟨3982287600, -14400⟩, ⟨4002847200, -18000⟩,
    ⟨4013737200, -14400⟩, ⟨4034296800, -18000⟩,
    ⟨4045186800, -14400⟩, ⟨4065746400, -18000⟩,
    ⟨4076636400, -14400⟩, ⟨4097196000, -18000⟩]

------------------------------------------------------------
-- US/Eastern
------------------------------------------------------------

/- The zone `America/New_York` under its older name. -/
def easternUnitedStates : Zone :=
  { newYork with name := "US/Eastern" }

end EventSeries.Zone
