import EventSeries.Zone.Basic

/-
  This file holds the zone tables of Antarctica.  Each lists
  the universal second of every change of the clocks up to
  the end of 2099, and the offset that holds from then on.

  Key definitions include:
    * `Zone.troll`
-/

namespace EventSeries.Zone

------------------------------------------------------------
-- Antarctica/Troll
------------------------------------------------------------

/- The clocks of `Antarctica/Troll`. -/
def troll : Zone where
  name := "Antarctica/Troll"
  initialOffset := 0
  transitions := [
    ⟨1108166400, 0⟩, ⟨1111885200, 7200⟩,
    ⟨1130634000, 0⟩, ⟨1143334800, 7200⟩,
    ⟨1162083600, 0⟩, ⟨1174784400, 7200⟩,
    ⟨1193533200, 0⟩, ⟨1206838800, 7200⟩,
    ⟨1224982800, 0⟩, ⟨1238288400, 7200⟩,
    ⟨1256432400, 0⟩, ⟨1269738000, 7200⟩,
    ⟨1288486800, 0⟩, ⟨1301187600, 7200⟩,
    ⟨1319936400, 0⟩, ⟨1332637200, 7200⟩,
    ⟨1351386000, 0⟩, ⟨1364691600, 7200⟩,
    ⟨1382835600, 0⟩, ⟨1396141200, 7200⟩,
    ⟨1414285200, 0⟩, ⟨1427590800, 7200⟩,
    ⟨1445734800, 0⟩, ⟨1459040400, 7200⟩,
    ⟨1477789200, 0⟩, ⟨1490490000, 7200⟩,
    ⟨1509238800, 0⟩, ⟨1521939600, 7200⟩,
    ⟨1540688400, 0⟩, ⟨1553994000, 7200⟩,
    ⟨1572138000, 0⟩, ⟨1585443600, 7200⟩,
    ⟨1603587600, 0⟩, ⟨1616893200, 7200⟩,
    ⟨1635642000, 0⟩, ⟨1648342800, 7200⟩,
    ⟨1667091600, 0⟩, ⟨1679792400, 7200⟩,
    ⟨1698541200, 0⟩, ⟨1711846800, 7200⟩,
    ⟨1729990800, 0⟩, ⟨1743296400, 7200⟩,
    ⟨1761440400, 0⟩, ⟨1774746000, 7200⟩,
    ⟨1792890000, 0⟩, ⟨1806195600, 7200⟩,
    ⟨1824944400, 0⟩, ⟨1837645200, 7200⟩,
    ⟨1856394000, 0⟩, ⟨1869094800, 7200⟩,
    ⟨1887843600, 0⟩, ⟨1901149200, 7200⟩,
    ⟨1919293200, 0⟩, ⟨1932598800, 7200⟩,
    ⟨1950742800, 0⟩, ⟨1964048400, 7200⟩,
    ⟨1982797200, 0⟩, ⟨1995498000, 7200⟩,
    ⟨2014246800, 0⟩, ⟨2026947600, 7200⟩,
    ⟨2045696400, 0⟩, ⟨2058397200, 7200⟩,
    ⟨2077146000, 0⟩, ⟨2090451600, 7200⟩,
    ⟨2108595600, 0⟩, ⟨2121901200, 7200⟩,
    ⟨2140045200, 0⟩, ⟨2153350800, 7200⟩,
    ⟨2172099600, 0⟩, ⟨2184800400, 7200⟩,
    ⟨2203549200, 0⟩, ⟨2216250000, 7200⟩,
    ⟨2234998800, 0⟩, ⟨2248304400, 7200⟩,
    ⟨2266448400, 0⟩, ⟨2279754000, 7200⟩,
    ⟨2297898000, 0⟩, ⟨2311203600, 7200⟩,
    ⟨2329347600, 0⟩, ⟨2342653200, 7200⟩,
    ⟨2361402000, 0⟩, ⟨2374102800, 7200⟩,
    ⟨2392851600, 0⟩, ⟨2405552400, 7200⟩,
    ⟨2424301200, 0⟩, ⟨2437606800, 7200⟩,
    ⟨2455750800, 0⟩, ⟨2469056400, 7200⟩,
    ⟨2487200400, 0⟩, ⟨2500506000, 7200⟩,
    ⟨2519254800, 0⟩, ⟨2531955600, 7200⟩,
    ⟨2550704400, 0⟩, ⟨2563405200, 7200⟩,
    ⟨2582154000, 0⟩, ⟨2595459600, 7200⟩,
    ⟨2613603600, 0⟩, ⟨2626909200, 7200⟩,
    ⟨2645053200, 0⟩, ⟨2658358800, 7200⟩,
    ⟨2676502800, 0⟩, ⟨2689808400, 7200⟩,
    ⟨2708557200, 0⟩, ⟨2721258000, 7200⟩,
    ⟨2740006800, 0⟩, ⟨2752707600, 7200⟩,
    ⟨2771456400, 0⟩, ⟨2784762000, 7200⟩,
    ⟨2802906000, 0⟩, ⟨2816211600, 7200⟩,
    ⟨2834355600, 0⟩, ⟨2847661200, 7200⟩,
    ⟨2866410000, 0⟩, ⟨2879110800, 7200⟩,
    ⟨2897859600, 0⟩, ⟨2910560400, 7200⟩,
    ⟨2929309200, 0⟩, ⟨2942010000, 7200⟩,
    ⟨2960758800, 0⟩, ⟨2974064400, 7200⟩,
    ⟨2992208400, 0⟩, ⟨3005514000, 7200⟩,
    ⟨3023658000, 0⟩, ⟨3036963600, 7200⟩,
    ⟨3055712400, 0⟩, ⟨3068413200, 7200⟩,
    ⟨3087162000, 0⟩, ⟨3099862800, 7200⟩,
    ⟨3118611600, 0⟩, ⟨3131917200, 7200⟩,
    ⟨3150061200, 0⟩, ⟨3163366800, 7200⟩,
    ⟨3181510800, 0⟩, ⟨3194816400, 7200⟩,
    ⟨3212960400, 0⟩, ⟨3226266000, 7200⟩,
    ⟨3245014800, 0⟩, ⟨3257715600, 7200⟩,
    ⟨3276464400, 0⟩, ⟨3289165200, 7200⟩,
    ⟨3307914000, 0⟩, ⟨3321219600, 7200⟩,
    ⟨3339363600, 0⟩, ⟨3352669200, 7200⟩,
    ⟨3370813200, 0⟩, ⟨3384118800, 7200⟩,
    ⟨3402867600, 0⟩, ⟨3415568400, 7200⟩,
    ⟨3434317200, 0⟩, ⟨3447018000, 7200⟩,
    ⟨3465766800, 0⟩, ⟨3479072400, 7200⟩,
    ⟨3497216400, 0⟩, ⟨3510522000, 7200⟩,
    ⟨3528666000, 0⟩, ⟨3541971600, 7200⟩,
    ⟨3560115600, 0⟩, ⟨3573421200, 7200⟩,
    ⟨3592170000, 0⟩, ⟨3604870800, 7200⟩,
    ⟨3623619600, 0⟩, ⟨3636320400, 7200⟩,
    ⟨3655069200, 0⟩, ⟨3668374800, 7200⟩,
    ⟨3686518800, 0⟩, ⟨3699824400, 7200⟩,
    ⟨3717968400, 0⟩, ⟨3731274000, 7200⟩,
    ⟨3750022800, 0⟩, ⟨3762723600, 7200⟩,
    ⟨3781472400, 0⟩, ⟨3794173200, 7200⟩,
    ⟨3812922000, 0⟩, ⟨3825622800, 7200⟩,
    ⟨3844371600, 0⟩, ⟨3857677200, 7200⟩,
    ⟨3875821200, 0⟩, ⟨3889126800, 7200⟩,
    ⟨3907270800, 0⟩, ⟨3920576400, 7200⟩,
    ⟨3939325200, 0⟩, ⟨3952026000, 7200⟩,
    ⟨3970774800, 0⟩, ⟨3983475600, 7200⟩,
    ⟨4002224400, 0⟩, ⟨4015530000, 7200⟩,
    ⟨4033674000, 0⟩, ⟨4046979600, 7200⟩,
    ⟨4065123600, 0⟩, ⟨4078429200, 7200⟩,
    ⟨4096573200, 0⟩]

end EventSeries.Zone
