import EventSeries.Proofs.Series.Range
import EventSeries.Proofs.Time.AddedMonths
import EventSeries.Proofs.Zone.Inverse

/-
  The horizon of an organization lies ahead of the present,
  and further ahead for more months: wall times of different
  months are weeks apart, which no offsets make up for.  With
  no months at all the present is placed anew from its own
  wall time, and the horizon lies behind it where the clocks
  show that wall time for the second time.

  Main declarations:
    * `Zone.lt_of_places_of_days_apart`
    * `Zone.Repeats`
    * `Settings.defaultHorizon_eq`
    * `Settings.defaultHorizon_ahead_iff`
-/

namespace EventSeries

------------------------------------------------------------
-- Wall Times Days Apart
------------------------------------------------------------

/- Offsets shorter than a day do not make up for four days. -/
theorem Zone.lt_of_places_of_days_apart
    {z : Zone}
    {l ahead : LocalTime}
    {t next : Instant}
    (hShort : z.OffsetsShort)
    (hApart : l.date.dayNumber + 4 ≤ ahead.date.dayNumber)
    (hPlaced : z.Places l t)
    (hNext : z.Places ahead next) :
    t < next := by
  rcases hPlaced with ⟨offset, hOffset, hPlaced⟩
  rcases hNext with ⟨other, hOther, hNext⟩
  have hHere := hShort offset hOffset
  have hThere := hShort other hOther
  have hSecond := l.time.second_lt
  simp only [LocalTime.inUtc, secondsPerDay] at *
  rw [Instant.lt_def]
  omega

/- The clocks show a wall time that they have shown before. -/
def Zone.Repeats
    (z : Zone)
    (t : Instant) : Prop :=
  ∃ u, u < t ∧ z.toLocal u = z.toLocal t

------------------------------------------------------------
-- The Years 1 To 9999
------------------------------------------------------------

/- The calendar goes on for days around an instant near them. -/
theorem Instant.Near.daysInside
    {t : Instant}
    {slack : Int}
    (hNear : t.Near slack)
    (hSlack : slack ≤ 4000000000000) :
    t.DaysInside := by
  have hFirst := hNear.first
  have hLast := hNear.last
  simp only [firstSecond, endSecond] at hFirst hLast
  constructor
  · simp only [Date.first, secondsPerDay]
    omega
  · simp only [Date.last, secondsPerDay]
    omega

namespace Settings

/- The months ahead are none only where none are asked for. -/
theorem monthsAhead_pos_iff
    {s : Settings} :
    0 < s.monthsAhead ↔ 0 < s.horizonMonths := by
  simp only [monthsAhead, maxHorizonMonths]
  omega

theorem monthsAhead_mono
    {s longer : Settings}
    (hMonths : s.horizonMonths ≤ longer.horizonMonths) :
    s.monthsAhead ≤ longer.monthsAhead := by
  simp only [monthsAhead]
  omega

section

variable {s : Settings}
variable {z : Zone}
variable {now horizon : Instant}

variable (hShort : z.OffsetsShort)
variable (hNow : now.InYears)

include hShort hNow

/- The horizon is where the wall time months later is placed. -/
theorem defaultHorizon_eq
    (s : Settings) :
    s.defaultHorizon z now =
      z.localize ((z.wallTime now).monthsLater s.monthsAhead) := by
  rcases Zone.toLocal_meets hShort hNow.near (by decide) with
    ⟨_, hHere, rfl, hNear⟩
  have hFew : s.monthsAhead ≤ 1200 := Nat.min_le_right _ _
  have hInside :=
    LocalTime.monthInCalendar_of_near hNear (by decide) hFew
  rw [defaultHorizon, hHere]
  change (_ >>= z.localize) = _
  rw [LocalTime.addMonths_eq hInside]
  rfl

theorem places_of_defaultHorizon
    (hHorizon : s.defaultHorizon z now = .ok horizon) :
    z.Places ((z.wallTime now).monthsLater s.monthsAhead)
      horizon := by
  rw [defaultHorizon_eq hShort hNow] at hHorizon
  exact Zone.places_of_localize hNow.2 hHorizon

/- An instant of the wall time fewer months ahead is earlier. -/
theorem lt_defaultHorizon
    {t : Instant}
    {months : Nat}
    (hPlaced :
      z.Places ((z.wallTime now).monthsLater months) t)
    (hFewer : months < s.monthsAhead)
    (hHorizon : s.defaultHorizon z now = .ok horizon) :
    t < horizon := by
  have hApart :=
    (z.wallTime now).month_apart_of_lt (Int.ofNat_lt.mpr hFewer)
  simp only [shortestMonth] at hApart
  exact Zone.lt_of_places_of_days_apart hShort (by omega) hPlaced
    (places_of_defaultHorizon hShort hNow hHorizon)

/- So is the present, if there are months at all. -/
theorem now_lt_defaultHorizon
    (hSome : 0 < s.horizonMonths)
    (hHorizon : s.defaultHorizon z now = .ok horizon) :
    now < horizon := by
  have hPlaced :
      z.Places ((z.wallTime now).monthsLater (0 : Nat)) now := by
    rw [Int.ofNat_zero, LocalTime.monthsLater_zero]
    exact Zone.places_wallTime now
  exact lt_defaultHorizon hShort hNow hPlaced
    (monthsAhead_pos_iff.mpr hSome) hHorizon

/-
  Without months the present is placed anew, which finds the
  first instant of its wall time.
-/
theorem now_le_defaultHorizon_iff
    (hOrdered : z.Ordered)
    (hNone : s.horizonMonths = 0)
    (hHorizon : s.defaultHorizon z now = .ok horizon) :
    now ≤ horizon ↔ ¬ z.Repeats now := by
  have hZero : s.monthsAhead = 0 := by
    rw [monthsAhead, hNone, Nat.zero_min]
  rw [defaultHorizon_eq hShort hNow, hZero, Int.ofNat_zero,
    LocalTime.monthsLater_zero] at hHorizon
  rcases Zone.toLocal_meets hShort hNow.near (by decide) with
    ⟨_, hHere, rfl, hNear⟩
  have hInside := hNear.daysInside (by decide)
  rcases Zone.localize_of_toLocal hOrdered hShort hInside hHere
    with ⟨back, hBack, hLe, hSame⟩
  rw [hHorizon] at hBack
  cases hBack
  rw [Zone.Repeats, hHere, ← hSame]
  constructor
  · intro hAhead
    exact Std.le_antisymm hLe hAhead
  · rintro rfl
    exact hLe

/-
  In the years 1 to 9999 there is a horizon.  It lies ahead of
  the present if it is any months away.  If it is none, it is
  the present, unless the clocks have shown the wall time of
  the present before: then it lies in the past.  With more
  months it is never earlier.
-/
theorem defaultHorizon_ahead_iff
    (s : Settings) :
    ∃ horizon, s.defaultHorizon z now = .ok horizon ∧
      (0 < s.horizonMonths → now < horizon) ∧
      (z.Ordered →
        (now ≤ horizon ↔
          0 < s.horizonMonths ∨ ¬ z.Repeats now)) ∧
      ∀ longer : Settings,
        s.horizonMonths ≤ longer.horizonMonths →
          ∃ later, longer.defaultHorizon z now = .ok later ∧
            horizon ≤ later := by
  rcases defaultHorizon_meets (s := s) hShort hNow with
    ⟨horizon, hHorizon, _⟩
  have hAhead (hSome : 0 < s.horizonMonths) : now < horizon :=
    now_lt_defaultHorizon hShort hNow hSome hHorizon
  refine ⟨horizon, hHorizon, hAhead, ?_, ?_⟩
  · intro hOrdered
    by_cases hNone : s.horizonMonths = 0
    · rw [now_le_defaultHorizon_iff hShort hNow hOrdered hNone
        hHorizon]
      simp [hNone]
    · have hSome : 0 < s.horizonMonths := Nat.pos_of_ne_zero hNone
      simp [hSome, Std.le_of_lt (hAhead hSome)]
  · intro longer hMonths
    rcases defaultHorizon_meets (s := longer) hShort hNow with
      ⟨later, hLater, _⟩
    refine ⟨later, hLater, ?_⟩
    rcases Nat.lt_or_eq_of_le (monthsAhead_mono hMonths) with
      hFewer | hSame
    · exact Std.le_of_lt (lt_defaultHorizon hShort hNow
        (places_of_defaultHorizon hShort hNow hHorizon) hFewer
        hLater)
    · rw [defaultHorizon_eq hShort hNow] at hHorizon hLater
      rw [hSame, hLater] at hHorizon
      cases hHorizon
      exact Std.le_refl horizon

end

/-
  In Berlin, at half past two on October 26, 2025, when the
  clocks show that time again, six months and a year ahead.
-/
theorem defaultHorizon_ahead_in_berlin :
    let now : Instant := ⟨1761442200, 0⟩
    let s : Settings := { horizonMonths := 6 }
    let longer : Settings := { horizonMonths := 12 }
    Zone.berlin.OffsetsShort ∧ now.InYears ∧
      ∃ horizon, s.defaultHorizon .berlin now = .ok horizon ∧
        now < horizon ∧
        ∃ later, longer.defaultHorizon .berlin now = .ok later ∧
          horizon ≤ later := by
  intro now s longer
  have hShort : Zone.berlin.OffsetsShort := by
    decide +kernel
  have hNow : now.InYears := by decide
  rcases defaultHorizon_ahead_iff hShort hNow s with
    ⟨horizon, hHorizon, hAhead, _, hLonger⟩
  exact ⟨hShort, hNow, horizon, hHorizon, hAhead (by decide),
    hLonger longer (by decide)⟩

/- No months ahead of it is half past two the first time. -/
theorem defaultHorizon_behind_in_berlin :
    let now : Instant := ⟨1761442200, 0⟩
    let horizon : Instant := ⟨1761438600, 0⟩
    let s : Settings :=
      { timezone := "Europe/Berlin", horizonMonths := 0 }
    s.validate = .ok .berlin ∧
      s.defaultHorizon .berlin now = .ok horizon ∧
      horizon < now := by
  decide +kernel

end Settings

end EventSeries
