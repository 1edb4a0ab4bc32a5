import GeoAlmanac.Proofs.Sun.UniversalTime

/-! The days about the December solstice, read over the reals. There the sun can have one and the
same declination at sunrise and at sunset, and the latitude can be chosen so that the sun sets at
the very hour at which it rises. -/

namespace GeoAlmanac
open scoped Real

namespace Sun

theorem continuous_unreduced : Continuous unreduced := by
  unfold unreduced centre toRadians meanAnomaly
  fun_prop

theorem centre_before_perihelion {t rest : ℝ} (h : meanAnomaly t = 360 - rest) (h0 : 0 ≤ rest)
    (h45 : rest ≤ 45) : -0.0343 * rest ≤ centre t ∧ centre t ≤ -0.0212 * rest := by
  have hrad : toRadians (meanAnomaly t) = -toRadians rest + (1 : ℤ) * (2 * π) := by
    rw [h, toRadians_eq, toRadians_eq]
    push_cast
    ring
  have hdouble : 2.0 * toRadians (meanAnomaly t) = -toRadians (2 * rest) + (2 : ℤ) * (2 * π) := by
    rw [hrad, toRadians_eq, toRadians_eq]
    norm_num
    ring
  have hl := le_sin_toRadians h0 (by linarith)
  have hu := sin_toRadians_le h0
  have hl2 := le_sin_toRadians (show 0 ≤ 2 * rest by linarith) (by linarith)
  have hu2 := sin_toRadians_le (show 0 ≤ 2 * rest by linarith)
  unfold centre
  rw [hdouble, hrad, Real.sin_add_int_mul_two_pi, Real.sin_add_int_mul_two_pi, Real.sin_neg,
    Real.sin_neg]
  constructor <;> linarith

theorem centre_near_solstice {t : ℝ} (hl : 355 ≤ t) (hu : t ≤ 357) :
    -0.0343 * (363.289 - 0.9856 * t) ≤ centre t ∧
      centre t ≤ -0.0212 * (363.289 - 0.9856 * t) := by
  have hanomaly : meanAnomaly t = 360 - (363.289 - 0.9856 * t) := by
    have h : (meanAnomaly t : ℝ) = 0.9856 * t - 3.289 := rfl
    rw [h]
    ring
  exact centre_before_perihelion hanomaly (by linarith) (by linarith)

theorem trueLongitude_second_turn {t : ℝ} (hl : 360 ≤ unreduced t) (hu : unreduced t < 720) :
    trueLongitude t = unreduced t - 360 := by
  have hturn : ⌊unreduced t / 360⌋ = 1 := by
    rw [Int.floor_eq_iff]
    push_cast
    constructor <;> linarith
  rw [trueLongitude_eq, hturn]
  push_cast
  ring

/-- Half a day apart, two longitudes of the sun can lie on either side of the solstice, equally far
from it. The shift of the times is that of the local mean time at a longitude in the east. -/
theorem exists_opposite_longitudes : ∃ shift rest : ℝ, 0 ≤ shift ∧ shift ≤ 175 ∧
    0 < rest ∧ rest < 1 ∧ trueLongitude (356.25 - shift / 360) = 270 - rest ∧
    trueLongitude (356.75 - shift / 360) = 270 + rest := by
  have hcont : Continuous fun x : ℝ =>
      unreduced (356.25 - x / 360) + unreduced (356.75 - x / 360) :=
    (continuous_unreduced.comp (by fun_prop)).add (continuous_unreduced.comp (by fun_prop))
  have hmem : (1260 : ℝ) ∈ Set.Icc
      (unreduced (356.25 - 175 / 360) + unreduced (356.75 - 175 / 360))
      (unreduced (356.25 - 0 / 360) + unreduced (356.75 - 0 / 360)) := by
    have hr := centre_near_solstice (t := 356.25 - 175 / 360) (by norm_num) (by norm_num)
    have hs := centre_near_solstice (t := 356.75 - 175 / 360) (by norm_num) (by norm_num)
    have hr0 := centre_near_solstice (t := 356.25 - 0 / 360) (by norm_num) (by norm_num)
    have hs0 := centre_near_solstice (t := 356.75 - 0 / 360) (by norm_num) (by norm_num)
    unfold unreduced
    constructor <;> linarith
  obtain ⟨shift, ⟨h0, h175⟩, hsum⟩ := intermediate_value_Icc' (by norm_num) hcont.continuousOn hmem
  have hr := centre_near_solstice (t := 356.25 - shift / 360) (by linarith) (by linarith)
  have hs := centre_near_solstice (t := 356.75 - shift / 360) (by linarith) (by linarith)
  have hsum : unreduced (356.25 - shift / 360) + unreduced (356.75 - shift / 360) = 1260 := hsum
  have hrest : 0 < 630 - unreduced (356.25 - shift / 360) ∧
      630 - unreduced (356.25 - shift / 360) < 1 := by
    unfold unreduced at hsum ⊢
    constructor <;> linarith
  obtain ⟨hrest0, hrest1⟩ := hrest
  refine ⟨shift, 630 - unreduced (356.25 - shift / 360), h0, h175, hrest0, hrest1, ?_, ?_⟩
  · rw [trueLongitude_second_turn (by linarith) (by linarith)]
    ring
  · rw [trueLongitude_second_turn (by linarith) (by linarith)]
    linarith

/-- Where the sun stands lower than a zenith distance at one pole and higher at the other, some
latitude between them has any hour angle. -/
theorem exists_latitude_cosHourAngle {zenith s : ℝ} (hs : -1 < s)
    (hz : |Real.cos (toRadians zenith)| < -s) (c : ℝ) :
    ∃ latitude, |latitude| < 90 ∧ cosHourAngle zenith latitude s = c := by
  obtain ⟨hz, hz'⟩ := abs_lt.mp hz
  have hcont : Continuous fun latitude : ℝ => s * Real.sin (toRadians latitude) +
      c * (Real.cos (Real.arcsin s) * Real.cos (toRadians latitude)) := by
    unfold toRadians
    fun_prop
  have hmem : Real.cos (toRadians zenith) ∈ Set.Ioo
      (s * Real.sin (toRadians 90) + c * (Real.cos (Real.arcsin s) * Real.cos (toRadians 90)))
      (s * Real.sin (toRadians (-90)) +
        c * (Real.cos (Real.arcsin s) * Real.cos (toRadians (-90)))) := by
    rw [toRadians_neg, toRadians_right, Real.sin_neg, Real.cos_neg, Real.sin_pi_div_two,
      Real.cos_pi_div_two]
    constructor <;> linarith
  obtain ⟨latitude, ⟨hl, hu⟩, hcos⟩ :=
    intermediate_value_Ioo' (by norm_num) hcont.continuousOn hmem
  have hlatitude : |latitude| < 90 := abs_lt.mpr ⟨hl, hu⟩
  have hpos := cos_toRadians_pos hlatitude
  have hdecl : 0 < Real.cos (Real.arcsin s) := by
    rw [Real.cos_arcsin]
    apply Real.sqrt_pos_of_pos
    nlinarith [abs_nonneg (Real.cos (toRadians zenith))]
  refine ⟨latitude, hlatitude, ?_⟩
  unfold cosHourAngle
  simp only [cos_eq, sin_eq, asin_eq]
  rw [div_eq_iff (by positivity), ← hcos]
  ring

theorem sinDeclination_opposite (rest : ℝ) :
    sinDeclination (270 - rest) = -0.39782 * Real.cos (toRadians rest) ∧
      sinDeclination (270 + rest) = -0.39782 * Real.cos (toRadians rest) := by
  have hquarter : toRadians (270 : ℝ) = π / 2 + π := by
    rw [toRadians_eq]
    ring
  unfold sinDeclination
  simp only [sin_eq, toRadians_sub, toRadians_add, hquarter]
  constructor
  · rw [Real.sin_sub, Real.sin_add_pi, Real.cos_add_pi, Real.sin_pi_div_two, Real.cos_pi_div_two]
    ring
  · rw [Real.sin_add, Real.sin_add_pi, Real.cos_add_pi, Real.sin_pi_div_two, Real.cos_pi_div_two]
    ring

theorem abs_cos_zenith_lt (zenith : Zenith) {rest : ℝ} (h0 : 0 ≤ rest) (h1 : rest ≤ 1) :
    |Real.cos (toRadians zenith.degrees)| < 0.39782 * Real.cos (toRadians rest) := by
  have hπ := Real.pi_lt_d2
  have hπ0 := Real.pi_pos
  have hrest := Real.one_sub_sq_div_two_le_cos (x := toRadians rest)
  have hrad : toRadians rest = rest * (π / 180) := toRadians_eq _
  have hsmall0 := toRadians_nonneg h0
  have hsmall : toRadians rest ≤ 0.1 := by
    rw [hrad]
    nlinarith
  have hcos : 0.99 ≤ Real.cos (toRadians rest) := by nlinarith
  have hzenith : (90 : ℝ) ≤ zenith.degrees ∧ (zenith.degrees : ℝ) ≤ 108 := by
    cases zenith <;> norm_num [Zenith.degrees]
  obtain ⟨hl, hu⟩ := hzenith
  have hsplit : toRadians zenith.degrees = toRadians (zenith.degrees - 90) + π / 2 := by
    rw [← toRadians_right, ← toRadians_add, sub_add_cancel]
  have hsin := sin_toRadians_le (show (0 : ℝ) ≤ zenith.degrees - 90 by linarith)
  have hsin0 := le_sin_toRadians (show (0 : ℝ) ≤ zenith.degrees - 90 by linarith) (by linarith)
  rw [hsplit, Real.cos_add_pi_div_two, abs_neg, abs_of_nonneg (by linarith)]
  linarith

end Sun

theorem exists_half_daylight {gap : ℝ} (h : |gap| ≤ 24) :
    ∃ x : ℝ, 0 ≤ x ∧ x ≤ 12 ∧ ∃ n : ℤ, 2 * x + gap = 24 * n := by
  obtain ⟨hl, hu⟩ := abs_le.mp h
  rcases le_total gap 0 with hgap | hgap
  · exact ⟨-gap / 2, by linarith, by linarith, 0, by push_cast; ring⟩
  · exact ⟨12 - gap / 2, by linarith, by linarith, 1, by push_cast; ring⟩

theorem Search.hourAngle_of_cos {s : Search ℝ} {angle : ℝ} (h0 : 0 ≤ angle) (h180 : angle ≤ 180)
    (hcos : s.cosHourAngle = Real.cos (toRadians angle)) :
    s.hourAngle = match s.phase with
      | .sunrise => 360 - angle
      | .sunset => angle := by
  have harccos : Real.arccos s.cosHourAngle = toRadians angle := by
    rw [hcos]
    exact Real.arccos_cos (toRadians_nonneg h0) (toRadians_le_half h180)
  unfold hourAngle
  rw [acos_eq, harccos, toDegrees_toRadians]
  cases s.phase <;> norm_num only

open SolarDay

theorem exists_crossings_eq {place : Coordinate ℝ} {date : Date} {zenith : Zenith} {angle : ℝ}
    (hplace : |place.longitude| ≤ 175) (h0 : 0 ≤ angle) (h180 : angle ≤ 180)
    (hrise : (Search.mk place date zenith .sunrise).cosHourAngle = Real.cos (toRadians angle))
    (hset : (Search.mk place date zenith .sunset).cosHourAngle = Real.cos (toRadians angle))
    {n : ℤ} (hdays : 2 * (angle / 15) +
      (Sun.culmination (Search.mk place date zenith .sunset).day -
        Sun.culmination (Search.mk place date zenith .sunrise).day) = 24 * n) :
    ∃ t, crossingOn place zenith .sunrise date = .ok t ∧
      crossingOn place zenith .sunset date = .ok t := by
  have hbound : |Real.cos (toRadians angle)| ≤ 1 := Real.abs_cos_le_one _
  have hr := Search.crossing_in_day (s := ⟨place, date, zenith, .sunrise⟩) hplace
  have hs := Search.crossing_in_day (s := ⟨place, date, zenith, .sunset⟩) hplace
  have hraw : (Search.mk place date zenith .sunset).rawHour -
      (Search.mk place date zenith .sunrise).rawHour = 24 * (n - 1 : ℤ) := by
    rw [Search.rawHour_eq, Search.rawHour_eq, Search.hourAngle_of_cos h0 h180 hrise,
      Search.hourAngle_of_cos h0 h180 hset]
    push_cast
    linarith
  have hsame := Search.wrapOnce_eq_of_days hr hs hraw
  obtain ⟨t, ht, _⟩ := Crossing.instant_crosses date 0 hr.1 hr.2
  refine ⟨t, ?_, ?_⟩
  · unfold crossingOn Search.run
    rw [Search.crossing_of_abs_le (hrise ▸ hbound)]
    exact ht
  · unfold crossingOn Search.run
    rw [Search.crossing_of_abs_le (hset ▸ hbound), hsame]
    exact ht

/-- Close to the December solstice of every year there is a place with both crossings in one
minute, whatever the zenith distance. -/
theorem exists_crossings_in_one_minute {date : Date} (hdate : date.dayNumber = 356)
    (zenith : Zenith) : ∃ place : Coordinate ℝ, |place.latitude| < 90 ∧ |place.longitude| ≤ 175 ∧
      ∃ t, crossingOn place zenith .sunrise date = .ok t ∧
        crossingOn place zenith .sunset date = .ok t := by
  obtain ⟨east, rest, h0, h175, hrest0, hrest1, hrising, hsetting⟩ := Sun.exists_opposite_longitudes
  obtain ⟨hdecl, hdecl'⟩ := Sun.sinDeclination_opposite rest
  have hreach := Sun.abs_cos_zenith_lt zenith hrest0.le hrest1.le
  have hreach' : |Real.cos (toRadians zenith.degrees)| <
      -(-0.39782 * Real.cos (toRadians rest)) := by linarith
  have hcos := Real.cos_le_one (toRadians rest)
  obtain ⟨hr, hr'⟩ := abs_le.mp (Sun.rightAscension_near (270 - rest))
  obtain ⟨hs, hs'⟩ := abs_le.mp (Sun.rightAscension_near (270 + rest))
  have hgap : |Sun.culmination (356.75 - east / 360) - Sun.culmination (356.25 - east / 360)| ≤
      24 := by
    unfold Sun.culmination
    rw [hrising, hsetting, abs_le]
    constructor <;> linarith
  obtain ⟨x, hx0, hx12, n, hx⟩ := exists_half_daylight hgap
  obtain ⟨latitude, hlatitude, hcross⟩ := Sun.exists_latitude_cosHourAngle
    (show -1 < -0.39782 * Real.cos (toRadians rest) by linarith) hreach'
    (Real.cos (toRadians (15 * x)))
  have hrday : (Search.mk ⟨latitude, east⟩ date zenith .sunrise).day = 356.25 - east / 360 := by
    rw [Search.day_eq, hdate]
    norm_num [Phase.localHour]
    ring
  have hsday : (Search.mk ⟨latitude, east⟩ date zenith .sunset).day = 356.75 - east / 360 := by
    rw [Search.day_eq, hdate]
    norm_num [Phase.localHour]
    ring
  have heast : |east| ≤ 175 := abs_le.mpr ⟨by linarith, h175⟩
  refine ⟨⟨latitude, east⟩, hlatitude, heast, exists_crossings_eq heast
    (show 0 ≤ 15 * x by linarith) (by linarith) ?_ ?_ (n := n) ?_⟩
  · unfold Search.cosHourAngle Search.trueLongitude
    rw [hrday, hrising, hdecl]
    exact hcross
  · unfold Search.cosHourAngle Search.trueLongitude
    rw [hsday, hsetting, hdecl']
    exact hcross
  · rw [hrday, hsday]
    linarith

end GeoAlmanac
