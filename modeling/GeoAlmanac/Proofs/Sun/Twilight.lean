import GeoAlmanac.Proofs.Sun.Equinox
import GeoAlmanac.Proofs.Sun.Solstice

/-! One crossing under two zenith distances, read over the reals. The declination does not depend on
the zenith distance, and a deeper one lowers the cosine of the hour angle. So the hour angles move
apart around the culmination, a polar day stays one, and a polar night under the deeper distance was
one before. -/

namespace GeoAlmanac.Search

/-- Under a deeper zenith distance the cosine of the hour angle is smaller, whether or not the sun
reaches it. -/
theorem cosHourAngle_lt {place : Coordinate ℝ} (hlatitude : |place.latitude| < 90) (date : Date)
    (phase : Phase) {z₁ z₂ : Zenith} (hdarker : (z₁.degrees : ℝ) < z₂.degrees) :
    (Search.mk place date z₂ phase).cosHourAngle < (Search.mk place date z₁ phase).cosHourAngle := by
  have hpos := meridian_pos (s := ⟨place, date, z₁, phase⟩) hlatitude
  have hsolve₁ := meridian_mul_cosHourAngle (s := ⟨place, date, z₁, phase⟩) hlatitude
  have hsolve₂ := meridian_mul_cosHourAngle (s := ⟨place, date, z₂, phase⟩) hlatitude
  have hgap := cos_zenith_sub_ge hdarker
  have hdecl : (Search.mk place date z₂ phase).declination =
      (Search.mk place date z₁ phase).declination := rfl
  rw [hdecl] at hsolve₂
  refine lt_of_mul_lt_mul_left ?_ hpos.le
  linarith

theorem arc_lt {s₁ s₂ : Search ℝ} (hcos₁ : |s₁.cosHourAngle| ≤ 1) (hcos₂ : |s₂.cosHourAngle| ≤ 1)
    (h : s₂.cosHourAngle < s₁.cosHourAngle) : s₁.arc < s₂.arc :=
  toDegrees_lt (Real.arccos_lt_arccos (abs_le.mp hcos₂).1 h (abs_le.mp hcos₁).2)

/-- A deeper zenith distance only adds light to a crossing. -/
theorem darker_zenith_adds_light {place : Coordinate ℝ} (hlatitude : |place.latitude| < 90)
    (date : Date) (phase : Phase) {z₁ z₂ : Zenith} (hdarker : (z₁.degrees : ℝ) < z₂.degrees) :
    let s₁ : Search ℝ := ⟨place, date, z₁, phase⟩
    let s₂ : Search ℝ := ⟨place, date, z₂, phase⟩
    ((∃ c, s₁.crossing = .polarDay c) → ∃ c, s₂.crossing = .polarDay c) ∧
    ((∃ c, s₂.crossing = .polarNight c) → ∃ c, s₁.crossing = .polarNight c) ∧
    ((∃ day hour, s₁.crossing = .crosses day hour) →
      (∃ day hour, s₂.crossing = .crosses day hour) →
      match phase with
      | .sunset => s₁.hourAngle < s₂.hourAngle
      | .sunrise => s₂.hourAngle < s₁.hourAngle) := by
  intro s₁ s₂
  obtain ⟨hnight₁, hday₁, hcross₁⟩ := s₁.crossing_iff
  obtain ⟨hnight₂, hday₂, hcross₂⟩ := s₂.crossing_iff
  have hlt : s₂.cosHourAngle < s₁.cosHourAngle := cosHourAngle_lt hlatitude date phase hdarker
  rw [hday₁, hday₂, hnight₁, hnight₂, hcross₁, hcross₂]
  refine ⟨hlt.trans, fun h => h.trans hlt, fun hcos₁ hcos₂ => ?_⟩
  have harc := arc_lt hcos₁ hcos₂ hlt
  rw [hourAngle_eq_arc, hourAngle_eq_arc]
  cases phase with
  | sunset => exact harc
  | sunrise => exact sub_lt_sub_left harc 360

theorem sin_declination_near_solstice {s : Search ℝ} (hl : 355 ≤ s.day) (hu : s.day ≤ 357) :
    Real.sin s.declination ≤ -0.377 := by
  obtain ⟨hcentre, hcentre'⟩ := abs_le.mp (Sun.abs_centre_le s.day)
  have hlongitude : Sun.unreduced s.day = 0.9856 * s.day + 279.345 + Sun.centre s.day := rfl
  have hturn := Sun.trueLongitude_second_turn (t := s.day) (by linarith) (by linarith)
  rw [sin_declination, trueLongitude]
  rcases le_total (Sun.unreduced s.day) 630 with hbefore | hafter
  · have hcos := cos_depression_ge (x := 630 - Sun.unreduced s.day) (by linarith) (by linarith)
    have hrest : Sun.trueLongitude s.day = 270 - (630 - Sun.unreduced s.day) := by linarith
    rw [hrest, (Sun.sinDeclination_opposite _).1]
    linarith
  · have hcos := cos_depression_ge (x := Sun.unreduced s.day - 630) (by linarith) (by linarith)
    have hrest : Sun.trueLongitude s.day = 270 + (Sun.unreduced s.day - 630) := by linarith
    rw [hrest, (Sun.sinDeclination_opposite _).2]
    linarith

theorem polar_near_solstice {s : Search ℝ} (hl : 355 ≤ s.day) (hu : s.day ≤ 357) :
    (s.place.latitude = 88 → 1 < s.cosHourAngle) ∧
      (s.place.latitude = -88 → s.cosHourAngle < -1) := by
  have hdecl := sin_declination_near_solstice hl hu
  obtain ⟨hz, hz'⟩ := abs_le.mp (abs_cos_zenith_le s.zenith)
  have hsin := le_sin_toRadians (show (0 : ℝ) ≤ 88 by norm_num) (by norm_num)
  have hcos0 : 0 < Real.cos (toRadians 88) := cos_toRadians_pos (by norm_num [abs_lt])
  have hcos : Real.cos (toRadians 88) ≤ 0.035 := by
    have hsmall := sin_toRadians_le (show (0 : ℝ) ≤ 2 by norm_num)
    rw [show (88 : ℝ) = 90 - 2 by norm_num, toRadians_sub, toRadians_right,
      Real.cos_pi_div_two_sub]
    linarith
  have hflat : Real.cos (toRadians 88) * Real.cos s.declination ≤ 0.035 :=
    (mul_le_of_le_one_right hcos0.le (Real.cos_le_one s.declination)).trans hcos
  have hheight : Real.sin (toRadians 88) * Real.sin s.declination ≤ -0.36 := by nlinarith
  constructor
  · intro hlatitude
    rw [one_lt_cosHourAngle_iff_noon (by rw [hlatitude]; norm_num [abs_lt]), hlatitude]
    linarith
  · intro hlatitude
    rw [cosHourAngle_lt_neg_one_iff_midnight (by rw [hlatitude]; norm_num [abs_lt]), hlatitude,
      toRadians_neg, Real.cos_neg, Real.sin_neg, neg_mul]
    linarith

/-- A crossing on the day of the December solstice, on the prime meridian. -/
noncomputable def solsticeSearch (latitude : ℝ) (zenith : Zenith) (phase : Phase) : Search ℝ :=
  ⟨⟨latitude, 0⟩, ⟨2023, 12, 22, by decide⟩, zenith, phase⟩

theorem day_solsticeSearch (latitude : ℝ) (zenith : Zenith) (phase : Phase) :
    355 ≤ (solsticeSearch latitude zenith phase).day ∧
      (solsticeSearch latitude zenith phase).day ≤ 357 := by
  have hnumber : (⟨2023, 12, 22, by decide⟩ : Date).dayNumber = 356 := by decide
  unfold solsticeSearch
  rw [day_eq, hnumber]
  cases phase <;> norm_num [Phase.localHour]

/-- A sunset on the day of the September equinox on Hudson Bay. -/
noncomputable def equinoxSunset (zenith : Zenith) : Search ℝ :=
  ⟨hudsonBay, ⟨2023, 9, 22, by decide⟩, zenith, .sunset⟩

theorem cosHourAngle_equinoxSunset {zenith : Zenith} (hz : zenith = .official ∨ zenith = .civil) :
    |(equinoxSunset zenith).cosHourAngle| ≤ 1 := by
  have hsolves : (equinoxSunset zenith).Solves (toRadians 60) (equinoxSunset zenith).cosHourAngle :=
    solves_cosHourAngle (by norm_num [equinoxSunset, hudsonBay])
  have hsixty : toRadians (60 : ℝ) = Real.pi / 3 := by
    rw [toRadians_eq]
    ring
  have hday : (equinoxSunset zenith).day = 265 + (18 + 6.0125) / 24 := by
    have hnumber : (⟨2023, 9, 22, by decide⟩ : Date).dayNumber = 265 := by decide
    have h := hudsonBay_day ⟨2023, 9, 22, by decide⟩ zenith .sunset
    rw [hnumber] at h
    norm_num [Phase.localHour] at h ⊢
    exact h
  exact (arc_near_equinox hsolves (by rw [hsixty, sub_self, abs_zero]; norm_num)
    (by rw [hday]; norm_num) (by rw [hday]; norm_num) hz).1

/-- At the solstice a day of the far south is a polar one under every zenith distance, and a day of
the far north a polar night; at the equinox on Hudson Bay the sun sets under two of them. -/
theorem darker_zenith_adds_light_places :
    (Zenith.official.degrees : ℝ) < Zenith.civil.degrees ∧
    |(⟨-88, 0⟩ : Coordinate ℝ).latitude| < 90 ∧ |(⟨88, 0⟩ : Coordinate ℝ).latitude| < 90 ∧
    |hudsonBay.latitude| < 90 ∧
    ((∃ c, (solsticeSearch (-88) .official .sunrise).crossing = .polarDay c) ∧
      ∃ c, (solsticeSearch (-88) .civil .sunrise).crossing = .polarDay c) ∧
    ((∃ c, (solsticeSearch 88 .civil .sunset).crossing = .polarNight c) ∧
      ∃ c, (solsticeSearch 88 .official .sunset).crossing = .polarNight c) ∧
    ((∃ day hour, (equinoxSunset .official).crossing = .crosses day hour) ∧
      (∃ day hour, (equinoxSunset .civil).crossing = .crosses day hour) ∧
      (equinoxSunset .official).hourAngle < (equinoxSunset .civil).hourAngle) := by
  have hdarker : (Zenith.official.degrees : ℝ) < Zenith.civil.degrees := by
    norm_num [Zenith.degrees]
  have hsouth : |(⟨-88, 0⟩ : Coordinate ℝ).latitude| < 90 := by norm_num [abs_lt]
  have hnorth : |(⟨88, 0⟩ : Coordinate ℝ).latitude| < 90 := by norm_num [abs_lt]
  have hbay : |hudsonBay.latitude| < 90 := by norm_num [hudsonBay]
  have hlight : ∃ c, (solsticeSearch (-88) .official .sunrise).crossing = .polarDay c := by
    obtain ⟨hl, hu⟩ := day_solsticeSearch (-88) .official .sunrise
    exact (crossing_iff _).2.1.mpr ((polar_near_solstice hl hu).2 rfl)
  have hdark : ∃ c, (solsticeSearch 88 .civil .sunset).crossing = .polarNight c := by
    obtain ⟨hl, hu⟩ := day_solsticeSearch 88 .civil .sunset
    exact (crossing_iff _).1.mpr ((polar_near_solstice hl hu).1 rfl)
  have hofficial : ∃ day hour, (equinoxSunset .official).crossing = .crosses day hour :=
    (crossing_iff _).2.2.mpr (cosHourAngle_equinoxSunset (.inl rfl))
  have hcivil : ∃ day hour, (equinoxSunset .civil).crossing = .crosses day hour :=
    (crossing_iff _).2.2.mpr (cosHourAngle_equinoxSunset (.inr rfl))
  obtain ⟨hstays, _⟩ := darker_zenith_adds_light hsouth _ .sunrise hdarker
  obtain ⟨_, hwas, _⟩ := darker_zenith_adds_light hnorth _ .sunset hdarker
  obtain ⟨_, _, hlater⟩ := darker_zenith_adds_light hbay _ .sunset hdarker
  exact ⟨hdarker, hsouth, hnorth, hbay, ⟨hlight, hstays hlight⟩, ⟨hdark, hwas hdark⟩,
    hofficial, hcivil, hlater hofficial hcivil⟩

end GeoAlmanac.Search
