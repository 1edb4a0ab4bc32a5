import GeoAlmanac.Proofs.Sun.UniversalTime

/-! Polar day and polar night, read over the reals. The height of the model sun over a place is a
constant and a positive multiple of the cosine of the hour angle, so it is greatest at the meridian
and least half a turn from it. The search compares the zenith distance with these two heights and,
where it lies between them, goes on with an hour angle at which the sun stands there. -/

namespace GeoAlmanac
open scoped Real

namespace Sun

theorem abs_sinDeclination_le (longitude : ℝ) : |sinDeclination longitude| ≤ 0.39782 := by
  obtain ⟨hl, hu⟩ := abs_le.mp (Real.abs_sin_le_one (toRadians longitude))
  unfold sinDeclination
  rw [sin_eq, abs_le]
  constructor <;> linarith

theorem half_lt_cos_arcsin {v : ℝ} (hv : |v| ≤ 0.4) : 1 / 2 < Real.cos (Real.arcsin v) := by
  obtain ⟨hl, hu⟩ := abs_le.mp hv
  rw [Real.cos_arcsin]
  apply Real.lt_sqrt_of_sq_lt
  nlinarith

theorem abs_cos_arcsin_sub_le {v w : ℝ} (hv : |v| ≤ 0.4) (hw : |w| ≤ 0.4) :
    |Real.cos (Real.arcsin v) - Real.cos (Real.arcsin w)| ≤ 0.8 * |v - w| := by
  have hsquare {u : ℝ} (hu : |u| ≤ 0.4) : Real.cos (Real.arcsin u) ^ 2 = 1 - u ^ 2 := by
    obtain ⟨hl, hu⟩ := abs_le.mp hu
    rw [Real.cos_arcsin, Real.sq_sqrt (by nlinarith)]
  have hc := half_lt_cos_arcsin hv
  have hd := half_lt_cos_arcsin hw
  have hc2 := hsquare hv
  have hd2 := hsquare hw
  generalize Real.cos (Real.arcsin v) = c at *
  generalize Real.cos (Real.arcsin w) = d at *
  have hfactor : (c - d) * (c + d) = -((v - w) * (v + w)) := by linear_combination hc2 - hd2
  have habs := congrArg (fun x : ℝ => |x|) hfactor
  simp only [abs_neg, abs_mul] at habs
  rw [abs_of_pos (show 0 < c + d by linarith)] at habs
  have hsum : |v + w| ≤ 0.8 := (abs_add_le v w).trans (by linarith)
  calc |c - d| ≤ |c - d| * (c + d) := le_mul_of_one_le_right (abs_nonneg _) (by linarith)
    _ ≤ 0.8 * |v - w| := by
      rw [habs, mul_comm]
      exact mul_le_mul_of_nonneg_right hsum (abs_nonneg _)

/-- The sun stays far from the poles of the sky. -/
theorem half_lt_cos_declination (longitude : ℝ) :
    1 / 2 < Real.cos (Real.arcsin (sinDeclination longitude)) :=
  half_lt_cos_arcsin ((abs_sinDeclination_le longitude).trans (by norm_num))

end Sun

theorem forall_add_mul_cos_lt {a b c : ℝ} (hb : 0 ≤ b) :
    (∀ angle : ℝ, a + b * Real.cos (toRadians angle) < c) ↔ a + b < c := by
  constructor
  · intro h
    simpa [toRadians_zero] using h 0
  · intro h angle
    have hcos := mul_le_mul_of_nonneg_left (Real.cos_le_one (toRadians angle)) hb
    linarith

theorem forall_lt_add_mul_cos {a b c : ℝ} (hb : 0 ≤ b) :
    (∀ angle : ℝ, c < a + b * Real.cos (toRadians angle)) ↔ c < a - b := by
  constructor
  · intro h
    have hmidnight := h 180
    rw [toRadians_half, Real.cos_pi] at hmidnight
    linarith
  · intro h angle
    have hcos := mul_le_mul_of_nonneg_left (Real.neg_one_le_cos (toRadians angle)) hb
    linarith

namespace Search

/-- The declination of the sun in radians. -/
noncomputable def declination (s : Search ℝ) : ℝ :=
  Real.arcsin (Sun.sinDeclination s.trueLongitude)

/-- The sine of the height at which the sun stands over the place at an hour angle in degrees. -/
noncomputable def sinAltitude (s : Search ℝ) (hourAngle : ℝ) : ℝ :=
  Real.sin (toRadians s.place.latitude) * Real.sin s.declination +
    Real.cos (toRadians s.place.latitude) * Real.cos s.declination *
      Real.cos (toRadians hourAngle)

theorem sin_declination (s : Search ℝ) :
    Real.sin s.declination = Sun.sinDeclination s.trueLongitude := by
  obtain ⟨hl, hu⟩ := abs_le.mp (Sun.abs_sinDeclination_le s.trueLongitude)
  exact Real.sin_arcsin (by linarith) (by linarith)

/-- How much the height changes with the hour angle. Only the poles have none of it. -/
theorem meridian_pos {s : Search ℝ} (h : |s.place.latitude| < 90) :
    0 < Real.cos (toRadians s.place.latitude) * Real.cos s.declination :=
  mul_pos (cos_toRadians_pos h)
    (half_pos one_pos |>.trans (Sun.half_lt_cos_declination s.trueLongitude))

/-- The cosine of the hour angle solves the equation of the height for the zenith distance. -/
theorem meridian_mul_cosHourAngle {s : Search ℝ} (h : |s.place.latitude| < 90) :
    Real.cos (toRadians s.place.latitude) * Real.cos s.declination * s.cosHourAngle =
      Real.cos (toRadians s.zenith.degrees) -
        Real.sin (toRadians s.place.latitude) * Real.sin s.declination := by
  have hpos := meridian_pos h
  have hcos : s.cosHourAngle = (Real.cos (toRadians s.zenith.degrees) -
      Sun.sinDeclination s.trueLongitude * Real.sin (toRadians s.place.latitude)) /
        (Real.cos s.declination * Real.cos (toRadians s.place.latitude)) := rfl
  rw [hcos, mul_comm (Real.cos s.declination), mul_div_cancel₀ _ hpos.ne', sin_declination]
  ring

theorem one_lt_cosHourAngle_iff_noon {s : Search ℝ} (h : |s.place.latitude| < 90) :
    1 < s.cosHourAngle ↔
      Real.sin (toRadians s.place.latitude) * Real.sin s.declination +
        Real.cos (toRadians s.place.latitude) * Real.cos s.declination <
          Real.cos (toRadians s.zenith.degrees) := by
  rw [← mul_lt_mul_iff_right₀ (meridian_pos h), meridian_mul_cosHourAngle h, mul_one]
  exact lt_sub_iff_add_lt'

theorem cosHourAngle_lt_neg_one_iff_midnight {s : Search ℝ} (h : |s.place.latitude| < 90) :
    s.cosHourAngle < -1 ↔
      Real.cos (toRadians s.zenith.degrees) <
        Real.sin (toRadians s.place.latitude) * Real.sin s.declination -
          Real.cos (toRadians s.place.latitude) * Real.cos s.declination := by
  rw [← mul_lt_mul_iff_right₀ (meridian_pos h), meridian_mul_cosHourAngle h, mul_neg, mul_one]
  constructor <;> intro hlt <;> linarith

theorem one_lt_cosHourAngle_iff {s : Search ℝ} (h : |s.place.latitude| < 90) :
    1 < s.cosHourAngle ↔
      ∀ hourAngle, s.sinAltitude hourAngle < Real.cos (toRadians s.zenith.degrees) :=
  (one_lt_cosHourAngle_iff_noon h).trans (forall_add_mul_cos_lt (meridian_pos h).le).symm

theorem cosHourAngle_lt_neg_one_iff {s : Search ℝ} (h : |s.place.latitude| < 90) :
    s.cosHourAngle < -1 ↔
      ∀ hourAngle, Real.cos (toRadians s.zenith.degrees) < s.sinAltitude hourAngle :=
  (cosHourAngle_lt_neg_one_iff_midnight h).trans (forall_lt_add_mul_cos (meridian_pos h).le).symm

/-- Measured from the culmination of the date or of the date before, an hour angle has the same
cosine. -/
theorem cos_hourAngle {s : Search ℝ} (h : |s.cosHourAngle| ≤ 1) :
    Real.cos (toRadians s.hourAngle) = s.cosHourAngle := by
  obtain ⟨hl, hu⟩ := abs_le.mp h
  have hturn : toRadians (360.0 : ℝ) = 2 * π := by
    rw [toRadians_eq]
    norm_num
    ring
  unfold hourAngle
  simp only [acos_eq]
  split
  · rw [toRadians_sub, hturn, toRadians_toDegrees, Real.cos_two_pi_sub, Real.cos_arccos hl hu]
  · rw [toRadians_toDegrees, Real.cos_arccos hl hu]

theorem sinAltitude_hourAngle {s : Search ℝ} (h : |s.place.latitude| < 90)
    (hcos : |s.cosHourAngle| ≤ 1) :
    s.sinAltitude s.hourAngle = Real.cos (toRadians s.zenith.degrees) := by
  have hsolve := meridian_mul_cosHourAngle h
  unfold sinAltitude
  rw [cos_hourAngle hcos]
  linarith

/-- The three answers of a search by the cosine of its hour angle. -/
theorem crossing_iff (s : Search ℝ) :
    ((∃ c, s.crossing = .polarNight c) ↔ 1 < s.cosHourAngle) ∧
      ((∃ c, s.crossing = .polarDay c) ↔ s.cosHourAngle < -1) ∧
      ((∃ day hour, s.crossing = .crosses day hour) ↔ |s.cosHourAngle| ≤ 1) := by
  rw [abs_le]
  unfold crossing
  norm_num only
  split_ifs with hnight hday
  · simp [hnight, not_lt_of_gt (show (-1 : ℝ) < s.cosHourAngle by linarith), hnight.not_ge]
  · simp [hnight, hday, hday.not_ge]
  · simp [hnight, hday, not_lt.mp hnight, not_lt.mp hday]

/-- A search answers polar night exactly if the sun stays below the zenith distance at every hour
angle, and polar day exactly if it stays above. In all other cases it goes on with an hour angle, of
the half turn of its phase, at which the sun stands just there. -/
theorem polar_iff_forall_sinAltitude {place : Coordinate ℝ} (h : |place.latitude| < 90)
    (date : Date) (zenith : Zenith) (phase : Phase) :
    let s : Search ℝ := ⟨place, date, zenith, phase⟩
    ((∃ c, s.crossing = .polarNight c) ↔
      ∀ hourAngle, s.sinAltitude hourAngle < Real.cos (toRadians zenith.degrees)) ∧
    ((∃ c, s.crossing = .polarDay c) ↔
      ∀ hourAngle, Real.cos (toRadians zenith.degrees) < s.sinAltitude hourAngle) ∧
    ((¬ ∃ c, s.crossing = .polarNight c) → (¬ ∃ c, s.crossing = .polarDay c) →
      s.crossing = .crosses s.day (wrapOnce (s.hourAngle / 15 + Sun.culmination s.day -
        place.longitude / 15)) ∧
      s.sinAltitude s.hourAngle = Real.cos (toRadians zenith.degrees) ∧
      match phase with
      | .sunset => 0 ≤ s.hourAngle ∧ s.hourAngle ≤ 180
      | .sunrise => 180 ≤ s.hourAngle ∧ s.hourAngle ≤ 360) := by
  intro s
  obtain ⟨hnight, hday, _⟩ := s.crossing_iff
  refine ⟨hnight.trans (one_lt_cosHourAngle_iff h),
    hday.trans (cosHourAngle_lt_neg_one_iff h), fun hnoNight hnoDay => ?_⟩
  have hcos : |s.cosHourAngle| ≤ 1 :=
    abs_le.mpr ⟨not_lt.mp (mt hday.mpr hnoDay), not_lt.mp (mt hnight.mpr hnoNight)⟩
  refine ⟨?_, sinAltitude_hourAngle h hcos, s.hourAngle_half⟩
  rw [crossing_of_abs_le hcos, rawHour_eq]

/-- On the equator the sun crosses the horizon on the longest day of the north. -/
theorem polar_iff_forall_sinAltitude_equator :
    |(⟨0, 0⟩ : Coordinate ℝ).latitude| < 90 ∧
      let s : Search ℝ := ⟨⟨0, 0⟩, ⟨2024, 6, 21, by decide⟩, .official, .sunrise⟩
      (¬ ∃ c, s.crossing = .polarNight c) ∧ (¬ ∃ c, s.crossing = .polarDay c) ∧
        s.sinAltitude s.hourAngle = Real.cos (toRadians (Zenith.official.degrees : ℝ)) ∧
        180 ≤ s.hourAngle ∧ s.hourAngle ≤ 360 := by
  have h : |(⟨0, 0⟩ : Coordinate ℝ).latitude| < 90 := by norm_num
  obtain ⟨hnight, hday, hcross⟩ :=
    polar_iff_forall_sinAltitude h ⟨2024, 6, 21, by decide⟩ .official .sunrise
  have hzenith : (90.8889 : ℝ) = 0.8889 + 90 := by norm_num
  have hcos : Real.cos (toRadians (Zenith.official.degrees : ℝ)) =
      -Real.sin (toRadians 0.8889) := by
    rw [show (Zenith.official.degrees : ℝ) = 90.8889 from rfl, hzenith, toRadians_add,
      toRadians_right, Real.cos_add_pi_div_two]
  have hlow := le_sin_toRadians (show (0 : ℝ) ≤ 0.8889 by norm_num) (by norm_num)
  have hhigh := sin_toRadians_le (show (0 : ℝ) ≤ 0.8889 by norm_num)
  have hdec := Sun.half_lt_cos_declination
    (Search.mk (⟨0, 0⟩ : Coordinate ℝ) ⟨2024, 6, 21, by decide⟩ .official .sunrise).trueLongitude
  have hnoNight := mt hnight.mp fun hall => by
    have hnoon := hall 0
    rw [hcos] at hnoon
    simp only [sinAltitude, declination, toRadians_zero, Real.sin_zero, Real.cos_zero] at hnoon
    linarith
  have hnoDay := mt hday.mp fun hall => by
    have hmidnight := hall 180
    rw [hcos] at hmidnight
    simp only [sinAltitude, declination, toRadians_zero, Real.sin_zero, Real.cos_zero,
      toRadians_half, Real.cos_pi] at hmidnight
    linarith
  obtain ⟨_, haltitude, hhalf⟩ := hcross hnoNight hnoDay
  exact ⟨h, hnoNight, hnoDay, haltitude, hhalf⟩

end Search
end GeoAlmanac
