import GeoAlmanac.Proofs.Sun.EquationOfTime
import GeoAlmanac.Proofs.Sun.Polar

/-! Half the arc of the sun above a zenith distance, read over the reals. A deeper zenith distance
makes it longer by far more than the declination changes over a few days, and two halves never add
up to less than the culmination drifts between them. -/

namespace GeoAlmanac
open scoped Real

theorem zenith_bounds (z : Zenith) : (90.8 : ℝ) ≤ z.degrees ∧ (z.degrees : ℝ) ≤ 108 := by
  cases z <;> norm_num [Zenith.degrees]

theorem cos_zenith (z : Zenith) :
    Real.cos (toRadians z.degrees) = -Real.sin (toRadians (z.degrees - 90)) := by
  rw [← Real.cos_add_pi_div_two, ← toRadians_right, ← toRadians_add, sub_add_cancel]

theorem abs_cos_zenith_le (z : Zenith) : |Real.cos (toRadians z.degrees)| ≤ 0.315 := by
  obtain ⟨hl, hu⟩ := zenith_bounds z
  have hsin := sin_toRadians_le (show (0 : ℝ) ≤ z.degrees - 90 by linarith)
  have hsin0 := le_sin_toRadians (show (0 : ℝ) ≤ z.degrees - 90 by linarith) (by linarith)
  rw [cos_zenith, abs_neg, abs_of_nonneg (by linarith)]
  linarith

theorem cos_depression_ge {x : ℝ} (h0 : 0 ≤ x) (h18 : x ≤ 18) :
    0.95 ≤ Real.cos (toRadians x) := by
  have hπ := Real.pi_lt_d4
  have hrad : toRadians x = x * (π / 180) := toRadians_eq _
  have hx0 := toRadians_nonneg h0
  have hx : toRadians x ≤ 0.3142 := by
    rw [hrad]
    nlinarith
  have hcos := Real.one_sub_sq_div_two_le_cos (x := toRadians x)
  nlinarith

theorem sin_gap_ge {x : ℝ} (h5 : 5.1 ≤ x) (h90 : x ≤ 90) : 0.0888 ≤ Real.sin (toRadians x) := by
  have hπ := Real.pi_gt_d4
  have hrad : toRadians x = x * (π / 180) := toRadians_eq _
  have hlow : 0.0890 ≤ toRadians x := by
    rw [hrad]
    nlinarith
  have hmono := Real.sin_le_sin_of_le_of_le_pi_div_two (by linarith) (toRadians_le_right h90) hlow
  have hcube := Real.sin_gt_sub_cube (show (0 : ℝ) < 0.0890 by norm_num)
  norm_num at hcube
  linarith

theorem cos_zenith_sub_ge {z₁ z₂ : Zenith} (h : (z₁.degrees : ℝ) < z₂.degrees) :
    0.084 ≤ Real.cos (toRadians z₁.degrees) - Real.cos (toRadians z₂.degrees) := by
  obtain ⟨hl, hu⟩ := zenith_bounds z₁
  obtain ⟨_, hu'⟩ := zenith_bounds z₂
  have hgap : (5.1 : ℝ) ≤ z₂.degrees - z₁.degrees := by
    revert h
    cases z₁ <;> cases z₂ <;> norm_num [Zenith.degrees]
  have hsplit : toRadians (z₁.degrees - 90 : ℝ) =
      toRadians (z₂.degrees - 90) - toRadians (z₂.degrees - z₁.degrees) := by
    rw [← toRadians_sub]
    congr 1
    ring
  have hcos := cos_depression_ge (show (0 : ℝ) ≤ z₂.degrees - 90 by linarith) (by linarith)
  have hsin := sin_gap_ge hgap (by linarith)
  have hsin0 := le_sin_toRadians (show (0 : ℝ) ≤ z₂.degrees - 90 by linarith) (by linarith)
  have hcos1 := Real.cos_le_one (toRadians (z₂.degrees - z₁.degrees : ℝ))
  rw [cos_zenith, cos_zenith, hsplit, Real.sin_sub]
  nlinarith

theorem add_le_of_cos_lt {x y gap : ℝ} (hgap : 0 ≤ gap) (hx : x ≤ π) (hy : 0 ≤ y)
    (h : Real.cos y < Real.cos x - gap) : x + gap ≤ y := by
  rcases le_total y x with hyx | hxy
  · have hmono := Real.cos_le_cos_of_nonneg_of_le_pi hy hx hyx
    linarith
  · have hdist := Real.abs_cos_sub_cos_le x y
    rw [abs_sub_comm x y, abs_of_nonneg (sub_nonneg.mpr hxy), abs_le] at hdist
    linarith

theorem abs_mul_le {x y bound : ℝ} (hx : |x| ≤ 1) (hy : |y| ≤ bound) : |x * y| ≤ bound := by
  rw [abs_mul]
  exact (mul_le_of_le_one_left (abs_nonneg y) hx).trans hy

/-- Two declinations close to each other are as close as the heights at which they culminate, if
these are not near the zenith. The sines and cosines are those of the latitude and of the
declinations. -/
theorem abs_sub_le_of_culmination {S C s c s' c' : ℝ} {gap : ℝ} (hlat : S ^ 2 + C ^ 2 = 1)
    (hdecl : s ^ 2 + c ^ 2 = 1) (hdecl' : s' ^ 2 + c' ^ 2 = 1) (hs : |s - s'| ≤ 0.018)
    (hc : |c - c'| ≤ 0.0145) (hhigh : |C * c + S * s| ≤ 0.32) (hhigh' : |C * c' + S * s'| ≤ 0.32)
    (hgap : |C * c + S * s - (C * c' + S * s')| ≤ gap) : |s - s'| ≤ 1.4 * gap := by
  have hS : |S| ≤ 1 := abs_le_one_iff_mul_self_le_one.mpr (by nlinarith [sq_nonneg C])
  have hC : |C| ≤ 1 := abs_le_one_iff_mul_self_le_one.mpr (by nlinarith [sq_nonneg S])
  have hsq : (S * c - C * s) ^ 2 + (C * c + S * s) ^ 2 = 1 := by
    linear_combination (s ^ 2 + c ^ 2) * hlat + hdecl
  have hsq' : (S * c' - C * s') ^ 2 + (C * c' + S * s') ^ 2 = 1 := by
    linear_combination (s' ^ 2 + c' ^ 2) * hlat + hdecl'
  have hback : s - s' = S * (C * c + S * s - (C * c' + S * s')) -
      C * (S * c - C * s - (S * c' - C * s')) := by
    linear_combination -(s - s') * hlat
  have hnear : |S * c - C * s - (S * c' - C * s')| ≤ 0.0325 := by
    have hsplit : S * c - C * s - (S * c' - C * s') = S * (c - c') - C * (s - s') := by ring
    rw [hsplit]
    exact (abs_sub _ _).trans (by linarith [abs_mul_le hS hc, abs_mul_le hC hs])
  generalize S * c - C * s = X at *
  generalize S * c' - C * s' = Y at *
  generalize C * c + S * s = P at *
  generalize C * c' + S * s' = Q at *
  have hsum : 1.8 ≤ |X + Y| := by
    have hX := sq_le_sq' (neg_le_of_abs_le hhigh) (le_of_abs_le hhigh)
    have hY := sq_le_sq' (neg_le_of_abs_le hhigh') (le_of_abs_le hhigh')
    have hXY := sq_le_sq' (neg_le_of_abs_le hnear) (le_of_abs_le hnear)
    have hsquare : (1.8 : ℝ) ^ 2 ≤ |X + Y| ^ 2 := by
      rw [sq_abs]
      nlinarith
    exact le_of_sq_le_sq hsquare (abs_nonneg _)
  have hproduct : |X - Y| * |X + Y| = |P - Q| * |P + Q| := by
    rw [← abs_mul, ← abs_mul, ← abs_neg ((P - Q) * (P + Q))]
    congr 1
    linear_combination hsq - hsq'
  have hsides : |P + Q| ≤ 0.64 := (abs_add_le P Q).trans (by linarith)
  have hXY : |X - Y| ≤ 0.4 * gap := by
    nlinarith [abs_nonneg (X - Y), abs_nonneg (P - Q)]
  calc |s - s'| = |S * (P - Q) - C * (X - Y)| := by rw [hback]
    _ ≤ |S * (P - Q)| + |C * (X - Y)| := abs_sub _ _
    _ ≤ gap + 0.4 * gap := add_le_add (abs_mul_le hS hgap) (abs_mul_le hC hXY)
    _ = 1.4 * gap := by ring

/-- Half the arc, in degrees, over which the sun stands above a zenith distance that it reaches at
an hour angle of this cosine. -/
noncomputable def halfArc (c : ℝ) : ℝ :=
  toDegrees (Real.arccos c)

theorem halfArc_bounds (c : ℝ) : 0 ≤ halfArc c ∧ halfArc c ≤ 180 :=
  Search.toDegrees_arccos_bounds c

theorem halfArc_add_le {c d : ℝ} (hc : |c| ≤ 1) (hd : |d| ≤ 1) (h : d < c - 0.05) :
    halfArc c + 2.8 ≤ halfArc d := by
  obtain ⟨hcl, hcu⟩ := abs_le.mp hc
  obtain ⟨hdl, hdu⟩ := abs_le.mp hd
  have hπ := Real.pi_lt_d4
  have hradians := add_le_of_cos_lt (x := Real.arccos c) (y := Real.arccos d)
    (show (0 : ℝ) ≤ 0.05 by norm_num) (Real.arccos_le_pi c) (Real.arccos_nonneg d)
    (by rwa [Real.cos_arccos hcl hcu, Real.cos_arccos hdl hdu])
  have hdegrees := toDegrees_le hradians
  have hgap : (2.8 : ℝ) ≤ toDegrees 0.05 := by
    rw [toDegrees_eq, mul_div_assoc', le_div_iff₀ Real.pi_pos]
    linarith
  rw [toDegrees_add] at hdegrees
  unfold halfArc
  linarith

theorem le_cos_of_short_arc {c : ℝ} (hc : |c| ≤ 1) (harc : halfArc c ≤ 0.34) :
    1 - 0.0000177 ≤ c := by
  have hπ := Real.pi_lt_d4
  have hcos := Real.one_sub_sq_div_two_le_cos (x := Real.arccos c)
  have hsmall : Real.arccos c ≤ 0.00594 := by
    have h := toRadians_le harc
    rw [halfArc, toRadians_toDegrees, toRadians_eq] at h
    nlinarith
  rw [Real.cos_arccos (abs_le.mp hc).1 (abs_le.mp hc).2] at hcos
  nlinarith [Real.arccos_nonneg c]

namespace Search

/-- Half the arc of the sun above the zenith distance, in degrees. -/
noncomputable def arc (s : Search ℝ) : ℝ :=
  halfArc s.cosHourAngle

theorem hourAngle_eq_arc (s : Search ℝ) :
    s.hourAngle = match s.phase with
      | .sunrise => 360 - s.arc
      | .sunset => s.arc := by
  unfold hourAngle arc halfArc
  simp only [acos_eq]
  cases s.phase <;> norm_num only

/-- The hours from a sunrise to a sunset by the two halves of the arc and the drift of the
culmination. The clock may show whole days more or less. -/
noncomputable def daylight (rising setting : Search ℝ) (c d : ℝ) : ℝ :=
  (halfArc c + halfArc d +
    (Sun.equationOfTime setting.day - Sun.equationOfTime rising.day)) / 15

/-- At a latitude of `φ` radians the cosine of an hour angle solves the equation of the height for
the zenith distance, but for what the rounding of its terms can leave. -/
structure Solves (s : Search ℝ) (φ c : ℝ) : Prop where
  cos_nonneg : 0 ≤ Real.cos φ
  close : |Real.cos φ * Real.cos s.declination * c + Real.sin φ * Real.sin s.declination -
    Real.cos (toRadians s.zenith.degrees)| ≤ 1e-9

theorem solves_cosHourAngle {s : Search ℝ} (h : |s.place.latitude| < 90) :
    s.Solves (toRadians s.place.latitude) s.cosHourAngle := by
  refine ⟨(cos_toRadians_pos h).le, ?_⟩
  rw [meridian_mul_cosHourAngle h, sub_add_cancel, sub_self, abs_zero]
  norm_num

theorem meridian_bounds {φ : ℝ} (hφ : 0 ≤ Real.cos φ) (s : Search ℝ) :
    0 ≤ Real.cos φ * Real.cos s.declination ∧ Real.cos φ * Real.cos s.declination ≤ 1 := by
  have hpos := Sun.half_lt_cos_declination s.trueLongitude
  change 1 / 2 < Real.cos s.declination at hpos
  have hcos := Real.cos_le_one φ
  have hcos' := Real.cos_le_one s.declination
  exact ⟨by positivity, by nlinarith⟩

theorem abs_sin_declination_sub_le {s₁ s₂ : Search ℝ} {gap₁ gap₂ t : ℝ}
    (h₁ : Sun.Later gap₁ t s₁.day) (h₂ : Sun.Later gap₂ t s₂.day) (hgap₁ : 0 ≤ gap₁)
    (hgap₂ : 0 ≤ gap₂) : |Real.sin s₁.declination - Real.sin s₂.declination| ≤ 0.018 := by
  rw [sin_declination, sin_declination]
  exact h₁.abs_sinDeclination_sub_le h₂ hgap₁ hgap₂

theorem abs_cos_declination_sub_le {s₁ s₂ : Search ℝ}
    (h : |Real.sin s₁.declination - Real.sin s₂.declination| ≤ 0.018) :
    |Real.cos s₁.declination - Real.cos s₂.declination| ≤ 0.0145 := by
  rw [sin_declination, sin_declination] at h
  refine (Sun.abs_cos_arcsin_sub_le ((Sun.abs_sinDeclination_le _).trans (by norm_num))
    ((Sun.abs_sinDeclination_le _).trans (by norm_num))).trans ?_
  linarith

/-- Under a deeper zenith distance the half arc is longer by almost three degrees, also at another
time of these days. -/
theorem arc_add_le {s₁ s₂ : Search ℝ} {φ c₁ c₂ : ℝ} (hs₁ : s₁.Solves φ c₁) (hs₂ : s₂.Solves φ c₂)
    (hc₁ : |c₁| ≤ 1) (hc₂ : |c₂| ≤ 1) (hzenith : (s₁.zenith.degrees : ℝ) < s₂.zenith.degrees)
    {gap₁ gap₂ t : ℝ} (h₁ : Sun.Later gap₁ t s₁.day) (h₂ : Sun.Later gap₂ t s₂.day)
    (hgap₁ : 0 ≤ gap₁) (hgap₂ : 0 ≤ gap₂) : halfArc c₁ + 2.8 ≤ halfArc c₂ := by
  have hdecl := abs_sin_declination_sub_le h₁ h₂ hgap₁ hgap₂
  obtain ⟨halt₁, _⟩ := abs_le.mp hs₁.close
  obtain ⟨_, halt₂⟩ := abs_le.mp hs₂.close
  have hgap := cos_zenith_sub_ge hzenith
  obtain ⟨hm0, hm1⟩ := meridian_bounds hs₂.cos_nonneg s₂
  refine halfArc_add_le hc₁ hc₂ ?_
  by_contra hnot
  have hdist : c₁ - c₂ ≤ 0.05 := by linarith
  have hmeridian := abs_mul_le (Real.abs_cos_le_one φ)
    (abs_mul_le hc₁ (abs_cos_declination_sub_le hdecl))
  have haxis := abs_mul_le (Real.abs_sin_le_one φ) hdecl
  have hstep : Real.cos φ * Real.cos s₂.declination * (c₁ - c₂) ≤ 0.05 := by nlinarith
  have hmeridian := (abs_le.mp hmeridian).2
  have haxis := (abs_le.mp haxis).2
  norm_num at *
  linarith

theorem Solves.culmination_of_short_arc {s : Search ℝ} {φ c : ℝ} (h : s.Solves φ c) (hc : |c| ≤ 1)
    (harc : halfArc c ≤ 0.34) :
    Real.cos (toRadians s.zenith.degrees) - 1e-9 ≤
        Real.cos φ * Real.cos s.declination + Real.sin φ * Real.sin s.declination ∧
      Real.cos φ * Real.cos s.declination + Real.sin φ * Real.sin s.declination ≤
        Real.cos (toRadians s.zenith.degrees) + 0.000017701 := by
  obtain ⟨hl, hu⟩ := abs_le.mp h.close
  obtain ⟨hm0, hm1⟩ := meridian_bounds h.cos_nonneg s
  have hlow := le_cos_of_short_arc hc harc
  have hhigh := (abs_le.mp hc).2
  constructor
  · nlinarith
  · norm_num at *
    nlinarith

/-- The sun of a zenith distance that it reaches at both times sets after it rises: the two halves
of its arc make up for the drift of its culmination. -/
theorem daylight_ge {rising setting : Search ℝ} {φ c d : ℝ} (hrising : rising.Solves φ c)
    (hsetting : setting.Solves φ d) (hc : |c| ≤ 1) (hd : |d| ≤ 1)
    (hzenith : rising.zenith = setting.zenith) (hlater : Sun.Later 0.5 rising.day setting.day) :
    0.0002 ≤ daylight rising setting c d := by
  have hdrift := abs_le.mp (hlater.abs_equationOfTime_sub_le (by norm_num))
  have harcr := (halfArc_bounds c).1
  have harcs := (halfArc_bounds d).1
  unfold daylight
  by_contra hneg
  have hlow := hrising.culmination_of_short_arc hc (by linarith)
  obtain ⟨hs, hs'⟩ := hsetting.culmination_of_short_arc hd (by linarith)
  rw [hzenith] at hlow
  obtain ⟨hr, hr'⟩ := hlow
  obtain ⟨hz, hz'⟩ := abs_le.mp (abs_cos_zenith_le setting.zenith)
  have hdecl := abs_sin_declination_sub_le (Sun.later_self rising.day) hlater le_rfl (by norm_num)
  have hsame : |Real.sin rising.declination - Real.sin setting.declination| ≤ 1.4 * 0.000017702 :=
    abs_sub_le_of_culmination (Real.sin_sq_add_cos_sq φ) (Real.sin_sq_add_cos_sq _)
      (Real.sin_sq_add_cos_sq _) hdecl (abs_cos_declination_sub_le hdecl)
      (abs_le.mpr ⟨by linarith, by linarith⟩) (abs_le.mpr ⟨by linarith, by linarith⟩)
      (abs_le.mpr ⟨by linarith, by linarith⟩)
  rw [sin_declination, sin_declination, abs_sub_comm] at hsame
  have hgain := hlater.equationOfTime_add_le (hsame.trans (by norm_num))
  linarith

theorem daylight_le {rising setting : Search ℝ} (hlater : Sun.Later 0.5 rising.day setting.day)
    (c d : ℝ) : daylight rising setting c d ≤ 24.03 := by
  have hdrift := abs_le.mp (hlater.abs_equationOfTime_sub_le (by norm_num))
  have harcr := (halfArc_bounds c).2
  have harcs := (halfArc_bounds d).2
  unfold daylight
  linarith

theorem halfArc_of_full_circle {rising setting : Search ℝ}
    (hlater : Sun.Later 0.5 rising.day setting.day) {c d : ℝ}
    (h : 23.98 ≤ daylight rising setting c d) : 179.3 ≤ halfArc c ∧ 179.3 ≤ halfArc d := by
  have hdrift := abs_le.mp (hlater.abs_equationOfTime_sub_le (by norm_num))
  have harcr := (halfArc_bounds c).2
  have harcs := (halfArc_bounds d).2
  unfold daylight at h
  constructor <;> linarith

/-- A deeper zenith distance has daylight for eighteen minutes more at least, whichever sunset each
of the two days ends with. -/
theorem daylight_add_le {r₁ s₁ r₂ s₂ : Search ℝ} {φ c₁ d₁ c₂ d₂ : ℝ} (hr₁ : r₁.Solves φ c₁)
    (hs₁ : s₁.Solves φ d₁) (hr₂ : r₂.Solves φ c₂) (hs₂ : s₂.Solves φ d₂) (hc₁ : |c₁| ≤ 1)
    (hd₁ : |d₁| ≤ 1) (hc₂ : |c₂| ≤ 1) (hd₂ : |d₂| ≤ 1) (hday : r₁.day = r₂.day)
    (hlater₁ : Sun.Later 0.5 r₁.day s₁.day) (hlater₂ : Sun.Later 0.5 r₁.day s₂.day)
    (hrise : (r₁.zenith.degrees : ℝ) < r₂.zenith.degrees)
    (hset : (s₁.zenith.degrees : ℝ) < s₂.zenith.degrees) :
    daylight r₁ s₁ c₁ d₁ + 0.3 ≤ daylight r₂ s₂ c₂ d₂ := by
  have hdrift₁ := abs_le.mp (hlater₁.abs_equationOfTime_sub_le (by norm_num))
  have hdrift₂ := abs_le.mp (hlater₂.abs_equationOfTime_sub_le (by norm_num))
  have hmorning := arc_add_le hr₁ hr₂ hc₁ hc₂ hrise (Sun.later_self r₁.day)
    (hday ▸ Sun.later_self r₁.day) le_rfl le_rfl
  have hevening := arc_add_le hs₁ hs₂ hd₁ hd₂ hset hlater₁ hlater₂ (by norm_num) (by norm_num)
  unfold daylight
  rw [← hday]
  linarith

end Search
end GeoAlmanac
