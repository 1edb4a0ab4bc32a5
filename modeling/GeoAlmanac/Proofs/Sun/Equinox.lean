import GeoAlmanac.Proofs.Sun.DayArc

/-! The days about the September equinox at the sixtieth parallel, read over the reals. The sun goes
south by four tenths of a degree a day, and the sunset comes earlier by almost three minutes. Where
it comes about midnight in universal time, the clock shows it on one date late and on the next
early. -/

namespace GeoAlmanac
open scoped Real

namespace Sun

theorem centre_near_equinox {t : ℝ} (hl : 265 ≤ t) (hu : t ≤ 268) :
    -1.936 ≤ centre t ∧ centre t ≤ -1.85 := by
  have hπ := Real.pi_lt_d4
  have hrad : toRadians (meanAnomaly t) = toRadians (meanAnomaly t - 270) + π / 2 + π := by
    rw [toRadians_eq, toRadians_eq]
    ring
  have hsin : Real.sin (toRadians (meanAnomaly t)) =
      -Real.cos (toRadians (meanAnomaly t - 270)) := by
    rw [hrad, Real.sin_add_pi, Real.sin_add_pi_div_two]
  have hcos := Real.one_sub_sq_div_two_le_cos (x := toRadians (meanAnomaly t - 270))
  have hangle : toRadians (meanAnomaly t - 270) = -((273.289 - 0.9856 * t) * (π / 180)) := by
    rw [toRadians_eq, show (meanAnomaly t : ℝ) = 0.9856 * t - 3.289 from rfl]
    ring
  have hsquare : toRadians (meanAnomaly t - 270) ^ 2 ≤ 0.0448 := by
    have h0 : 0 ≤ (273.289 - 0.9856 * t) * (π / 180) :=
      mul_nonneg (by linarith) (by positivity)
    have h1 : (273.289 - 0.9856 * t) * (π / 180) ≤ 0.2115 := by
      nlinarith [Real.pi_pos]
    rw [hangle]
    nlinarith
  have hdouble := Real.sin_le_one (2.0 * toRadians (meanAnomaly t))
  refine ⟨(abs_le.mp (abs_centre_le t)).1, ?_⟩
  unfold centre
  rw [hsin]
  linarith

theorem abs_reduction_le (n : ℤ) (longitude : ℝ) :
    |toDegrees (reduction (toRadians (2 * longitude)))| ≤ 0.09 * |longitude - 180 * n| := by
  have hzero : toDegrees (reduction (toRadians (2 * (180 * n)))) = 0 := by
    have hturns : toRadians (2 * (180 * n) : ℝ) = 0 + n * (2 * π) := by
      rw [← toRadians_turns, zero_add]
      congr 1
      ring
    rw [hturns, reduction_add_turns, toDegrees_eq]
    simp [reduction]
  rcases lt_trichotomy longitude (180 * n) with hlt | rfl | hgt
  · obtain ⟨c, _, _, hslope⟩ := exists_reductionSlope hlt
    obtain ⟨hl, hu⟩ := reductionSlope_bounds (toRadians (2 * c))
    rw [hzero] at hslope
    rw [abs_of_neg (show longitude - 180 * n < 0 by linarith), abs_le]
    constructor <;> nlinarith
  · rw [hzero]
    simp
  · obtain ⟨c, _, _, hslope⟩ := exists_reductionSlope hgt
    obtain ⟨hl, hu⟩ := reductionSlope_bounds (toRadians (2 * c))
    rw [hzero] at hslope
    rw [abs_of_pos (show 0 < longitude - 180 * n by linarith), abs_le]
    constructor <;> nlinarith

theorem equinox_bounds {t : ℝ} (hl : 265 ≤ t) (hu : t ≤ 268) :
    ∃ past : ℝ, 0.9856 * t - 262.591 ≤ past ∧ past ≤ 0.9856 * t - 262.505 ∧
      sinDeclination (trueLongitude t) = -0.39782 * Real.sin (toRadians past) ∧
      -1.936 - 0.09 * |past| - 0.00005 * t + 0.015 ≤ equationOfTime t ∧
      equationOfTime t ≤ -1.85 + 0.09 * |past| - 0.00005 * t + 0.015 := by
  obtain ⟨hc, hc'⟩ := centre_near_equinox hl hu
  have hlongitude : unreduced t = 0.9856 * t + 279.345 + centre t := rfl
  have hreduction := abs_le.mp (abs_reduction_le 3 (unreduced t))
  push_cast at hreduction
  have hturn : toRadians (unreduced t) = toRadians (unreduced t - 540) + π + (1 : ℤ) * (2 * π) := by
    rw [toRadians_eq, toRadians_eq]
    push_cast
    ring
  refine ⟨unreduced t - 540, by linarith, by linarith, ?_, ?_, ?_⟩
  · rw [sinDeclination_trueLongitude, hturn, Real.sin_add_int_mul_two_pi, Real.sin_add_pi]
    ring
  · rw [equationOfTime_eq]
    norm_num at hreduction
    linarith
  · rw [equationOfTime_eq]
    norm_num at hreduction
    linarith

end Sun
namespace Search

theorem halfArc_neg_sin {d : ℝ} (h0 : 0 ≤ d) (h90 : d ≤ 90) :
    halfArc (-Real.sin (toRadians d)) = 90 + d := by
  rw [halfArc, ← Real.cos_add_pi_div_two, ← toRadians_right, ← toRadians_add, add_comm d 90,
    Real.arccos_cos, toDegrees_toRadians]
  · exact toRadians_nonneg (by linarith)
  · exact toRadians_le_half (by linarith)

theorem le_halfArc {c d : ℝ} (h0 : 0 ≤ d) (h90 : d ≤ 90) (h : c ≤ -Real.sin (toRadians d)) :
    90 + d ≤ halfArc c := by
  rw [← halfArc_neg_sin h0 h90]
  exact toDegrees_le (Real.arccos_le_arccos h)

theorem halfArc_le {c d : ℝ} (h0 : 0 ≤ d) (h90 : d ≤ 90) (h : -Real.sin (toRadians d) ≤ c) :
    halfArc c ≤ 90 + d := by
  rw [← halfArc_neg_sin h0 h90]
  exact toDegrees_le (Real.arccos_le_arccos h)

theorem declination_near_equinox {s : Search ℝ} {past : ℝ} (hpast : |past| ≤ 1.2)
    (h : Sun.sinDeclination s.trueLongitude = -0.39782 * Real.sin (toRadians past)) :
    |Real.sin s.declination| ≤ 0.0085 ∧ 0.99 ≤ Real.cos s.declination := by
  have hπ := Real.pi_lt_d4
  have hsin : |Real.sin s.declination| ≤ 0.0085 := by
    have hangle : |Real.sin (toRadians past)| ≤ |toRadians past| := Real.abs_sin_le_abs
    have hrad : |toRadians past| = |past| * (π / 180) := by
      rw [toRadians_eq, abs_mul, abs_of_pos (show 0 < π / 180 by positivity)]
    rw [sin_declination, h, abs_mul, abs_neg, abs_of_pos (show (0 : ℝ) < 0.39782 by norm_num)]
    nlinarith [abs_nonneg past, Real.pi_pos]
  refine ⟨hsin, ?_⟩
  have hpos := Sun.half_lt_cos_declination s.trueLongitude
  change 1 / 2 < Real.cos s.declination at hpos
  have hsq := Real.sin_sq_add_cos_sq s.declination
  have hsmall := sq_le_sq' (neg_le_of_abs_le hsin) (le_of_abs_le hsin)
  nlinarith

theorem sin_small {d : ℝ} (h0 : 0 ≤ d) (h2 : d ≤ 2) :
    0.01744 * d ≤ Real.sin (toRadians d) ∧ Real.sin (toRadians d) ≤ 0.017454 * d := by
  have hπ := Real.pi_gt_d4
  have hπ' := Real.pi_lt_d4
  have hrad : toRadians d = d * (π / 180) := toRadians_eq _
  have hx0 := toRadians_nonneg h0
  have hx : 0.01745 * d ≤ toRadians d ∧ toRadians d ≤ 0.017454 * d := by
    rw [hrad]
    constructor <;> nlinarith
  obtain ⟨hxl, hxu⟩ := hx
  refine ⟨?_, (Real.sin_le hx0).trans hxu⟩
  rcases hx0.eq_or_lt with hzero | hpos
  · rw [← hzero, Real.sin_zero]
    nlinarith
  · have hcube := Real.sin_gt_sub_cube hpos
    have hsquare : toRadians d ^ 2 ≤ 0.00125 := by nlinarith
    nlinarith

theorem cos_official : -0.01552 ≤ Real.cos (toRadians Zenith.official.degrees) ∧
    Real.cos (toRadians Zenith.official.degrees) ≤ -0.0155 := by
  obtain ⟨hlow, hhigh⟩ := sin_small (show (0 : ℝ) ≤ 0.8889 by norm_num) (by norm_num)
  rw [cos_zenith, show (Zenith.official.degrees : ℝ) - 90 = 0.8889 by norm_num [Zenith.degrees]]
  constructor <;> linarith

section
variable {s : Search ℝ} {φ c : ℝ} (hs : s.Solves φ c) (hφ : |φ - π / 3| ≤ 1e-9)
include hs hφ

omit hs in
theorem sixty_bounds : (0.4999999 ≤ Real.cos φ ∧ Real.cos φ ≤ 0.5000001) ∧
    0.866 ≤ Real.sin φ ∧ Real.sin φ ≤ 0.8661 := by
  have hcos := (Real.abs_cos_sub_cos_le φ (π / 3)).trans hφ
  have hsin := (Real.abs_sin_sub_sin_le φ (π / 3)).trans hφ
  have hlow : 1.73205 ≤ √3 := Real.le_sqrt_of_sq_le (by norm_num)
  have hhigh : √3 ≤ 1.73206 := Real.sqrt_le_iff.mpr ⟨by norm_num, by norm_num⟩
  rw [Real.cos_pi_div_three, abs_le] at hcos
  rw [Real.sin_pi_div_three, abs_le] at hsin
  norm_num at *
  exact ⟨⟨by linarith, by linarith⟩, by linarith, by linarith⟩

/-- For these days the sun crosses both zenith distances at the parallel, a little more than a right
angle from its culmination. -/
theorem arc_near_equinox (hl : 265.4 ≤ s.day) (hu : s.day ≤ 267.1)
    (hz : s.zenith = .official ∨ s.zenith = .civil) :
    |c| ≤ 1 ∧ 90 ≤ halfArc c ∧ halfArc c ≤ 112 ∧
      -2.06 ≤ Sun.equationOfTime s.day ∧ Sun.equationOfTime s.day ≤ -1.75 := by
  obtain ⟨past, hpl, hpu, hdecl, hel, heu⟩ :=
    Sun.equinox_bounds (show 265 ≤ s.day by linarith) (by linarith)
  have hpast : |past| ≤ 1.02 := abs_le.mpr ⟨by linarith, by linarith⟩
  obtain ⟨hsin, hcos⟩ := declination_near_equinox (hpast.trans (by norm_num)) hdecl
  obtain ⟨hsl, hsu⟩ := abs_le.mp hsin
  obtain ⟨⟨hcl, hcu⟩, hil, hiu⟩ := sixty_bounds hφ
  obtain ⟨hlow, hhigh⟩ := abs_le.mp hs.close
  have hcos1 := Real.cos_le_one s.declination
  have hside : |Real.sin φ * Real.sin s.declination| ≤ 0.0074 := by
    rw [abs_mul, abs_of_pos (by linarith)]
    nlinarith [abs_nonneg (Real.sin s.declination)]
  obtain ⟨hside, hside'⟩ := abs_le.mp hside
  have hmeridian : 0.49 ≤ Real.cos φ * Real.cos s.declination := by nlinarith
  have hzenith : -0.1051 ≤ Real.cos (toRadians s.zenith.degrees) ∧
      Real.cos (toRadians s.zenith.degrees) ≤ -0.0098 := by
    have hrange : (0.8889 : ℝ) ≤ s.zenith.degrees - 90 ∧ (s.zenith.degrees : ℝ) - 90 ≤ 6 := by
      rcases hz with hz | hz <;> rw [hz] <;> norm_num [Zenith.degrees]
    have hlow := le_sin_toRadians (show (0 : ℝ) ≤ s.zenith.degrees - 90 by linarith) (by linarith)
    have hhigh := sin_toRadians_le (show (0 : ℝ) ≤ s.zenith.degrees - 90 by linarith)
    rw [cos_zenith]
    constructor <;> linarith
  have hc0 : c ≤ 0 := by
    by_contra hpos
    have := mul_pos (show 0 < Real.cos φ * Real.cos s.declination by linarith) (not_le.mp hpos)
    linarith
  have hc1 : -0.24 ≤ c := by
    by_contra hneg
    have := mul_nonneg (show 0 ≤ Real.cos φ * Real.cos s.declination by linarith)
      (show 0 ≤ -0.24 - c by linarith)
    linarith
  have hsteep := le_sin_toRadians (show (0 : ℝ) ≤ 22 by norm_num) (by norm_num)
  refine ⟨abs_le.mpr ⟨by linarith, by linarith⟩, ?_, ?_, by linarith, by linarith⟩
  · have := le_halfArc (c := c) le_rfl (by norm_num)
      (by rw [toRadians_zero, Real.sin_zero]; linarith)
    linarith
  · have := halfArc_le (c := c) (show (0 : ℝ) ≤ 22 by norm_num) (by norm_num) (by linarith)
    linarith

theorem sunset_before_equinox (hz : s.zenith = .official) (hl : 266 ≤ s.day)
    (hu : s.day ≤ 266.001) : 90 ≤ halfArc c + Sun.equationOfTime s.day := by
  obtain ⟨past, hpl, hpu, hdecl, hel, _⟩ :=
    Sun.equinox_bounds (show 265 ≤ s.day by linarith) (by linarith)
  have hpast : |past| ≤ 0.422 := abs_le.mpr ⟨by linarith, by linarith⟩
  obtain ⟨hnear, hcos⟩ := declination_near_equinox (hpast.trans (by norm_num)) hdecl
  obtain ⟨⟨hcl, hcu⟩, hil, hiu⟩ := sixty_bounds hφ
  obtain ⟨hlow, hhigh⟩ := abs_le.mp hs.close
  have hsin : 0.0023 ≤ Real.sin s.declination := by
    have hback := (sin_small (show 0 ≤ -past by linarith) (by linarith)).1
    rw [toRadians_neg, Real.sin_neg] at hback
    have hsouth := (sin_declination s).trans hdecl
    linarith
  have hside : 0.00199 ≤ Real.sin φ * Real.sin s.declination := by nlinarith
  have hmeridian : Real.cos φ * Real.cos s.declination ≤ 0.5000001 := by
    nlinarith [Real.cos_le_one s.declination]
  have hmeridian0 : 0 ≤ Real.cos φ * Real.cos s.declination :=
    mul_nonneg hs.cos_nonneg (by linarith)
  have hzenith := hz ▸ cos_official.2
  have hc : c ≤ -0.0349 := by
    by_contra hgt
    have := mul_nonneg hmeridian0 (show 0 ≤ c + 0.0349 by linarith)
    linarith
  have hangle := (sin_small (show (0 : ℝ) ≤ 1.98 by norm_num) (by norm_num)).2
  have harc := le_halfArc (c := c) (show (0 : ℝ) ≤ 1.98 by norm_num) (by norm_num) (by linarith)
  linarith

theorem sunset_after_equinox (hz : s.zenith = .official) (hl : 267 ≤ s.day)
    (hu : s.day ≤ 267.001) : halfArc c + Sun.equationOfTime s.day ≤ 89.7 := by
  obtain ⟨past, hpl, hpu, hdecl, _, heu⟩ :=
    Sun.equinox_bounds (show 265 ≤ s.day by linarith) (by linarith)
  have hpast : |past| ≤ 0.66 := abs_le.mpr ⟨by linarith, by linarith⟩
  obtain ⟨hnear, hcos⟩ := declination_near_equinox (hpast.trans (by norm_num)) hdecl
  obtain ⟨⟨hcl, hcu⟩, hil, hiu⟩ := sixty_bounds hφ
  obtain ⟨hlow, hhigh⟩ := abs_le.mp hs.close
  have hsin : Real.sin s.declination ≤ -0.0039 := by
    have hpast := (sin_small (show 0 ≤ past by linarith) (by linarith)).1
    have hsouth := (sin_declination s).trans hdecl
    linarith
  have hside : Real.sin φ * Real.sin s.declination ≤ -0.003377 := by nlinarith
  have hmeridian : 0.494 ≤ Real.cos φ * Real.cos s.declination := by nlinarith
  have hzenith := hz ▸ cos_official.1
  have hc : -0.0248 ≤ c := by
    by_contra hlt
    have := mul_nonneg (show 0 ≤ Real.cos φ * Real.cos s.declination by linarith)
      (show 0 ≤ -0.0248 - c by linarith)
    linarith
  have hangle := (sin_small (show (0 : ℝ) ≤ 1.45 by norm_num) (by norm_num)).1
  have harc := halfArc_le (c := c) (show (0 : ℝ) ≤ 1.45 by norm_num) (by norm_num) (by linarith)
  linarith

end

end Search

/-- West of Greenwich by a quarter of a turn, on the shore of Hudson Bay, the sun of the equinox
sets about midnight in universal time. -/
noncomputable def hudsonBay : Coordinate ℝ := ⟨60, -90.1875⟩

theorem hudsonBay_day (date : Date) (zenith : Zenith) (phase : Phase) :
    (Search.mk hudsonBay date zenith phase).day =
      date.dayNumber + (phase.localHour + 6.0125) / 24 := by
  rw [Search.day_eq]
  norm_num [hudsonBay]

end GeoAlmanac
