import GeoAlmanac.Proofs.Sun.EquationOfTime
import GeoAlmanac.Proofs.Binary64.Accuracy
import GeoAlmanac.Proofs.Sun.NearestTangents
import GeoAlmanac.Proofs.Sun.Polar

/-! The place of the sun in binary64, next to the exact one. With elementary functions that are off
by a few units of the last place the longitude and the declination are off by almost nothing, the
cosine of the hour angle all but solves the equation of the height, and the right ascension is the
exact one up to whole right angles. -/

namespace GeoAlmanac.Sun
open Binary64
open scoped Real

/-- Off a number by a few units of the last place at most. -/
structure Accurate (x : Float) (r : ℝ) : Prop where
  finite : x.isFinite = true
  close : |value x - r| ≤ 2 ^ (-50 : ℤ) * |r| + 2 ^ (-1074 : ℤ)

/-- What is relied on of the elementary functions. The tangent may overflow next to its poles. -/
structure AccurateFunctions [Elementary Float] : Prop where
  sin (x : Float) : x.isFinite = true → Accurate (sin x) (Real.sin (value x))
  cos (x : Float) : x.isFinite = true → Accurate (cos x) (Real.cos (value x))
  tan (x : Float) : x.isFinite = true → |Real.tan (value x)| < 2 ^ (60 : ℤ) →
    Accurate (tan x) (Real.tan (value x))
  atan (x : Float) : x.isFinite = true → Accurate (atan x) (Real.arctan (value x))
  asin (x : Float) : x.isFinite = true → |value x| ≤ 1 → Accurate (asin x) (Real.arcsin (value x))
  acos (x : Float) : x.isFinite = true → |value x| ≤ 1 → Accurate (acos x) (Real.arccos (value x))

theorem tiny_le : (2 : ℝ) ^ (-1074 : ℤ) ≤ 1e-60 :=
  calc (2 : ℝ) ^ (-1074 : ℤ) ≤ 2 ^ (-200 : ℤ) := zpow_le_zpow_right₀ (by norm_num) (by norm_num)
    _ ≤ 1e-60 := by norm_num

theorem Accurate.near {x : Float} {r : ℝ} (h : Accurate x r) (hr : |r| ≤ 4) : Near x r 1e-14 := by
  have hunit : (2 : ℝ) ^ (-50 : ℤ) ≤ 1e-15 := by norm_num
  have hfirst := mul_le_mul hunit hr (abs_nonneg r) (by norm_num)
  exact ⟨h.finite, h.close.trans ((add_le_add hfirst tiny_le).trans (by norm_num))⟩

theorem accurate_nearestDouble {r : ℝ} {n : ℤ} (hlow : -1021 ≤ n) (hhigh : n < 1024)
    (hr : |r| < 2 ^ n) : Accurate (nearestDouble r) r := by
  obtain ⟨hfinite, -⟩ := (nearestDouble_rounds r).near hlow hhigh hr
  refine ⟨hfinite, ?_⟩
  rw [(nearestDouble_rounds r).value_eq hfinite]
  refine (abs_rounded_sub_le_mul r).trans (add_le_add ?_ ?_)
  · exact mul_le_mul_of_nonneg_right (zpow_le_zpow_right₀ (by norm_num) (by norm_num))
      (abs_nonneg r)
  · exact zpow_le_zpow_right₀ (by norm_num) (by norm_num)

theorem accurateFunctions_nearestFunctions : @AccurateFunctions nearestFunctions := by
  have hπ := Real.pi_lt_d2
  refine @AccurateFunctions.mk nearestFunctions (fun x _ => ?_) (fun x _ => ?_) (fun x _ htan => ?_)
    (fun x _ => ?_) (fun x _ _ => ?_) (fun x _ _ => ?_)
  · exact accurate_nearestDouble (n := 1) (by norm_num) (by norm_num)
      ((Real.abs_sin_le_one _).trans_lt (by norm_num))
  · exact accurate_nearestDouble (n := 1) (by norm_num) (by norm_num)
      ((Real.abs_cos_le_one _).trans_lt (by norm_num))
  · exact accurate_nearestDouble (by norm_num) (by norm_num) htan
  · exact accurate_nearestDouble (n := 1) (by norm_num) (by norm_num)
      ((abs_arctan_lt _).trans (by norm_num))
  · refine accurate_nearestDouble (n := 1) (by norm_num) (by norm_num) (abs_lt.mpr ⟨?_, ?_⟩)
    · linarith [Real.neg_pi_div_two_le_arcsin (value x)]
    · linarith [Real.arcsin_le_pi_div_two (value x)]
  · refine accurate_nearestDouble (n := 2) (by norm_num) (by norm_num) (abs_lt.mpr ⟨?_, ?_⟩)
    · linarith [Real.arccos_nonneg (value x)]
    · linarith [Real.arccos_le_pi (value x)]

theorem toRadians_near {x : Float} {r ε δ : ℝ} (hx : Near x r ε) (hr : |r| ≤ 1000)
    (hδ : 0.02 * ε + 1e-13 ≤ δ) (hδ1 : δ ≤ 1) : Near (toRadians x) (toRadians r) δ := by
  have hl := Real.pi_gt_d20
  have hu := Real.pi_lt_d20
  have hfactor : Near (pi / 180.0) (π / 180) 1e-17 := by
    refine ⟨rfl, ?_⟩
    rw [value_radian, abs_le]
    norm_num at *
    constructor <;> linarith
  have hfactor0 : |π / 180| ≤ 0.0175 := by
    rw [abs_of_pos (by positivity)]
    norm_num at *
    linarith
  have hε0 : 0 ≤ ε := (abs_nonneg _).trans hx.close
  rw [toRadians_eq]
  exact hx.mul hfactor hr hfactor0 (by norm_num) (by norm_num at *; linarith) hδ1

theorem abs_degrees_le : |180 / π| ≤ 58 := by
  have hπ := Real.pi_gt_d2
  rw [abs_of_pos (by positivity), div_le_iff₀ Real.pi_pos]
  linarith

theorem toDegrees_near {x : Float} {r ε δ : ℝ} (hx : Near x r ε) (hr : |r| ≤ 4)
    (hδ : 58 * ε + 2e-13 ≤ δ) (hδ1 : δ ≤ 1) : Near (toDegrees x) (toDegrees r) δ := by
  have hl := Real.pi_gt_d20
  have hu := Real.pi_lt_d20
  have hfactor : Near (180.0 / pi) (180 / π) 1e-14 := by
    have hlow : 180 / π ≤ 8063664102031864 / 2 ^ 47 + 1e-14 := by
      rw [div_le_iff₀ Real.pi_pos]
      norm_num at *
      linarith
    have hhigh : 8063664102031864 / 2 ^ 47 - 1e-14 ≤ 180 / π := by
      rw [le_div_iff₀ Real.pi_pos]
      norm_num at *
      linarith
    refine ⟨rfl, ?_⟩
    rw [value_degrees, abs_le]
    constructor <;> linarith
  have hε0 : 0 ≤ ε := (abs_nonneg _).trans hx.close
  rw [toDegrees_eq]
  exact hx.mul hfactor hr abs_degrees_le (by norm_num) (by norm_num at *; linarith) hδ1

section
variable [Elementary Float] (h : AccurateFunctions)
include h

theorem sin_near {x : Float} {r ε δ : ℝ} (hx : Near x r ε) (hδ : ε + 1e-14 ≤ δ) :
    Near (sin x) (Real.sin r) δ :=
  ((h.sin x hx.finite).near ((Real.abs_sin_le_one _).trans (by norm_num))).of_close
    ((Real.abs_sin_sub_sin_le _ _).trans hx.close) ((add_comm _ _).trans_le hδ)

theorem cos_near {x : Float} {r ε δ : ℝ} (hx : Near x r ε) (hδ : ε + 1e-14 ≤ δ) :
    Near (cos x) (Real.cos r) δ :=
  ((h.cos x hx.finite).near ((Real.abs_cos_le_one _).trans (by norm_num))).of_close
    ((Real.abs_cos_sub_cos_le _ _).trans hx.close) ((add_comm _ _).trans_le hδ)

end

theorem meanAnomaly_near {t : Float} {r : ℝ} (ht : Near t r 3e-13) (hr : |r| ≤ 370) :
    Near (meanAnomaly t) (meanAnomaly r) 3e-11 := by
  have hrate : Near 0.9856 (0.9856 : ℝ) 6e-14 := near_decimal 9856 4 (by norm_num) (by norm_num)
  have hepoch : Near 3.289 (3.289 : ℝ) 6e-14 := near_decimal 3289 3 (by norm_num) (by norm_num)
  have hmotion : Near (0.9856 * t) (0.9856 * r) 2.3e-11 :=
    hrate.mul ht (a := 1) (by norm_num) hr (by norm_num) (by norm_num) (by norm_num)
  obtain ⟨hl, hu⟩ := abs_le.mp hr
  exact hmotion.sub hepoch (abs_le.mpr ⟨by linarith, by linarith⟩) (by norm_num) (by norm_num)

theorem abs_meanAnomaly_le {r : ℝ} (hr : |r| ≤ 370) : |(meanAnomaly r : ℝ)| ≤ 370 := by
  obtain ⟨hl, hu⟩ := abs_le.mp hr
  rw [show (meanAnomaly r : ℝ) = 0.9856 * r - 3.289 from rfl]
  exact abs_le.mpr ⟨by linarith, by linarith⟩

section
variable [Elementary Float] (h : AccurateFunctions)
include h

theorem centre_terms_near {m : Float} {μ : ℝ} (hm : Near m μ 1e-12) (hμ : |μ| ≤ 10) :
    Near (1.916 * sin m) (1.916 * Real.sin μ) 2.4e-12 ∧
      Near (0.020 * sin (2.0 * m)) (0.020 * Real.sin (2.0 * μ)) 1e-12 := by
  have hfirst : Near 1.916 (1.916 : ℝ) 6e-14 := near_decimal 1916 3 (by norm_num) (by norm_num)
  have hsecond : Near 0.020 (0.020 : ℝ) 6e-14 := near_decimal 20 3 (by norm_num) (by norm_num)
  have htwo : Near 2.0 (2.0 : ℝ) 6e-14 := near_decimal 20 1 (by norm_num) (by norm_num)
  have hdouble : Near (2.0 * m) (2.0 * μ) 3e-12 :=
    htwo.mul hm (a := 2) (by norm_num) hμ (by norm_num) (by norm_num) (by norm_num)
  constructor
  · exact hfirst.mul (sin_near h hm le_rfl) (a := 1.916) (by norm_num) (Real.abs_sin_le_one _)
      (by norm_num) (by norm_num) (by norm_num)
  · exact hsecond.mul (sin_near h hdouble le_rfl) (a := 0.020) (by norm_num)
      (Real.abs_sin_le_one _) (by norm_num) (by norm_num) (by norm_num)

theorem unreduced_near {t : Float} {r : ℝ} (ht : Near t r 3e-13) (hr : |r| ≤ 370) :
    Near (meanAnomaly t + 1.916 * sin (toRadians (meanAnomaly t)) +
      0.020 * sin (2.0 * toRadians (meanAnomaly t)) + 282.634) (unreduced r) 4e-11 := by
  have hanomaly := meanAnomaly_near ht hr
  have hsmall := abs_meanAnomaly_le hr
  have hm := toRadians_near (δ := 1e-12) hanomaly (hsmall.trans (by norm_num)) (by norm_num)
    (by norm_num)
  have hm10 : |toRadians (meanAnomaly r : ℝ)| ≤ 10 := by
    have hπ := Real.pi_lt_d2
    rw [toRadians_eq, abs_mul, abs_of_pos (show 0 < π / 180 by positivity)]
    nlinarith [abs_nonneg (meanAnomaly r : ℝ)]
  have hstart : Near 282.634 (282.634 : ℝ) 6e-14 :=
    near_decimal 282634 3 (by norm_num) (by norm_num)
  obtain ⟨hfirst, hsecond⟩ := centre_terms_near h hm hm10
  obtain ⟨hl, hu⟩ := abs_le.mp hsmall
  obtain ⟨hl1, hu1⟩ := abs_le.mp (Real.abs_sin_le_one (toRadians (meanAnomaly r)))
  obtain ⟨hl2, hu2⟩ := abs_le.mp (Real.abs_sin_le_one (2.0 * toRadians (meanAnomaly r)))
  have hone := hanomaly.add hfirst (δ := 3.3e-11) (abs_le.mpr ⟨by linarith, by linarith⟩)
    (by norm_num) (by norm_num)
  have htwo := hone.add hsecond (δ := 3.5e-11) (abs_le.mpr ⟨by linarith, by linarith⟩)
    (by norm_num) (by norm_num)
  rw [unreduced_eq]
  exact htwo.add hstart (abs_le.mpr ⟨by linarith, by linarith⟩) (by norm_num) (by norm_num)

/-- The longitude in binary64 is off the exact one by almost nothing and whole turns. -/
theorem trueLongitude_near {t : Float} {r : ℝ} (ht : Near t r 3e-13) (hr : |r| ≤ 370) :
    0 ≤ value (trueLongitude t) ∧ value (trueLongitude t) < 360 ∧
      ∃ n : ℤ, Near (trueLongitude t) (unreduced r + 360 * n) 5e-11 := by
  have hsum := unreduced_near h ht hr
  obtain ⟨n, hn⟩ := wrap_near hsum.finite
  obtain ⟨hfinite, h0, h360⟩ := wrap_range hsum.finite
  have hunit : (2 : ℝ) ^ (-45 : ℤ) ≤ 1e-13 := by norm_num
  refine ⟨h0, h360, n, hfinite, (abs_sub_le _ _ _).trans ((add_le_add (hn.trans hunit) ?_).trans
    (by norm_num : (1e-13 : ℝ) + 4e-11 ≤ 5e-11))⟩
  rw [add_sub_add_right_eq_sub]
  exact hsum.close

theorem sinDeclination_near {l : Float} {r : ℝ} (hl : Near l r 5e-11) (hr : |r| ≤ 1000) :
    Near (sinDeclination l) (sinDeclination r) 1e-12 := by
  have hradians := toRadians_near (δ := 1.11e-12) hl hr (by norm_num) (by norm_num)
  have hfactor : Near 0.39782 (0.39782 : ℝ) 6e-14 :=
    near_decimal 39782 5 (by norm_num) (by norm_num)
  exact hfactor.mul (sin_near h hradians le_rfl) (a := 0.39782) (by norm_num)
    (Real.abs_sin_le_one _) (by norm_num) (by norm_num) (by norm_num)

end

section
variable [Elementary Float] (h : AccurateFunctions)
include h

theorem cosDeclination_near {x : Float} {v : ℝ} (hx : Near x v 1e-12) (hv : |v| ≤ 0.39782) :
    Near (cos (asin x)) (Real.cos (Real.arcsin v)) 2e-12 := by
  have hw : |value x| ≤ 0.4 := by
    have h := abs_sub_abs_le_abs_sub (value x) v
    have := hx.close
    norm_num at *
    linarith
  have hπ := Real.pi_lt_d2
  have hasin := (h.asin x hx.finite (hw.trans (by norm_num))).near (abs_le.mpr
    ⟨by linarith [Real.neg_pi_div_two_le_arcsin (value x)],
      by linarith [Real.arcsin_le_pi_div_two (value x)]⟩)
  refine (cos_near h hasin (δ := 2e-14) (by norm_num)).of_close
    (abs_cos_arcsin_sub_le hw (hv.trans (by norm_num))) ?_
  have := hx.close
  norm_num at *
  linarith

end

/-- A product with a small factor is known but for a small part of the factor. -/
theorem product_near {x y : Float} {k c : ℝ} (hx : Near x k 2e-12) (hk : |k| ≤ 1)
    (hy : Accurate y c) (hc : 2 ^ (-55 : ℤ) ≤ c) (hc1 : c ≤ 1) :
    (x * y).isFinite = true ∧ |value (x * y) - k * c| ≤ 4e-12 * c := by
  have hc0 : 0 < c := lt_of_lt_of_le (by positivity) hc
  have hlow : (2e-17 : ℝ) ≤ c := le_trans (by norm_num) hc
  have hyc : |value y - c| ≤ 2e-15 * c := by
    have hunit : (2 : ℝ) ^ (-50 : ℤ) * |c| ≤ 1e-15 * c := by
      rw [abs_of_pos hc0]
      exact mul_le_mul_of_nonneg_right (by norm_num) hc0.le
    refine hy.close.trans ((add_le_add hunit tiny_le).trans ?_)
    norm_num at *
    linarith
  have hproduct : |value x * value y - k * c| ≤ 3e-12 * c := by
    have h := abs_mul_sub_le hx.close hyc hk (abs_of_pos hc0).le
    norm_num at *
    linarith
  have hexact : |value x * value y| ≤ 1.1 * c := by
    have h := abs_sub_abs_le_abs_sub (value x * value y) (k * c)
    rw [abs_mul k, abs_of_pos hc0] at h
    have := mul_le_mul_of_nonneg_right hk hc0.le
    norm_num at *
    linarith
  have hrounds := mul_rounds hx.finite hy.finite
  obtain ⟨hfinite, -⟩ := hrounds.near (n := 1) (by norm_num) (by norm_num) (by
    norm_num at *
    linarith)
  refine ⟨hfinite, ?_⟩
  have hround := abs_rounded_sub_le_decimal (value x * value y)
  rw [← hrounds.value_eq hfinite] at hround
  refine (abs_sub_le _ _ _).trans ((add_le_add hround hproduct).trans ?_)
  norm_num at *
  linarith

theorem abs_rounded_div_mul_sub_le (a : ℝ) {b : ℝ} (hb : 0 < b) :
    |rounded (a / b) * b - a| ≤ 2e-16 * |a| + 1e-60 * b :=
  calc |rounded (a / b) * b - a| = |rounded (a / b) - a / b| * b := by
        rw [← abs_of_pos hb, ← abs_mul, abs_of_pos hb, sub_mul, div_mul_cancel₀ _ hb.ne']
    _ ≤ (2e-16 * |a / b| + 1e-60) * b :=
        mul_le_mul_of_nonneg_right (abs_rounded_sub_le_decimal (a / b)) hb.le
    _ = 2e-16 * |a| + 1e-60 * b := by
        rw [abs_div, abs_of_pos hb]
        field_simp

/-- A quotient solves its equation, however small the divisor is, if this is known but for a small
part of itself. -/
theorem quotient_near {x y : Float} {n k c : ℝ} (hx : Near x n 1e-11) (hn : |n| ≤ 2)
    (hy : y.isFinite = true) (hk : 1 / 2 ≤ k) (hk1 : k ≤ 1) (hc : 2 ^ (-55 : ℤ) ≤ c) (hc1 : c ≤ 1)
    (hclose : |value y - k * c| ≤ 4e-12 * c) :
    (x / y).isFinite = true ∧ |k * c * value (x / y) - n| ≤ 1e-10 := by
  have hc0 : 0 < c := lt_of_lt_of_le (by positivity) hc
  obtain ⟨hl, hu⟩ := abs_le.mp hclose
  have hlow : 0.49 * c ≤ value y := by nlinarith
  have hhigh : value y ≤ 1.1 := by nlinarith
  have hpos : 0 < value y := by nlinarith
  have hnum : |value x| ≤ 2.1 := by
    have h := abs_sub_abs_le_abs_sub (value x) n
    have := hx.close
    norm_num at *
    linarith
  have hrounds := div_rounds hx.finite hy hpos.ne'
  have hsmall : |value x / value y| < 2 ^ (60 : ℤ) := by
    rw [abs_div, abs_of_pos hpos, div_lt_iff₀ hpos]
    norm_num at hc ⊢
    linarith
  obtain ⟨hfinite, -⟩ := hrounds.near (by norm_num) (by norm_num) hsmall
  refine ⟨hfinite, ?_⟩
  have hback := abs_rounded_div_mul_sub_le (value x) hpos
  rw [← hrounds.value_eq hfinite] at hback
  generalize value (x / y) = q at *
  have hback : |q * value y - value x| ≤ 1e-15 := by
    norm_num at *
    linarith
  have hq : |q| * c ≤ 4.5 := by
    have habs := abs_sub_abs_le_abs_sub (q * value y) (value x)
    rw [abs_mul, abs_of_pos hpos] at habs
    have := mul_le_mul_of_nonneg_left hlow (abs_nonneg q)
    norm_num at *
    linarith
  have hsplit : k * c * q - n =
      -(value y - k * c) * q + (q * value y - value x) + (value x - n) := by
    ring
  have hfirst : |-(value y - k * c) * q| ≤ 2e-11 := by
    rw [abs_mul, abs_neg]
    have := mul_le_mul_of_nonneg_right hclose (abs_nonneg q)
    linarith
  rw [hsplit]
  refine (abs_add_three _ _ _).trans ?_
  have := hx.close
  norm_num at *
  linarith

/-- The latitude of a pole is computed as less than a right angle, so that no place is so near to a
pole that its parallel vanishes. -/
theorem cos_latitude_ge {latitude : Float} (hfinite : latitude.isFinite = true)
    (h90 : |value latitude| ≤ 90) : 2 ^ (-55 : ℤ) ≤ Real.cos (value (toRadians latitude)) := by
  have hπ := Real.pi_gt_d20
  have hπ' := Real.pi_lt_d20
  have hfactor : 0 ≤ value (pi / 180.0) := by
    rw [value_radian]
    positivity
  have hvalue : value (toRadians latitude) = computedRadians (value latitude) :=
    (mul_rounds hfinite rfl).value_eq
      (toRadians_near (δ := 1) (near_value hfinite) (h90.trans (by norm_num)) (by norm_num)
        le_rfl).finite
  obtain ⟨hl, hu⟩ := abs_le.mp h90
  have hright := computedRadians_right.2
  have hhigh : computedRadians (value latitude) ≤ computedRadians 90 :=
    rounded_mono (mul_le_mul_of_nonneg_right hu hfactor)
  have hlow : -computedRadians 90 ≤ computedRadians (value latitude) := by
    rw [computedRadians, ← rounded_neg, ← neg_mul]
    exact rounded_mono (mul_le_mul_of_nonneg_right hl hfactor)
  have habs : |value (toRadians latitude)| ≤ π / 2 - 6e-17 := by
    rw [hvalue, abs_le]
    constructor <;> linarith
  have hcos := Real.cos_le_cos_of_nonneg_of_le_pi (abs_nonneg _) (by norm_num at *; linarith) habs
  rw [Real.cos_abs, Real.cos_pi_div_two_sub] at hcos
  have hsin := Real.mul_le_sin (show (0 : ℝ) ≤ 6e-17 by norm_num) (by norm_num at *; linarith)
  have hslope : (0.6 : ℝ) ≤ 2 / π := by
    rw [le_div_iff₀ Real.pi_pos]
    norm_num at *
    linarith
  norm_num at *
  linarith

section
variable [Elementary Float] (h : AccurateFunctions)
include h

/-- The computed cosine of the hour angle is finite and all but solves the equation of the height at
the latitude that is computed, the poles included. -/
theorem cosHourAngle_near {zenith latitude x : Float} {ζ v : ℝ} (hzenith : Near zenith ζ 6e-14)
    (hζ : |ζ| ≤ 1000) (hfinite : latitude.isFinite = true) (h90 : |value latitude| ≤ 90)
    (hx : Near x v 1e-12) (hv : |v| ≤ 0.39782) :
    (cosHourAngle zenith latitude x).isFinite = true ∧
      |Real.cos (Real.arcsin v) * Real.cos (value (toRadians latitude)) *
        value (cosHourAngle zenith latitude x) + v * Real.sin (value (toRadians latitude)) -
          Real.cos (toRadians ζ)| ≤ 1e-9 := by
  have hφ := near_value (toRadians_near (δ := 1) (near_value hfinite) (h90.trans (by norm_num))
    (by norm_num) le_rfl).finite
  have hc := cos_latitude_ge hfinite h90
  have hsinφ := Real.abs_sin_le_one (value (toRadians latitude))
  have hcosφ := Real.cos_le_one (value (toRadians latitude))
  have hcosζ := Real.abs_cos_le_one (toRadians ζ)
  have hside : |v * Real.sin (value (toRadians latitude))| ≤ 1 := by
    rw [abs_mul]
    exact mul_le_one₀ (hv.trans (by norm_num)) (abs_nonneg _) hsinφ
  have hsize := (abs_sub _ _).trans ((add_le_add hcosζ hside).trans one_add_one_eq_two.le)
  have hnum : Near (cos (toRadians zenith) - x * sin (toRadians latitude))
      (Real.cos (toRadians ζ) - v * Real.sin (value (toRadians latitude))) 1e-11 := by
    have hcosz := cos_near h (toRadians_near (δ := 2e-13) hzenith hζ (by norm_num) (by norm_num))
      (δ := 3e-13) (by norm_num)
    have hterm := hx.mul (sin_near h hφ (δ := 1e-14) (by norm_num)) (δ := 2e-12) hv hsinφ
      (by norm_num) (by norm_num) (by norm_num)
    exact hcosz.sub hterm (hsize.trans (by norm_num)) (by norm_num) (by norm_num)
  have hk := half_lt_cos_arcsin (hv.trans (by norm_num))
  obtain ⟨hden, hclose⟩ := product_near (cosDeclination_near h hx hv) (Real.abs_cos_le_one _)
    (h.cos _ hφ.finite) hc hcosφ
  obtain ⟨hquotient, hnear⟩ := quotient_near hnum hsize hden hk.le (Real.cos_le_one _) hc hcosφ
    hclose
  refine ⟨hquotient, ?_⟩
  rw [add_sub_assoc, ← neg_sub (Real.cos (toRadians ζ)), ← sub_eq_add_neg]
  exact hnear.trans (by norm_num)

end

end GeoAlmanac.Sun
