import Mathlib.Analysis.SpecialFunctions.Trigonometric.ArctanDeriv
import GeoAlmanac.Proofs.Binary64.Neighbours
import GeoAlmanac.Proofs.Sun.RightAscension

/-! The angle whose tangent is compressed, as it is computed with a correctly rounded tangent and
arctangent. Rounding keeps the symmetries of the exact functions and their order, so that a few
bounds near the nodes and near the solstices tell in which quadrant the computed angle lies. -/

namespace GeoAlmanac.Sun
open Binary64
open scoped Real

theorem tan_le_inv {x δ : ℝ} (h0 : 0 ≤ x) (hδ : 0 < δ) (h : x ≤ π / 2 - δ) :
    Real.tan x ≤ δ⁻¹ := by
  rcases h0.lt_or_eq with hpos | rfl
  · have hgap : δ ≤ Real.tan (π / 2 - x) :=
      (by linarith : δ ≤ π / 2 - x).trans (Real.le_tan (by linarith) (by linarith))
    rw [Real.tan_pi_div_two_sub] at hgap
    have hinv := inv_anti₀ hδ hgap
    rwa [inv_inv] at hinv
  · rw [Real.tan_zero]
    positivity

theorem mul_tan_le {δ : ℝ} (hδ : 0 < δ) (h1 : δ < 1) : (1 - δ ^ 2) * Real.tan δ ≤ δ := by
  have hcos : 1 - δ ^ 2 / 2 ≤ Real.cos δ := Real.one_sub_sq_div_two_le_cos
  have hsin := Real.sin_lt hδ
  have hcos0 : 0 < Real.cos δ := by nlinarith
  have hfactor : 0 ≤ 1 - δ ^ 2 := by nlinarith
  rw [Real.tan_eq_sin_div_cos, mul_div_assoc', div_le_iff₀ hcos0]
  calc (1 - δ ^ 2) * Real.sin δ ≤ (1 - δ ^ 2) * δ := mul_le_mul_of_nonneg_left hsin.le hfactor
    _ ≤ Real.cos δ * δ := mul_le_mul_of_nonneg_right (by nlinarith) hδ.le
    _ = δ * Real.cos δ := mul_comm _ _

theorem arctan_le_of_mul_le {v δ : ℝ} (hδ : 0 < δ) (h1 : δ < 1) (h : v * δ ≤ 1 - δ ^ 2) :
    Real.arctan v ≤ π / 2 - δ := by
  have hπ := Real.pi_gt_three
  have htan0 : 0 < Real.tan δ := Real.tan_pos_of_pos_of_lt_pi_div_two hδ (by linarith)
  have hle : v ≤ Real.tan (π / 2 - δ) := by
    rw [Real.tan_pi_div_two_sub, ← one_div, le_div_iff₀ htan0]
    rcases le_or_gt v 0 with hneg | hpos
    · nlinarith
    · have hfactor : 0 < 1 - δ ^ 2 := by nlinarith
      have := mul_tan_le hδ h1
      refine le_of_mul_le_mul_left ?_ hfactor
      nlinarith
  rw [← Real.arctan_tan (show -(π / 2) < π / 2 - δ by linarith) (by linarith)]
  exact Real.arctan_le_arctan_iff.mpr hle

theorem le_arctan_of_le_mul {v δ : ℝ} (hδ : 0 < δ) (h1 : δ < 1) (h : δ ≤ (1 - δ ^ 2) * v) :
    δ ≤ Real.arctan v := by
  have hπ := Real.pi_gt_three
  have hfactor : 0 < 1 - δ ^ 2 := by nlinarith
  have hle : Real.tan δ ≤ v := le_of_mul_le_mul_left ((mul_tan_le hδ h1).trans h) hfactor
  rw [← Real.arctan_tan (show -(π / 2) < δ by linarith) (by linarith)]
  exact Real.arctan_le_arctan_iff.mpr hle

theorem le_arctan {v : ℝ} (hv : 0 < v) : π / 2 - v⁻¹ ≤ Real.arctan v := by
  have hinv : 0 ≤ v⁻¹ := by positivity
  have hcomplement := Real.arctan_inv_of_pos hv
  have hle := arctan_le_self hinv
  linarith

theorem abs_arctan_lt (v : ℝ) : |Real.arctan v| < 1.575 := by
  have hπ := Real.pi_lt_d2
  have hl := Real.neg_pi_div_two_lt_arctan v
  have hu := Real.arctan_lt_pi_div_two v
  rw [abs_lt]
  constructor <;> linarith

theorem abs_arctan_sub_le (x y : ℝ) : |Real.arctan x - Real.arctan y| ≤ |x - y| := by
  have hderiv (z : ℝ) : ‖deriv Real.arctan z‖ ≤ 1 := by
    rw [Real.deriv_arctan, Real.norm_of_nonneg (by positivity)]
    exact div_le_one_of_le₀ (by nlinarith) (by positivity)
  have h := convex_univ.norm_image_sub_le_of_norm_deriv_le (f := Real.arctan) (C := 1)
    (fun z _ => Real.differentiableAt_arctan z) (fun z _ => hderiv z) (Set.mem_univ y)
    (Set.mem_univ x)
  rwa [one_mul] at h

theorem abs_tan_le_inv {x δ : ℝ} (hδ : 0 < δ) (h : |x| ≤ π / 2 - δ) : |Real.tan x| ≤ δ⁻¹ := by
  obtain ⟨hl, hu⟩ := abs_le.mp h
  rcases le_total 0 x with h0 | h0
  · rw [abs_of_nonneg (Real.tan_nonneg_of_nonneg_of_le_pi_div_two h0 (by linarith))]
    exact tan_le_inv h0 hδ hu
  · rw [← abs_neg, ← Real.tan_neg, abs_of_nonneg
      (Real.tan_nonneg_of_nonneg_of_le_pi_div_two (neg_nonneg.mpr h0) (by linarith))]
    exact tan_le_inv (neg_nonneg.mpr h0) hδ (by linarith)

theorem toDegrees_bounds {x : ℝ} (h : 0 ≤ x) :
    57.2957 * x ≤ toDegrees x ∧ toDegrees x ≤ 57.2958 * x := by
  have hπ := Real.pi_gt_d6
  have hπ' := Real.pi_lt_d6
  rw [toDegrees_eq, mul_div_assoc', le_div_iff₀ Real.pi_pos, div_le_iff₀ Real.pi_pos]
  constructor <;> nlinarith

theorem toDegrees_half_turns (x : ℝ) (j : ℤ) : toDegrees (x + j * π) = toDegrees x + 180 * j := by
  rw [toDegrees_add, toDegrees_eq (j * π)]
  field_simp

/-- The tangent of an offset as it is computed and compressed. -/
noncomputable def computedSlope (x : ℝ) : ℝ :=
  rounded (value 0.91764 * rounded (Real.tan x))

/-- An offset in degrees as it is computed from the compressed tangent. -/
noncomputable def computedOffset (x : ℝ) : ℝ :=
  rounded (rounded (Real.arctan (computedSlope x)) * value (180.0 / pi))

theorem value_factor : value 0.91764 = 8265366324120524 / 2 ^ 53 := by
  change signFactor .positive * ((8265366324120524 : ℕ) * 2 ^ (-53 : ℤ)) = _
  norm_num [signFactor]

theorem value_degrees : value (180.0 / pi) = 8063664102031864 / 2 ^ 47 := by
  have hfactor : (180.0 / pi : Float) = 57.29577951308232 := by decide +kernel
  rw [hfactor]
  change signFactor .positive * ((8063664102031864 : ℕ) * 2 ^ (-47 : ℤ)) = _
  norm_num [signFactor]

theorem value_degrees_pos : 0 < value (180.0 / pi) := by
  rw [value_degrees]
  positivity

theorem computedSlope_neg (x : ℝ) : computedSlope (-x) = -computedSlope x := by
  rw [computedSlope, Real.tan_neg, rounded_neg, mul_neg, rounded_neg, computedSlope]

theorem computedOffset_neg (x : ℝ) : computedOffset (-x) = -computedOffset x := by
  rw [computedOffset, computedSlope_neg, Real.arctan_neg, rounded_neg, neg_mul, rounded_neg,
    computedOffset]

theorem computedOffset_add_half_turns (x : ℝ) (j : ℤ) :
    computedOffset (x + j * π) = computedOffset x := by
  rw [computedOffset, computedSlope, Real.tan_add_int_mul_pi, computedOffset, computedSlope]

theorem computedOffset_le_of_arctan_le {x y : ℝ}
    (h : rounded (Real.arctan (computedSlope x)) ≤ y) :
    computedOffset x ≤ rounded (y * value (180.0 / pi)) :=
  rounded_mono (mul_le_mul_of_nonneg_right h value_degrees_pos.le)

theorem abs_rounded_sub_le_decimal (x : ℝ) : |rounded x - x| ≤ 2e-16 * |x| + 1e-60 := by
  have hunit : (2 : ℝ) ^ (-53 : ℤ) ≤ 2e-16 := by norm_num
  have htiny : (2 : ℝ) ^ (-1075 : ℤ) ≤ 1e-60 :=
    calc (2 : ℝ) ^ (-1075 : ℤ) ≤ 2 ^ (-200 : ℤ) :=
          zpow_le_zpow_right₀ (by norm_num) (by norm_num)
      _ ≤ 1e-60 := by norm_num
  exact (abs_rounded_sub_le_mul x).trans
    (add_le_add (mul_le_mul_of_nonneg_right hunit (abs_nonneg x)) htiny)

section
variable {x : ℝ} (h0 : 0 ≤ x) (hx : x < π / 2)
include h0 hx

theorem computedSlope_nonneg : 0 ≤ computedSlope x := by
  have hfactor : 0 ≤ value 0.91764 := by
    rw [value_factor]
    positivity
  have htan := Real.tan_nonneg_of_nonneg_of_le_pi_div_two h0 hx.le
  exact rounded_nonneg (mul_nonneg hfactor (rounded_nonneg htan))

theorem computedOffset_nonneg : 0 ≤ computedOffset x :=
  rounded_nonneg (mul_nonneg (rounded_nonneg
    (Real.arctan_nonneg.mpr (computedSlope_nonneg h0 hx))) value_degrees_pos.le)

theorem computedSlope_near : 0.915 * Real.tan x - 1e-59 ≤ computedSlope x ∧
    computedSlope x ≤ 0.92 * Real.tan x + 1e-59 := by
  have htan := Real.tan_nonneg_of_nonneg_of_le_pi_div_two h0 hx.le
  have hround := abs_rounded_sub_le_decimal (Real.tan x)
  have hnonneg := rounded_nonneg htan
  unfold computedSlope
  generalize rounded (Real.tan x) = t at *
  generalize Real.tan x = u at *
  have hscaled := abs_rounded_sub_le_decimal (value 0.91764 * t)
  rw [value_factor] at *
  rw [abs_of_nonneg htan] at hround
  rw [abs_of_nonneg (show 0 ≤ 8265366324120524 / 2 ^ 53 * t by positivity)] at hscaled
  obtain ⟨hl, hu⟩ := abs_le.mp hround
  obtain ⟨hl', hu'⟩ := abs_le.mp hscaled
  norm_num at *
  constructor <;> linarith

theorem arctan_computedSlope : x - 0.0446 ≤ Real.arctan (computedSlope x) ∧
    Real.arctan (computedSlope x) ≤ x + 1e-59 := by
  obtain ⟨hl, hu⟩ := computedSlope_near h0 hx
  have htan := Real.tan_nonneg_of_nonneg_of_le_pi_div_two h0 hx.le
  have hlow := (arctan_scaled (k := 0.915) (g := 0.0445) (by norm_num) (by norm_num)
    (by norm_num) (by norm_num) h0 hx).1
  have hshift (y z : ℝ) (h : y ≤ z + 1e-59) : Real.arctan y ≤ Real.arctan z + 1e-59 := by
    have hmono := Real.arctan_le_arctan_iff.mpr h
    have hnear := (abs_le.mp (abs_arctan_sub_le (z + 1e-59) z)).2
    rw [add_sub_cancel_left, abs_of_nonneg (by norm_num)] at hnear
    linarith
  constructor
  · have hmoved := hshift (0.915 * Real.tan x) (computedSlope x) (by linarith)
    norm_num at hmoved hlow ⊢
    linarith
  · have hmoved := hshift (computedSlope x) (Real.tan x) (by norm_num at hu ⊢; linarith)
    rwa [Real.arctan_tan (by linarith) hx] at hmoved

theorem computedOffset_scaled :
    57.17 * Real.arctan (computedSlope x) - 1e-50 ≤ computedOffset x ∧
      computedOffset x ≤ 57.42 * Real.arctan (computedSlope x) + 1e-50 := by
  have hpos := Real.arctan_nonneg.mpr (computedSlope_nonneg h0 hx)
  have hround := abs_rounded_sub_le_decimal (Real.arctan (computedSlope x))
  have hnonneg := rounded_nonneg hpos
  rw [computedOffset, value_degrees]
  generalize rounded (Real.arctan (computedSlope x)) = A at *
  generalize Real.arctan (computedSlope x) = a at *
  have hproduct := abs_rounded_sub_le_decimal (A * (8063664102031864 / 2 ^ 47))
  rw [abs_of_nonneg hpos] at hround
  rw [abs_of_nonneg (show 0 ≤ A * (8063664102031864 / 2 ^ 47) by positivity)] at hproduct
  obtain ⟨hl, hu⟩ := abs_le.mp hround
  obtain ⟨hl', hu'⟩ := abs_le.mp hproduct
  norm_num at *
  constructor <;> linarith

theorem computedOffset_near : |computedOffset x - toDegrees x| ≤ 2.8 := by
  have hπ := Real.pi_lt_d2
  obtain ⟨hl, hu⟩ := arctan_computedSlope h0 hx
  obtain ⟨hl', hu'⟩ := computedOffset_scaled h0 hx
  obtain ⟨hdl, hdu⟩ := toDegrees_bounds h0
  rw [abs_le]
  norm_num at *
  constructor <;> linarith

/-- An offset of a few units of the last place of half a turn is not computed as less than half a
unit of the last place of a turn. -/
theorem le_computedOffset (hfar : 5.6e-16 ≤ x) : 2.9e-14 ≤ computedOffset x := by
  have htan := hfar.trans (Real.le_tan h0 hx)
  have hslope := (computedSlope_near h0 hx).1
  have harctan : 5.119e-16 ≤ Real.arctan (computedSlope x) :=
    le_arctan_of_le_mul (by norm_num) (by norm_num) (by norm_num at htan hslope ⊢; linarith)
  have hscaled := (computedOffset_scaled h0 hx).1
  norm_num at harctan hscaled ⊢
  linarith

theorem computedOffset_le (hnear : x ≤ 1.3e-16) : computedOffset x ≤ 2.8e-14 := by
  have harctan := (arctan_computedSlope h0 hx).2
  have hscaled := (computedOffset_scaled h0 hx).2
  norm_num at hnear harctan hscaled ⊢
  linarith

end

/-- The double nearest to a right angle is `7074237752028440 * 2 ^ (-52)`. -/
theorem rounded_arctan_le (v : ℝ) :
    rounded (Real.arctan v) ≤ (7074237752028440 : ℤ) * 2 ^ (0 - 52 : ℤ) := by
  refine rounded_le_of_lt_units (by norm_num) (by norm_num) (by norm_num) ?_
  have hπ := Real.pi_lt_d20
  have hright := Real.arctan_lt_pi_div_two v
  norm_num at hπ ⊢
  linarith

theorem computedOffset_le_right (x : ℝ) : computedOffset x ≤ 90 := by
  refine (computedOffset_le_of_arctan_le (rounded_arctan_le _)).trans ?_
  have hround := rounded_le_of_lt_units (n := 6) (k := 6333186975989760)
    (x := (7074237752028440 : ℤ) * 2 ^ (0 - 52 : ℤ) * value (180.0 / pi)) (by norm_num)
    (by norm_num) (by norm_num) (by rw [value_degrees]; norm_num)
  exact hround.trans (by norm_num)

theorem computedOffset_lt_right {x : ℝ} (h0 : 0 ≤ x) (h : x ≤ π / 2 - 1.83e-16) :
    computedOffset x < 90 := by
  have hπ := Real.pi_lt_d20
  have htan : Real.tan x ≤ (5500000000000000 : ℤ) :=
    (tan_le_inv h0 (by norm_num) h).trans (by norm_num)
  have hrounded := rounded_mono htan
  rw [rounded_intCast (by norm_num)] at hrounded
  have hslope : computedSlope x ≤ (5050000000000000 : ℤ) := by
    rw [← rounded_intCast (n := 5050000000000000) (by norm_num)]
    refine rounded_mono ?_
    rw [value_factor]
    push_cast at hrounded ⊢
    linarith
  have harctan : Real.arctan (computedSlope x) ≤ π / 2 - 1.98e-16 :=
    arctan_le_of_mul_le (by norm_num) (by norm_num) (by push_cast at hslope; norm_num; linarith)
  have hround := rounded_le_of_lt_units (n := 0) (k := 7074237752028439)
    (x := Real.arctan (computedSlope x)) (by norm_num) (by norm_num) (by norm_num)
    (by norm_num at hπ harctan ⊢; linarith)
  have hproduct := rounded_le_of_lt_units (n := 6) (k := 6333186975989759)
    (x := (7074237752028439 : ℤ) * 2 ^ (0 - 52 : ℤ) * value (180.0 / pi)) (by norm_num)
    (by norm_num) (by norm_num) (by rw [value_degrees]; norm_num)
  exact ((computedOffset_le_of_arctan_le hround).trans hproduct).trans_lt (by norm_num)

theorem computedOffset_right {x : ℝ} (h : π / 2 - 6.2e-17 ≤ x) (hx : x < π / 2) :
    computedOffset x = 90 := by
  have hπ := Real.pi_gt_d20
  have h0 : -(π / 2) < x := by linarith
  refine le_antisymm (computedOffset_le_right x) ?_
  have htan : (1000000000000000 : ℤ) * 2 ^ (4 : ℤ) ≤ Real.tan x := by
    have hright : Real.arctan ((1000000000000000 : ℤ) * 2 ^ (4 : ℤ)) ≤ x :=
      (arctan_le_of_mul_le (by norm_num) (by norm_num) (by norm_num)).trans h
    have hmono := Real.strictMonoOn_tan.monotoneOn ⟨Real.neg_pi_div_two_lt_arctan _,
      Real.arctan_lt_pi_div_two _⟩ ⟨h0, hx⟩ hright
    rwa [Real.tan_arctan] at hmono
  have hrounded := rounded_mono htan
  rw [rounded_intCast_mul (by norm_num) (by norm_num)] at hrounded
  have hslope : (7300000000000000 : ℤ) * 2 ^ (1 : ℤ) ≤ computedSlope x := by
    rw [← rounded_intCast_mul (n := 7300000000000000) (e := 1) (by norm_num) (by norm_num)]
    refine rounded_mono ?_
    rw [value_factor]
    norm_num at hrounded ⊢
    linarith
  have harctan := (le_arctan (v := (7300000000000000 : ℤ) * 2 ^ (1 : ℤ)) (by norm_num)).trans
    (Real.arctan_le_arctan_iff.mpr hslope)
  have hround := units_le_rounded_of_lt (n := 0) (k := 7074237752028440)
    (x := Real.arctan (computedSlope x)) (by norm_num) (by norm_num) (by norm_num) (by norm_num)
    (by norm_num at hπ harctan ⊢; linarith)
  have hproduct := units_le_rounded_of_lt (n := 6) (k := 6333186975989760)
    (x := (7074237752028440 : ℤ) * 2 ^ (0 - 52 : ℤ) * value (180.0 / pi)) (by norm_num)
    (by norm_num) (by norm_num) (by norm_num) (by rw [value_degrees]; norm_num)
  calc (90 : ℝ) = (6333186975989760 : ℤ) * 2 ^ (6 - 52 : ℤ) := by norm_num
    _ ≤ _ := hproduct
    _ ≤ computedOffset x := rounded_mono (mul_le_mul_of_nonneg_right hround value_degrees_pos.le)

end GeoAlmanac.Sun
