import GeoAlmanac.Proofs.Sun.ComputedPosition

/-! The right ascension in binary64, next to the exact one. -/

namespace GeoAlmanac.Sun
open Binary64
open scoped Real

theorem abs_rightAscension_sub_le (a b : ℝ) :
    |15 * rightAscension a - 15 * rightAscension b| ≤ 1.09 * |a - b| := by
  wlog hlt : a < b generalizing a b
  · rcases (not_lt.mp hlt).eq_or_lt with rfl | hgt
    · simp
    · rw [abs_sub_comm, abs_sub_comm a]
      exact this b a hgt
  obtain ⟨c, -, -, hslope⟩ := exists_reductionSlope hlt
  obtain ⟨hl, hu⟩ := reductionSlope_bounds (toRadians (2 * c))
  rw [rightAscension_eq_sub, rightAscension_eq_sub, abs_of_neg (show a - b < 0 by linarith),
    abs_le]
  constructor <;> nlinarith

theorem rightAscension_add_turns (longitude : ℝ) (n : ℤ) :
    15 * rightAscension (longitude + 360 * n) = 15 * rightAscension longitude + 360 * n := by
  have hturns : toRadians (2 * (longitude + 360 * n)) =
      toRadians (2 * longitude) + (2 * n : ℤ) * (2 * π) := by
    rw [← toRadians_turns, ← toRadians_add]
    congr 1
    push_cast
    ring
  rw [rightAscension_eq_sub, rightAscension_eq_sub, hturns, reduction_add_turns]
  ring

/-- Counted from a node in radians, the right ascension is the angle of the compressed tangent. -/
theorem rightAscension_node {o : ℝ} (j : ℤ) (ho : |o| < π / 2) :
    15 * rightAscension (toDegrees (o + j * π)) =
      toDegrees (Real.arctan (0.91764 * Real.tan o)) + 180 * j := by
  have hturns : toRadians (2 * toDegrees (o + j * π)) = 2 * o + j * (2 * π) := by
    rw [toRadians_eq, toDegrees_eq]
    field_simp
  rw [rightAscension_eq_sub, hturns, reduction_add_turns, toDegrees_half_turns,
    arctan_compressed_eq (abs_lt.mp ho), sub_eq_add_neg o, toDegrees_add, toDegrees_eq (-_),
    neg_mul, ← toDegrees_eq]
  ring

theorem abs_arctan_le (v : ℝ) : |Real.arctan v| ≤ |v| := by
  simpa using abs_arctan_sub_le v 0

/-- The angle of a slope that is off by a small part of itself is off by no more. -/
theorem abs_arctan_sub_le_of_relative {x y ε : ℝ} (hε : ε ≤ 1 / 4)
    (h : |x - y| ≤ ε * (|y| + 1)) : |Real.arctan x - Real.arctan y| ≤ 4 * ε := by
  have hε0 : 0 ≤ ε := by
    by_contra hneg
    nlinarith [abs_nonneg (x - y), abs_nonneg y]
  rcases le_or_gt |y| 1 with hflat | hsteep
  · exact (abs_arctan_sub_le x y).trans (h.trans (by nlinarith))
  · have hclose : |x - y| ≤ 2 * ε * |y| := h.trans (by nlinarith)
    have hsame : y ^ 2 / 2 ≤ x * y := by
      have hproduct : |(x - y) * y| ≤ y ^ 2 / 2 := by
        rw [abs_mul, ← sq_abs y]
        nlinarith [abs_nonneg y]
      have := (abs_le.mp hproduct).1
      linarith
    have hden : y ^ 2 / 2 ≤ 1 - x * -y := by linarith
    have hy2 : 1 < y ^ 2 := by
      rw [← sq_abs]
      nlinarith
    have hadd := Real.arctan_add (show x * -y < 1 by linarith)
    rw [Real.arctan_neg, ← sub_eq_add_neg, ← sub_eq_add_neg] at hadd
    rw [hadd]
    refine (abs_arctan_le _).trans ?_
    rw [abs_div, abs_of_pos (show 0 < 1 - x * -y by linarith), div_le_iff₀ (by linarith)]
    have hy2' : |y| ≤ y ^ 2 := by
      rw [← sq_abs]
      nlinarith
    nlinarith

/-- The radians of a longitude in one turn stay away from the poles of the tangent. -/
theorem exists_node {l : Float} (hl : l.isFinite = true) (h0 : 0 ≤ value l)
    (h360 : value l < 360) :
    ∃ (j : ℤ) (o : ℝ), |o| ≤ π / 2 - 6e-17 ∧ value (toRadians l) = o + j * π := by
  have hπ := Real.pi_gt_three
  have hg := rounded_value hl
  obtain ⟨-, hvalue⟩ := toRadians_value hl h0 h360
  have hnonneg : 0 ≤ computedRadians (value l) :=
    rounded_nonneg (by rw [value_radian]; positivity)
  rw [hvalue]
  rcases le_or_gt (value l) 90 with hright | hright
  · refine ⟨0, computedRadians (value l), ?_, by push_cast; ring⟩
    rw [abs_of_nonneg hnonneg]
    rcases hright.lt_or_eq with hlt | heq
    · exact (computedRadians_lt_right hg hlt).trans (sub_le_sub_left (by norm_num) _)
    · exact heq ▸ computedRadians_right.2
  · rcases le_or_gt (value l) 270 with hlast | hlast
    · have hlow := lt_computedRadians_right hg hright
      have hhigh := computedRadians_three_quarters hlast
      refine ⟨1, computedRadians (value l) - π, abs_le.mpr ⟨?_, ?_⟩, by push_cast; ring⟩ <;>
        norm_num at * <;> linarith
    · have hlow := lt_computedRadians_three_quarters hg hlast
      have hhigh := computedRadians_lt_turn hg h360
      refine ⟨2, computedRadians (value l) - 2 * π, abs_le.mpr ⟨?_, ?_⟩, by push_cast; ring⟩ <;>
        norm_num at * <;> linarith

theorem slope_near {x : Float} {u : ℝ} (hx : Accurate x u) (hu : |u| < 2 ^ (60 : ℤ)) :
    (0.91764 * x).isFinite = true ∧
      |value (0.91764 * x) - 0.91764 * u| ≤ 1e-14 * (|0.91764 * u| + 1) := by
  have htiny := tiny_le
  have hunit : (2 : ℝ) ^ (-50 : ℤ) * |u| ≤ 1e-15 * |u| :=
    mul_le_mul_of_nonneg_right (by norm_num) (abs_nonneg u)
  have hfactor : |value 0.91764 - 0.91764| ≤ 1e-16 := by
    rw [value_factor, abs_le]
    norm_num
  have hclose : |value x - u| ≤ 1e-15 * |u| + 1e-60 :=
    hx.close.trans (add_le_add hunit htiny)
  have hproduct := abs_mul_sub_le hfactor hclose (r := 0.91764) (a := 0.91764) (by norm_num) le_rfl
  have hsize : |0.91764 * u| = 0.91764 * |u| := by rw [abs_mul]; norm_num
  have habs := abs_sub_abs_le_abs_sub (value 0.91764 * value x) (0.91764 * u)
  rw [hsize] at habs
  have hu0 := abs_nonneg u
  have hrounds := mul_rounds (x := 0.91764) rfl hx.finite
  obtain ⟨hfinite, -⟩ := hrounds.near (n := 61) (by norm_num) (by norm_num) (by
    norm_num at *
    linarith)
  refine ⟨hfinite, ?_⟩
  have hround := abs_rounded_sub_le_decimal (value 0.91764 * value x)
  rw [← hrounds.value_eq hfinite] at hround
  rw [hsize]
  refine (abs_sub_le _ _ _).trans ((add_le_add hround hproduct).trans ?_)
  norm_num at *
  linarith

section
variable [Elementary Float] (h : AccurateFunctions)
include h

/-- The angle that is computed from a longitude of one turn is its right ascension, counted from a
node. -/
theorem angle_near {l : Float} (hl : l.isFinite = true) (h0 : 0 ≤ value l) (h360 : value l < 360) :
    ∃ j : ℤ, Near (toDegrees (atan (0.91764 * tan (toRadians l))))
      (15 * rightAscension (value l) - 180 * j) 2e-11 := by
  obtain ⟨j, o, ho, hnode⟩ := exists_node hl h0 h360
  have hradians := toRadians_near (δ := 1e-13) (near_value hl)
    (by rw [abs_of_nonneg h0]; linarith) (by norm_num) (by norm_num)
  have htan : Real.tan (value (toRadians l)) = Real.tan o := by
    rw [hnode, Real.tan_add_int_mul_pi]
  have hsmall : |Real.tan o| < 2 ^ (60 : ℤ) :=
    (abs_tan_le_inv (by norm_num) ho).trans_lt (by norm_num)
  obtain ⟨hslope, hclose⟩ := slope_near (htan ▸ h.tan _ hradians.finite (htan.symm ▸ hsmall)) hsmall
  have hπ := Real.pi_lt_d2
  have hangle := ((h.atan _ hslope).near ((abs_arctan_lt _).le.trans (by norm_num))).of_close
    (abs_arctan_sub_le_of_relative (by norm_num) hclose) (δ := 6e-14) (by norm_num)
  have hdegrees := toDegrees_near (δ := 4e-12) hangle ((abs_arctan_lt _).le.trans (by norm_num))
    (by norm_num) (by norm_num)
  refine ⟨j, hdegrees.of_close (η := 7e-12) ?_ (by norm_num)⟩
  have hnode' := rightAscension_node (o := o) j (by
    rw [abs_lt]
    constructor <;> linarith [abs_le.mp ho])
  have hsame := abs_rightAscension_sub_le (toDegrees (o + j * π)) (value l)
  rw [← hnode] at hnode' hsame
  have hback : |toDegrees (value (toRadians l)) - value l| ≤ 6e-12 := by
    have hscaled := mul_le_mul hradians.close abs_degrees_le (abs_nonneg _) (by norm_num)
    rw [← abs_mul, sub_mul, ← toDegrees_eq, ← toDegrees_eq, toDegrees_toRadians] at hscaled
    exact hscaled.trans (by norm_num)
  rw [← sub_eq_iff_eq_add.mpr hnode', sub_sub_sub_cancel_right]
  refine hsame.trans ?_
  norm_num at *
  linarith

/-- The right ascension is the exact one up to whole right angles. -/
theorem rightAscension_near_quadrants {l : Float} (hl : l.isFinite = true) (h0 : 0 ≤ value l)
    (h360 : value l < 360) : (rightAscension l).isFinite = true ∧
      ∃ k : ℤ, |15 * value (rightAscension l) - (15 * rightAscension (value l) + 90 * k)| ≤
        3e-11 := by
  obtain ⟨j, hangle⟩ := angle_near h hl h0 h360
  obtain ⟨n, hn⟩ := wrap_near hangle.finite
  obtain ⟨hp, hp0, hp360⟩ := wrap_range hangle.finite
  obtain ⟨hfinite, hnear⟩ := rightAscension_near_principal hl h0 h360 hp hp0 hp360
  refine ⟨hfinite, 4 * n + ⌊value l / 90⌋ - ⌊value (principal l) / 90⌋ - 2 * j, ?_⟩
  change |value (principal l) - _| ≤ _ at hn
  have hclose := hangle.close
  rw [abs_le] at *
  push_cast
  norm_num at *
  constructor <;> linarith

/-- Where the right ascension follows the longitude it is the exact one. -/
theorem rightAscension_near_exact {l : Float} (hl : l.isFinite = true) (h0 : 0 ≤ value l)
    (h360 : value l < 360) (hfollows : |15 * value (rightAscension l) - value l| < 3) :
    (rightAscension l).isFinite = true ∧
      |15 * value (rightAscension l) - 15 * rightAscension (value l)| ≤ 3e-11 := by
  obtain ⟨hfinite, k, hk⟩ := rightAscension_near_quadrants h hl h0 h360
  have hexact := rightAscension_near (value l)
  obtain ⟨hl, hu⟩ := abs_le.mp hk
  obtain ⟨hl', hu'⟩ := abs_le.mp hexact
  obtain ⟨hl'', hu''⟩ := abs_lt.mp hfollows
  have hlow : (-1 : ℝ) < k := by
    norm_num at *
    linarith
  have hhigh : (k : ℝ) < 1 := by
    norm_num at *
    linarith
  have hlow : -1 < k := by exact_mod_cast hlow
  have hhigh : k < 1 := by exact_mod_cast hhigh
  obtain rfl : k = 0 := by omega
  rw [Int.cast_zero, mul_zero, add_zero] at hk
  exact ⟨hfinite, hk⟩

end

end GeoAlmanac.Sun
