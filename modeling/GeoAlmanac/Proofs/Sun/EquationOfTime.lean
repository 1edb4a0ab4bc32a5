import Mathlib.Analysis.Calculus.Deriv.MeanValue
import Mathlib.Analysis.SpecialFunctions.Trigonometric.ArctanDeriv
import Mathlib.Topology.Algebra.Module.ModuleTopology
import GeoAlmanac.Proofs.Sun.UniversalTime

/-! The equation of time of the almanac rule, read over the reals. The right ascension is the
longitude less the reduction to the equator, a smooth function of twice the longitude, and so the
culmination of the sun drifts slowly through the year and later from day to day at the solstices. -/

namespace GeoAlmanac.Sun
open scoped Real

/-- The angle by which the right ascension falls behind a longitude of half the argument; both are
radians. -/
noncomputable def reduction (x : ℝ) : ℝ :=
  Real.arctan (0.04118 * Real.sin x / (0.95882 + 0.04118 * Real.cos x))

theorem reduction_add_turns (x : ℝ) (n : ℤ) : reduction (x + n * (2 * π)) = reduction x := by
  unfold reduction
  rw [Real.sin_add_int_mul_two_pi, Real.cos_add_int_mul_two_pi]

theorem arctan_compressed_eq {x : ℝ} (hx : x ∈ Set.Ioo (-(π / 2)) (π / 2)) :
    Real.arctan (0.91764 * Real.tan x) = x - reduction (2 * x) := by
  have harctan : Real.arctan (Real.tan x) = x := Real.arctan_tan hx.1 hx.2
  have hcos : 0 < Real.cos x := Real.cos_pos_of_mem_Ioo hx
  have hden : 0 < 1 - Real.tan x * -(0.91764 * Real.tan x) := by nlinarith [sq_nonneg (Real.tan x)]
  have hadd := Real.arctan_add (sub_pos.mp hden)
  have hquotient : (Real.tan x + -(0.91764 * Real.tan x)) /
      (1 - Real.tan x * -(0.91764 * Real.tan x)) =
      0.04118 * Real.sin (2 * x) / (0.95882 + 0.04118 * Real.cos (2 * x)) := by
    have hden' : (0 : ℝ) < 0.95882 + 0.04118 * (2 * Real.cos x ^ 2 - 1) := by nlinarith
    rw [Real.sin_two_mul, Real.cos_two_mul, div_eq_div_iff hden.ne' hden'.ne',
      Real.tan_eq_sin_div_cos]
    field_simp
    linear_combination -(0.08236 * 0.91764) * Real.sin x * Real.sin_sq_add_cos_sq x
  rw [Real.arctan_neg, harctan, hquotient] at hadd
  unfold reduction
  linarith

theorem compressed_eq {offset : ℝ} (h : |offset| < 90) :
    compressed offset = offset - toDegrees (reduction (toRadians (2 * offset))) := by
  have hdouble : toRadians (2 * offset) = 2 * toRadians offset := by
    rw [toRadians_eq, toRadians_eq]
    ring
  unfold compressed
  rw [arctan_compressed_eq (toRadians_mem_Ioo h), hdouble, sub_eq_add_neg, toDegrees_add,
    toDegrees_toRadians, toDegrees_eq (-_), neg_mul, ← toDegrees_eq, ← sub_eq_add_neg]

theorem rightAscension_eq_sub (longitude : ℝ) :
    15 * rightAscension longitude =
      longitude - toDegrees (reduction (toRadians (2 * longitude))) := by
  have hturns (j : ℤ) (offset : ℝ) :
      reduction (toRadians (2 * (180 * j + offset))) = reduction (toRadians (2 * offset)) := by
    rw [← reduction_add_turns (toRadians (2 * offset)) j, ← toRadians_turns, ← toRadians_add]
    congr 2
    ring
  obtain ⟨j, offset, rfl, h | rfl⟩ := exists_branch longitude
  · rw [rightAscension_branch j h, hturns, compressed_eq h]
    ring
  · have hzero : reduction (toRadians (2 * 90)) = 0 := by
      rw [toRadians_eq, show 2 * 90 * (π / 180) = π by ring]
      simp [reduction]
    rw [rightAscension_solstice j, hturns, hzero, toDegrees_eq, zero_mul, sub_zero]

/-- How fast the reduction changes. -/
noncomputable def reductionSlope (x : ℝ) : ℝ :=
  0.04118 * (0.95882 * Real.cos x + 0.04118) /
    ((0.95882 + 0.04118 * Real.cos x) ^ 2 + (0.04118 * Real.sin x) ^ 2)

theorem reductionSlope_eq (x : ℝ) : reductionSlope x =
    (0.04118 * 0.95882 * Real.cos x + 0.04118 ^ 2) /
      (0.95882 ^ 2 + 2 * 0.95882 * 0.04118 * Real.cos x + 0.04118 ^ 2) := by
  unfold reductionSlope
  rw [mul_pow 0.04118 (Real.sin x), Real.sin_sq]
  ring

theorem hasDerivAt_reduction (x : ℝ) : HasDerivAt reduction (reductionSlope x) x := by
  have hcos := Real.neg_one_le_cos x
  have hden : (0 : ℝ) < 0.95882 + 0.04118 * Real.cos x := by linarith
  have hden' : (0 : ℝ) < 0.95882 ^ 2 + 2 * 0.95882 * 0.04118 * Real.cos x + 0.04118 ^ 2 := by
    linarith
  have hquotient := ((Real.hasDerivAt_sin x).const_mul 0.04118).fun_div
    (((Real.hasDerivAt_cos x).const_mul 0.04118).const_add 0.95882) hden.ne'
  refine hquotient.arctan.congr_deriv ?_
  rw [reductionSlope_eq, eq_div_iff hden'.ne']
  field_simp
  rw [Real.sin_sq]
  ring

theorem reductionSlope_bounds (x : ℝ) : -0.045 ≤ reductionSlope x ∧ reductionSlope x ≤ 0.045 := by
  have hcos := Real.neg_one_le_cos x
  have hcos' := Real.cos_le_one x
  have hden : (0 : ℝ) < 0.95882 ^ 2 + 2 * 0.95882 * 0.04118 * Real.cos x + 0.04118 ^ 2 := by
    linarith
  rw [reductionSlope_eq, le_div_iff₀ hden, div_le_iff₀ hden]
  constructor <;> linarith

theorem reductionSlope_le {x : ℝ} (h : Real.cos x ≤ -0.9) : reductionSlope x ≤ -0.035 := by
  have hcos := Real.neg_one_le_cos x
  have hden : (0 : ℝ) < 0.95882 ^ 2 + 2 * 0.95882 * 0.04118 * Real.cos x + 0.04118 ^ 2 := by
    linarith
  rw [reductionSlope_eq, div_le_iff₀ hden]
  linarith

theorem hasDerivAt_reduction_degrees (longitude : ℝ) :
    HasDerivAt (fun x => toDegrees (reduction (toRadians (2 * x))))
      (2 * reductionSlope (toRadians (2 * longitude))) longitude := by
  have hangle : HasDerivAt (fun x : ℝ => toRadians (2 * x)) (2 * (π / 180)) longitude := by
    simp only [toRadians_eq]
    exact (((hasDerivAt_id longitude).const_mul 2).mul_const (π / 180)).congr_deriv (by ring)
  have hcomp := ((hasDerivAt_reduction _).comp longitude hangle).mul_const (180 / π)
  simp only [toDegrees_eq]
  refine hcomp.congr_deriv ?_
  field_simp

theorem exists_reductionSlope {a b : ℝ} (h : a < b) :
    ∃ c, a < c ∧ c < b ∧ toDegrees (reduction (toRadians (2 * b))) -
      toDegrees (reduction (toRadians (2 * a))) =
        2 * reductionSlope (toRadians (2 * c)) * (b - a) := by
  obtain ⟨c, ⟨hac, hcb⟩, hslope⟩ := exists_hasDerivAt_eq_slope _ _ h
    (fun x _ => (hasDerivAt_reduction_degrees x).continuousAt.continuousWithinAt)
    (fun x _ => hasDerivAt_reduction_degrees x)
  exact ⟨c, hac, hcb, ((eq_div_iff (by linarith)).mp hslope).symm⟩

theorem abs_centre_sub_le (t v : ℝ) : |centre v - centre t| ≤ 0.0337 * |v - t| := by
  have hπ := Real.pi_lt_d4
  have hangle : toRadians (meanAnomaly v) - toRadians (meanAnomaly t) =
      0.9856 * (π / 180) * (v - t) := by
    rw [toRadians_eq, toRadians_eq, show (meanAnomaly v : ℝ) = 0.9856 * v - 3.289 from rfl,
      show (meanAnomaly t : ℝ) = 0.9856 * t - 3.289 from rfl]
    ring
  have hsin : |Real.sin (toRadians (meanAnomaly v)) - Real.sin (toRadians (meanAnomaly t))| ≤
      0.9856 * (π / 180) * |v - t| := by
    refine (Real.abs_sin_sub_sin_le _ _).trans_eq ?_
    rw [hangle, abs_mul (0.9856 * (π / 180)), abs_of_pos (by positivity)]
  have hsin2 : |Real.sin (2.0 * toRadians (meanAnomaly v)) -
      Real.sin (2.0 * toRadians (meanAnomaly t))| ≤ 2.0 * (0.9856 * (π / 180) * |v - t|) := by
    refine (Real.abs_sin_sub_sin_le _ _).trans_eq ?_
    rw [← mul_sub, hangle, ← mul_assoc, abs_mul _ (v - t), abs_of_pos (by positivity), mul_assoc]
  have hgap : centre v - centre t =
      1.916 * (Real.sin (toRadians (meanAnomaly v)) - Real.sin (toRadians (meanAnomaly t))) +
        0.020 * (Real.sin (2.0 * toRadians (meanAnomaly v)) -
          Real.sin (2.0 * toRadians (meanAnomaly t))) := by
    unfold centre
    ring
  calc |centre v - centre t|
      ≤ 1.916 * |Real.sin (toRadians (meanAnomaly v)) - Real.sin (toRadians (meanAnomaly t))| +
        0.020 * |Real.sin (2.0 * toRadians (meanAnomaly v)) -
          Real.sin (2.0 * toRadians (meanAnomaly t))| := by
        rw [hgap]
        refine (abs_add_le _ _).trans_eq ?_
        rw [abs_mul, abs_mul, abs_of_pos (show (0 : ℝ) < 1.916 by norm_num),
          abs_of_pos (show (0 : ℝ) < 0.020 by norm_num)]
    _ ≤ 1.916 * (0.9856 * (π / 180) * |v - t|) +
        0.020 * (2.0 * (0.9856 * (π / 180) * |v - t|)) := by gcongr
    _ ≤ 0.0337 * |v - t| := by nlinarith [abs_nonneg (v - t)]

/-- The longitude of the sun moves on by about a degree a day. -/
theorem unreduced_sub_bounds {t v : ℝ} (h : t ≤ v) :
    0.9519 * (v - t) ≤ unreduced v - unreduced t ∧
      unreduced v - unreduced t ≤ 1.0193 * (v - t) := by
  have hcentre := abs_centre_sub_le t v
  rw [abs_of_nonneg (sub_nonneg.mpr h), abs_le] at hcentre
  obtain ⟨hl, hu⟩ := hcentre
  unfold unreduced
  constructor <;> linarith

/-- The angle in degrees by which the sun culminates after the mean noon. -/
noncomputable def equationOfTime (t : ℝ) : ℝ :=
  centre t - toDegrees (reduction (toRadians (2.0 * unreduced t))) - 0.00005 * t + 0.015

theorem equationOfTime_eq (t : ℝ) : equationOfTime t =
    centre t - toDegrees (reduction (toRadians (2 * unreduced t))) - 0.00005 * t + 0.015 := by
  rw [equationOfTime, show (2.0 : ℝ) = 2 by norm_num]

theorem culmination_eq (t : ℝ) :
    15 * culmination t = 180 + equationOfTime t - 360 * ⌊unreduced t / 360⌋ := by
  have hascension := rightAscension_eq_sub (trueLongitude t)
  have hturns : toRadians (2 * trueLongitude t) =
      toRadians (2 * unreduced t) + (-2 * ⌊unreduced t / 360⌋ : ℤ) * (2 * π) := by
    rw [trueLongitude_eq, ← toRadians_turns, ← toRadians_add]
    congr 1
    push_cast
    ring
  rw [hturns, reduction_add_turns, trueLongitude_eq] at hascension
  unfold culmination
  rw [trueLongitude_eq]
  have hlongitude : unreduced t = 0.9856 * t + 279.345 + centre t := rfl
  rw [equationOfTime_eq]
  linarith

/-- The drift of the culmination between two times is that of the two terms of the equation of the
centre and of the reduction, somewhere between their longitudes. -/
theorem exists_equationOfTime_sub {t v : ℝ} (h : t < v) :
    ∃ c, unreduced t < c ∧ c < unreduced v ∧ equationOfTime v - equationOfTime t =
      centre v - centre t - 2 * reductionSlope (toRadians (2 * c)) * (unreduced v - unreduced t) -
        0.00005 * (v - t) := by
  obtain ⟨hl, _⟩ := unreduced_sub_bounds h.le
  have hlt : unreduced t < unreduced v := by linarith
  obtain ⟨c, hlow, hhigh, hslope⟩ := exists_reductionSlope hlt
  refine ⟨c, hlow, hhigh, ?_⟩
  rw [← hslope, equationOfTime_eq, equationOfTime_eq]
  ring

theorem abs_equationOfTime_drift_le {t v : ℝ} (h : t ≤ v) :
    |equationOfTime v - equationOfTime t| ≤ 0.126 * (v - t) := by
  rcases h.eq_or_lt with rfl | hlt
  · simp
  · obtain ⟨c, _, _, hdrift⟩ := exists_equationOfTime_sub hlt
    obtain ⟨hs, hs'⟩ := reductionSlope_bounds (toRadians (2 * c))
    obtain ⟨hl, hu⟩ := unreduced_sub_bounds h
    have hcentre := abs_centre_sub_le t v
    rw [abs_of_nonneg (sub_nonneg.mpr h), abs_le] at hcentre
    obtain ⟨hc, hc'⟩ := hcentre
    rw [hdrift, abs_le]
    constructor <;> nlinarith

theorem equationOfTime_add_le {t v : ℝ} (h : t < v)
    (hsolstice : ∀ c, unreduced t < c → c < unreduced v → Real.cos (toRadians (2 * c)) ≤ -0.9) :
    equationOfTime t + 0.032 * (v - t) ≤ equationOfTime v := by
  obtain ⟨c, hlow, hhigh, hdrift⟩ := exists_equationOfTime_sub h
  have hs := reductionSlope_le (hsolstice c hlow hhigh)
  obtain ⟨hl, hu⟩ := unreduced_sub_bounds h.le
  have hcentre := abs_centre_sub_le t v
  rw [abs_of_nonneg (sub_nonneg.mpr h.le), abs_le] at hcentre
  nlinarith

/-- The days in which the mean motion goes round once. -/
noncomputable def meanYear : ℝ := 360 / 0.9856

theorem centre_add_meanYear (t : ℝ) : centre (t + meanYear) = centre t := by
  have hanomaly : (meanAnomaly (t + meanYear) : ℝ) = meanAnomaly t + 360 * (1 : ℤ) := by
    rw [show (meanAnomaly (t + meanYear) : ℝ) = 0.9856 * (t + meanYear) - 3.289 from rfl,
      show (meanAnomaly t : ℝ) = 0.9856 * t - 3.289 from rfl, meanYear]
    norm_num
    ring
  have hdouble : 2.0 * (toRadians (meanAnomaly t) + (1 : ℤ) * (2 * π)) =
      2.0 * toRadians (meanAnomaly t) + (2 : ℤ) * (2 * π) := by
    rw [mul_add]
    norm_num
  unfold centre
  rw [hanomaly, toRadians_add, toRadians_turns, hdouble, Real.sin_add_int_mul_two_pi,
    Real.sin_add_int_mul_two_pi]

theorem unreduced_add_meanYear (t : ℝ) : unreduced (t + meanYear) = unreduced t + 360 := by
  unfold unreduced
  rw [centre_add_meanYear, meanYear]
  norm_num
  ring

theorem equationOfTime_add_meanYear (t : ℝ) :
    equationOfTime (t + meanYear) = equationOfTime t - 0.00005 * meanYear := by
  have hturns : toRadians (2 * (unreduced t + 360)) =
      toRadians (2 * unreduced t) + (2 : ℤ) * (2 * π) := by
    rw [← toRadians_turns, ← toRadians_add]
    congr 1
    push_cast
    ring
  rw [equationOfTime_eq, equationOfTime_eq, unreduced_add_meanYear, hturns, reduction_add_turns,
    centre_add_meanYear]
  ring

theorem sinDeclination_trueLongitude (t : ℝ) :
    sinDeclination (trueLongitude t) = 0.39782 * Real.sin (toRadians (unreduced t)) := by
  have hturns : toRadians (trueLongitude t) =
      toRadians (unreduced t) + (-⌊unreduced t / 360⌋ : ℤ) * (2 * π) := by
    rw [trueLongitude_eq, ← toRadians_turns, ← toRadians_add]
    congr 1
    push_cast
    ring
  unfold sinDeclination
  rw [sin_eq, hturns, Real.sin_add_int_mul_two_pi]

/-- `u` comes after `t` in the year, by `gap` days or more but no more than two and a half. The
count of the days may start anew between them. -/
def Later (gap t u : ℝ) : Prop :=
  ∃ v, t + gap ≤ v ∧ v ≤ t + 2.5 ∧ (v = u ∨ v = u + meanYear)

theorem later_self (t : ℝ) : Later 0 t t :=
  ⟨t, by linarith, by linarith, .inl rfl⟩

theorem Later.exists_counted_on {gap t u : ℝ} (h : Later gap t u) :
    ∃ v, t + gap ≤ v ∧ v ≤ t + 2.5 ∧
      sinDeclination (trueLongitude u) = 0.39782 * Real.sin (toRadians (unreduced v)) ∧
      equationOfTime v ≤ equationOfTime u ∧ equationOfTime u ≤ equationOfTime v + 0.02 := by
  obtain ⟨v, hl, hu, rfl | rfl⟩ := h
  · exact ⟨v, hl, hu, sinDeclination_trueLongitude v, le_rfl, by linarith⟩
  · have hsin : Real.sin (toRadians (unreduced u + 360)) = Real.sin (toRadians (unreduced u)) := by
      have hturn := toRadians_turns 1
      push_cast at hturn
      rw [mul_one, one_mul] at hturn
      rw [toRadians_add, hturn, Real.sin_add_two_pi]
    have hyear : (0 : ℝ) ≤ 0.00005 * meanYear ∧ 0.00005 * meanYear ≤ 0.02 := by
      unfold meanYear
      norm_num
    refine ⟨u + meanYear, hl, hu, ?_, ?_, ?_⟩
    · rw [sinDeclination_trueLongitude, unreduced_add_meanYear, hsin]
    · rw [equationOfTime_add_meanYear]
      linarith
    · rw [equationOfTime_add_meanYear]
      linarith

theorem Later.abs_equationOfTime_sub_le {gap t u : ℝ} (h : Later gap t u) (hgap : 0 ≤ gap) :
    |equationOfTime u - equationOfTime t| ≤ 0.336 := by
  obtain ⟨v, hl, hu, _, hlow, hhigh⟩ := h.exists_counted_on
  have hdrift := abs_equationOfTime_drift_le (show t ≤ v by linarith)
  rw [abs_le] at hdrift ⊢
  constructor <;> linarith

theorem Later.abs_sinDeclination_sub_le {gap gap' t u w : ℝ} (h : Later gap t u)
    (h' : Later gap' t w) (hgap : 0 ≤ gap) (hgap' : 0 ≤ gap') :
    |sinDeclination (trueLongitude u) - sinDeclination (trueLongitude w)| ≤ 0.018 := by
  obtain ⟨v, hl, hu, hsin, _⟩ := h.exists_counted_on
  obtain ⟨v', hl', hu', hsin', _⟩ := h'.exists_counted_on
  obtain ⟨hm, hm'⟩ := unreduced_sub_bounds (show t ≤ v by linarith)
  obtain ⟨hn, hn'⟩ := unreduced_sub_bounds (show t ≤ v' by linarith)
  have hlongitude : |unreduced v - unreduced v'| ≤ 2.55 := by
    rw [abs_le]
    constructor <;> linarith
  have hangle : toRadians (unreduced v) - toRadians (unreduced v') =
      (π / 180) * (unreduced v - unreduced v') := by
    rw [toRadians_eq, toRadians_eq]
    ring
  have hgapSin : |Real.sin (toRadians (unreduced v)) - Real.sin (toRadians (unreduced v'))| ≤
      π / 180 * |unreduced v - unreduced v'| := by
    refine (Real.abs_sin_sub_sin_le _ _).trans_eq ?_
    rw [hangle, abs_mul (π / 180), abs_of_pos (by positivity)]
  rw [hsin, hsin', ← mul_sub, abs_mul, abs_of_pos (show (0 : ℝ) < 0.39782 by norm_num)]
  have hπ := Real.pi_lt_d4
  calc 0.39782 * |Real.sin (toRadians (unreduced v)) - Real.sin (toRadians (unreduced v'))|
      ≤ 0.39782 * (π / 180 * |unreduced v - unreduced v'|) := by gcongr
    _ ≤ 0.39782 * (3.1416 / 180 * 2.55) := by gcongr
    _ ≤ 0.018 := by norm_num

/-- Two longitudes a quarter of a degree or more from their middle have nearly the same sine only
around a solstice. -/
theorem cos_double_le_of_sin_near {a b c : ℝ} (hl : a + 0.47 ≤ b) (hu : b ≤ a + 2.55)
    (hsin : |Real.sin (toRadians b) - Real.sin (toRadians a)| ≤ 0.000064) (hac : a ≤ c)
    (hcb : c ≤ b) : Real.cos (toRadians (2 * c)) ≤ -0.9 := by
  have hπ := Real.pi_lt_d4
  have hhalf := le_sin_toRadians (show 0 ≤ (b - a) / 2 by linarith) (by linarith)
  have hproduct := Real.sin_sub_sin (toRadians b) (toRadians a)
  rw [← toRadians_sub, ← toRadians_add, show toRadians (b - a) / 2 = toRadians ((b - a) / 2) by
    simp only [toRadians_eq]; ring, show toRadians (b + a) / 2 = toRadians ((b + a) / 2) by
    simp only [toRadians_eq]; ring] at hproduct
  rw [hproduct, abs_mul, abs_of_nonneg (by linarith)] at hsin
  have hmiddle : |Real.cos (toRadians ((b + a) / 2))| ≤ 0.0125 := by
    nlinarith [abs_nonneg (Real.cos (toRadians ((b + a) / 2)))]
  have hnear : |Real.cos (toRadians c) - Real.cos (toRadians ((b + a) / 2))| ≤ 0.0225 := by
    have hdist : |c - (b + a) / 2| ≤ 1.275 := by
      rw [abs_le]
      constructor <;> linarith
    refine (Real.abs_cos_sub_cos_le _ _).trans ?_
    rw [← toRadians_sub, toRadians_eq, abs_mul, abs_of_pos (show 0 < π / 180 by positivity)]
    nlinarith [abs_nonneg (c - (b + a) / 2)]
  have hcos : |Real.cos (toRadians c)| ≤ 0.035 := by
    rw [abs_le] at hmiddle hnear ⊢
    constructor <;> linarith
  have hdouble : toRadians (2 * c) = 2 * toRadians c := by
    rw [toRadians_eq, toRadians_eq]
    ring
  rw [hdouble, Real.cos_two_mul]
  obtain ⟨hcl, hcu⟩ := abs_le.mp hcos
  nlinarith

theorem Later.equationOfTime_add_le {t u : ℝ} (h : Later 0.5 t u)
    (hdecl : |sinDeclination (trueLongitude u) - sinDeclination (trueLongitude t)| ≤ 0.000025) :
    equationOfTime t + 0.016 ≤ equationOfTime u := by
  obtain ⟨v, hl, hu, hsin, hlow, _⟩ := h.exists_counted_on
  obtain ⟨hm, hm'⟩ := unreduced_sub_bounds (show t ≤ v by linarith)
  rw [hsin, sinDeclination_trueLongitude, ← mul_sub, abs_mul,
    abs_of_pos (show (0 : ℝ) < 0.39782 by norm_num)] at hdecl
  have hgain := Sun.equationOfTime_add_le (show t < v by linarith) fun c hac hcb =>
    cos_double_le_of_sin_near (by linarith) (by linarith) (by linarith) hac.le hcb.le
  linarith

end GeoAlmanac.Sun
