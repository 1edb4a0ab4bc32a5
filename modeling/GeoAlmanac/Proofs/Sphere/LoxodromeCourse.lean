import GeoAlmanac.Proofs.Sphere.Loxodrome

/-! Azimuth and angle of one loxodrome, read over the reals. On the chart they are the polar form of
the differences; the scale turns these into the differences on the sphere. The way back has the same
angle and the opposite azimuth. -/

namespace GeoAlmanac.Sphere
open scoped Real

theorem abs_shorterEast_le {a b : Coordinate ℝ} (ha : |a.longitude| ≤ 180)
    (hb : |b.longitude| ≤ 180) : |shorterEast a b| ≤ π := by
  have hπ := Real.pi_pos
  obtain ⟨hal, hau⟩ := abs_le.mp ha
  obtain ⟨hbl, hbu⟩ := abs_le.mp hb
  have hturn : toRadians (360 : ℝ) = 2 * π := by simpa using toRadians_turns 1
  have hlow := toRadians_le (show -360 ≤ b.longitude - a.longitude by linarith)
  have hhigh := toRadians_le (show b.longitude - a.longitude ≤ 360 by linarith)
  rw [toRadians_neg, hturn] at hlow
  rw [hturn] at hhigh
  unfold shorterEast
  rw [abs_le, show (pi : ℝ) = π from rfl]
  norm_num only
  split_ifs <;> constructor <;> linarith

theorem shorterEast_swap (a b : Coordinate ℝ) : shorterEast b a = -shorterEast a b := by
  have hπ := Real.pi_pos
  unfold shorterEast
  rw [← neg_sub b.longitude, toRadians_neg, show (pi : ℝ) = π from rfl]
  dsimp only
  generalize toRadians (b.longitude - a.longitude) = east
  split_ifs <;> linarith

theorem stretchedNorth_of_same_latitude {a b : Coordinate ℝ} (h : a.latitude = b.latitude) :
    stretchedNorth a b = 0 := by
  unfold stretchedNorth
  rw [if_pos (beq_iff_eq.mpr h)]
  norm_num

theorem loxodromeScale_of_same_latitude {a b : Coordinate ℝ} (h : a.latitude = b.latitude) :
    loxodromeScale a b = Real.cos (toRadians a.latitude) := by
  apply loxodromeScale_of_parallel
  rw [stretchedNorth_of_same_latitude h]
  norm_num

/-- Two places off the poles whose latitudes are equal or told apart by the chart. -/
structure Charted (a b : Coordinate ℝ) : Prop where
  start_lt : |a.latitude| < 90
  finish_lt : |b.latitude| < 90
  told : a.latitude = b.latitude ∨ 1e-12 < |stretchedNorth a b|

namespace Charted
variable {a b : Coordinate ℝ} (h : Charted a b)
include h

theorem stretchedNorth_swap : stretchedNorth b a = -stretchedNorth a b := by
  rw [stretchedNorth_eq h.start_lt h.finish_lt, stretchedNorth_eq h.finish_lt h.start_lt, neg_sub]

theorem swap : Charted b a where
  start_lt := h.finish_lt
  finish_lt := h.start_lt
  told := by
    rw [h.stretchedNorth_swap, abs_neg]
    exact h.told.imp_left Eq.symm

/-- The scale is that of some parallel between the poles, and it turns the difference of the stretched
latitudes into that of the latitudes. -/
theorem exists_scale : ∃ φ, OnChart φ ∧ loxodromeScale a b = Real.cos φ ∧
    toRadians b.latitude - toRadians a.latitude = loxodromeScale a b * stretchedNorth a b := by
  rcases h.told with hsame | htold
  · refine ⟨toRadians a.latitude, onChart_latitude h.start_lt,
      loxodromeScale_of_same_latitude hsame, ?_⟩
    rw [stretchedNorth_of_same_latitude hsame, hsame]
    ring
  · obtain ⟨φ, hφ, hsub⟩ := exists_mercator_sub (onChart_latitude h.start_lt)
      (onChart_latitude h.finish_lt)
    have hne := stretchedNorth_ne_zero htold
    rw [← stretchedNorth_eq h.start_lt h.finish_lt, eq_div_iff hφ.cos_pos.ne'] at hsub
    have hscale := loxodromeScale_of_stretched htold
    rw [← hsub, mul_div_cancel_left₀ _ hne] at hscale
    refine ⟨φ, hφ, hscale, ?_⟩
    rw [hscale, ← hsub, mul_comm]

theorem scale_pos : 0 < loxodromeScale a b := by
  obtain ⟨φ, hφ, hscale, _⟩ := h.exists_scale
  rw [hscale]
  exact hφ.cos_pos

theorem north_eq : toRadians (b.latitude - a.latitude) =
    loxodromeScale a b * stretchedNorth a b := by
  obtain ⟨_, _, _, hnorth⟩ := h.exists_scale
  rw [toRadians_sub, hnorth]

theorem angle_eq : loxodromeAngle a b =
    loxodromeScale a b * √(stretchedNorth a b ^ 2 + shorterEast a b ^ 2) := by
  rw [loxodromeAngle_eq, ← toRadians_sub, h.north_eq, mul_pow, mul_pow, ← mul_add,
    Real.sqrt_mul (sq_nonneg _), Real.sqrt_sq h.scale_pos.le]

theorem scale_swap : loxodromeScale b a = loxodromeScale a b := by
  rcases h.told with hsame | htold
  · rw [loxodromeScale_of_same_latitude hsame, loxodromeScale_of_same_latitude hsame.symm, hsame]
  · have hne := stretchedNorth_ne_zero htold
    have hback := h.swap.north_eq
    rw [← neg_sub, toRadians_neg, h.north_eq, h.stretchedNorth_swap, mul_neg, neg_inj] at hback
    exact (mul_right_cancel₀ hne hback).symm

theorem angle_swap : loxodromeAngle b a = loxodromeAngle a b := by
  rw [h.angle_eq, h.swap.angle_eq, h.scale_swap, h.stretchedNorth_swap, shorterEast_swap a b, neg_sq,
    neg_sq]

theorem way_ne_zero (hne : a.unitVector ≠ b.unitVector) :
    shorterEast a b ≠ 0 ∨ stretchedNorth a b ≠ 0 := by
  by_contra! hzero
  obtain ⟨heast, hnorth⟩ := hzero
  have hsame : a.latitude = b.latitude := by
    apply h.told.resolve_right
    rw [hnorth]
    norm_num
  have hend := unitVector_shorterEast a b
  rw [heast, add_zero, toDegrees_toRadians, ← hsame] at hend
  exact hne hend

end Charted

theorem exists_loxodromeAzimuth_eq {a b : Coordinate ℝ} (hne : a.unitVector ≠ b.unitVector) :
    ∃ n : ℤ, loxodromeAzimuth a b =
      toDegrees (atan2 (shorterEast a b) (stretchedNorth a b)) + 360 * n := by
  have hazimuth : loxodromeAzimuth a b =
      azimuth (toDegrees (atan2 (shorterEast a b) (stretchedNorth a b))) := by
    unfold loxodromeAzimuth
    rw [Coordinate.same_eq_false hne]
    rfl
  rw [hazimuth, azimuth_eq]
  exact Angle.exists_wrap_eq _

theorem exists_loxodromeAzimuth_swap {a b : Coordinate ℝ} (h : Charted a b)
    (hne : a.unitVector ≠ b.unitVector) :
    ∃ n : ℤ, loxodromeAzimuth b a = loxodromeAzimuth a b + 180 + 360 * n := by
  obtain ⟨i, hforth⟩ := exists_loxodromeAzimuth_eq hne
  obtain ⟨j, hback⟩ := exists_loxodromeAzimuth_eq hne.symm
  obtain ⟨k, hopposite⟩ := exists_atan2_neg (h.way_ne_zero hne)
  rw [shorterEast_swap, h.stretchedNorth_swap, hopposite, toDegrees_add, toDegrees_add,
    toDegrees_turns, toDegrees_half] at hback
  refine ⟨j + k - i, ?_⟩
  rw [hback, hforth]
  push_cast
  ring

theorem loxodrome_polar {a b : Coordinate ℝ} (h : Charted a b)
    (hne : a.unitVector ≠ b.unitVector) :
    loxodromeAngle a b * Real.cos (toRadians (loxodromeAzimuth a b)) =
        toRadians (b.latitude - a.latitude) ∧
      loxodromeAngle a b * Real.sin (toRadians (loxodromeAzimuth a b)) =
        loxodromeScale a b * shorterEast a b := by
  obtain ⟨n, hn⟩ := exists_loxodromeAzimuth_eq hne
  obtain ⟨hnorth, heast⟩ := atan2_polar (shorterEast a b) (stretchedNorth a b)
  rw [hn, toRadians_add, toRadians_toDegrees, toRadians_turns, Real.cos_add_int_mul_two_pi,
    Real.sin_add_int_mul_two_pi, h.angle_eq, h.north_eq, mul_assoc, mul_assoc, hnorth, heast]
  exact ⟨rfl, rfl⟩

/-- Azimuth and angle of a loxodrome describe one line: they are the polar form of the difference of
latitude and of the scaled difference of longitude, by the shorter way round. Back, the angle is the
same and the azimuth the opposite one. -/
theorem loxodrome_course {a b : Coordinate ℝ} (hne : a.unitVector ≠ b.unitVector)
    (ha : |a.latitude| < 90) (hb : |b.latitude| < 90)
    (hla : |a.longitude| ≤ 180) (hlb : |b.longitude| ≤ 180)
    (htold : a.latitude = b.latitude ∨ 1e-12 < |stretchedNorth a b|) :
    (loxodromeAngle a b * Real.cos (toRadians (loxodromeAzimuth a b)) =
        toRadians (b.latitude - a.latitude) ∧
      loxodromeAngle a b * Real.sin (toRadians (loxodromeAzimuth a b)) =
        loxodromeScale a b * shorterEast a b) ∧
    (|shorterEast a b| ≤ π ∧
      ∃ n : ℤ, shorterEast a b = toRadians (b.longitude - a.longitude) + n * (2 * π)) ∧
    loxodromeAngle b a = loxodromeAngle a b ∧
    ∃ n : ℤ, loxodromeAzimuth b a = loxodromeAzimuth a b + 180 + 360 * n := by
  have h : Charted a b := ⟨ha, hb, htold⟩
  exact ⟨loxodrome_polar h hne, ⟨abs_shorterEast_le hla hlb, exists_shorterEast_eq a b⟩,
    h.angle_swap, exists_loxodromeAzimuth_swap h hne⟩

/-- Southward over the antimeridian and a quarter turn of latitude, and back. -/
theorem loxodrome_course_antimeridian :
    (⟨60, 170⟩ : Coordinate ℝ).unitVector ≠ (⟨-30, -170⟩ : Coordinate ℝ).unitVector ∧
      |(⟨60, 170⟩ : Coordinate ℝ).latitude| < 90 ∧ |(⟨-30, -170⟩ : Coordinate ℝ).latitude| < 90 ∧
      |(⟨60, 170⟩ : Coordinate ℝ).longitude| ≤ 180 ∧
      |(⟨-30, -170⟩ : Coordinate ℝ).longitude| ≤ 180 ∧
      1e-12 < |stretchedNorth (⟨60, 170⟩ : Coordinate ℝ) ⟨-30, -170⟩| ∧
      loxodromeAngle (⟨60, 170⟩ : Coordinate ℝ) ⟨-30, -170⟩ *
        Real.cos (toRadians (loxodromeAzimuth ⟨60, 170⟩ ⟨-30, -170⟩)) = -(π / 2) ∧
      loxodromeAngle (⟨-30, -170⟩ : Coordinate ℝ) ⟨60, 170⟩ =
        loxodromeAngle (⟨60, 170⟩ : Coordinate ℝ) ⟨-30, -170⟩ := by
  have hnorth : |(⟨60, 170⟩ : Coordinate ℝ).latitude| < 90 := by norm_num [abs_lt]
  have hsouth : |(⟨-30, -170⟩ : Coordinate ℝ).latitude| < 90 := by norm_num [abs_lt]
  have heast : |(⟨60, 170⟩ : Coordinate ℝ).longitude| ≤ 180 := by norm_num [abs_le]
  have hwest : |(⟨-30, -170⟩ : Coordinate ℝ).longitude| ≤ 180 := by norm_num [abs_le]
  have hne := Coordinate.unitVector_ne_of_latitude hnorth.le hsouth.le (by norm_num)
  have hquarter : toRadians (-30 - 60 : ℝ) = -(π / 2) := by
    rw [toRadians_eq]
    ring
  have htold : 1e-12 < |stretchedNorth (⟨60, 170⟩ : Coordinate ℝ) ⟨-30, -170⟩| := by
    have hle := abs_sub_le_mercator (onChart_latitude hnorth) (onChart_latitude hsouth)
    rw [← stretchedNorth_eq hnorth hsouth, ← toRadians_sub, hquarter, abs_neg,
      abs_of_pos Real.pi_div_two_pos] at hle
    have hsmall : (1e-12 : ℝ) < 1 := by norm_num
    linarith [Real.pi_gt_three]
  obtain ⟨⟨hcos, _⟩, _, hback, _⟩ :=
    loxodrome_course hne hnorth hsouth heast hwest (.inr htold)
  exact ⟨hne, hnorth, hsouth, heast, hwest, htold, hcos.trans hquarter, hback⟩

end GeoAlmanac.Sphere
