import GeoAlmanac.Proofs.Sphere.LocalView
import Mathlib.Analysis.Real.Pi.Bounds

/-! Great circles read over the reals: the central angle, the azimuth of departure and the place
reached, each told by the view from the start. -/

namespace GeoAlmanac.Sphere
open scoped Real

theorem abs_up_le_one (a b : Coordinate ℝ) : |(view a b).up| ≤ 1 := by
  rw [← sq_le_one_iff_abs_le_one]
  nlinarith [view_unit a b, sq_nonneg (view a b).east, sq_nonneg (view a b).north]

theorem haversine_eq (a b : Coordinate ℝ) :
    Real.sin ((toRadians b.latitude - toRadians a.latitude) * 0.5) *
        Real.sin ((toRadians b.latitude - toRadians a.latitude) * 0.5) +
      Real.cos (toRadians a.latitude) * Real.cos (toRadians b.latitude) *
        Real.sin (toRadians (b.longitude - a.longitude) * 0.5) *
        Real.sin (toRadians (b.longitude - a.longitude) * 0.5) = (1 - (view a b).up) / 2 := by
  have hhalf (x : ℝ) : Real.sin (x * 0.5) * Real.sin (x * 0.5) = (1 - Real.cos x) / 2 := by
    have h := Real.sin_sq_eq_half_sub (x * 0.5)
    rw [show 2 * (x * 0.5) = x by ring] at h
    linarith
  rw [mul_assoc (_ * _), hhalf, hhalf, Real.cos_sub]
  unfold view
  ring

/-- The central angle is the one whose cosine is the height of the view. -/
theorem centralAngle_eq (a b : Coordinate ℝ) :
    centralAngle a b = Real.arccos (view a b).up := by
  obtain ⟨hl, hu⟩ := abs_le.mp (abs_up_le_one a b)
  have hδ0 := Real.arccos_nonneg (view a b).up
  have hδπ := Real.arccos_le_pi (view a b).up
  have hup := Real.cos_arccos hl hu
  have hπ := Real.pi_pos
  generalize Real.arccos (view a b).up = δ at *
  have hsin : 0 ≤ Real.sin (δ / 2) := Real.sin_nonneg_of_nonneg_of_le_pi (by linarith) (by linarith)
  have hcos : 0 ≤ Real.cos (δ / 2) := Real.cos_nonneg_of_mem_Icc ⟨by linarith, by linarith⟩
  have hhaversine : (1 - (view a b).up) / 2 = Real.sin (δ / 2) ^ 2 := by
    rw [← hup, Real.sin_sq_eq_half_sub, mul_div_cancel₀ _ (two_ne_zero' ℝ)]
    ring
  have hclamp : clamp 0.0 1.0 ((1 - (view a b).up) / 2) = Real.sin (δ / 2) ^ 2 := by
    rw [clamp_eq_self (by norm_num; linarith) (by norm_num; linarith), hhaversine]
  unfold centralAngle
  simp only [sin_eq, cos_eq, sqrt_eq, haversine_eq, hclamp]
  rw [show (1.0 : ℝ) = 1 by norm_num, ← Real.cos_sq', Real.sqrt_sq hsin, Real.sqrt_sq hcos,
    atan2_sin_cos (by linarith) (by linarith)]
  norm_num

theorem azimuth_eq (degrees : ℝ) : azimuth degrees = Angle.wrap degrees := by
  have hturn := Angle.wrap_add_turns degrees 1
  unfold azimuth
  rw [← hturn]
  norm_num

theorem departureAzimuth_eq {a b : Coordinate ℝ} (h : a.same b = false) :
    departureAzimuth a b = Angle.wrap (toDegrees (atan2 (view a b).east (view a b).north)) := by
  unfold departureAzimuth
  rw [h, ← azimuth_eq]
  rfl

/-- The sine of the latitude of the place reached. -/
noncomputable def sinReached (start : Coordinate ℝ) (azimuth angle : ℝ) : ℝ :=
  Real.sin (toRadians start.latitude) * Real.cos angle +
    Real.cos (toRadians start.latitude) * Real.sin angle * Real.cos (toRadians azimuth)

/-- The component of the place reached along the meridian of the start, within the equator. -/
noncomputable def outwardReached (start : Coordinate ℝ) (azimuth angle : ℝ) : ℝ :=
  Real.cos (toRadians start.latitude) * Real.cos angle -
    Real.sin (toRadians start.latitude) * Real.sin angle * Real.cos (toRadians azimuth)

theorem reached_unit (start : Coordinate ℝ) (azimuth angle : ℝ) :
    outwardReached start azimuth angle ^ 2 + (Real.sin angle * Real.sin (toRadians azimuth)) ^ 2 =
      1 - sinReached start azimuth angle ^ 2 := by
  have hφ := Real.sin_sq_add_cos_sq (toRadians start.latitude)
  have hδ := Real.sin_sq_add_cos_sq angle
  have hθ := Real.sin_sq_add_cos_sq (toRadians azimuth)
  unfold outwardReached sinReached
  linear_combination (Real.cos angle ^ 2 + Real.sin angle ^ 2 * Real.cos (toRadians azimuth) ^ 2) *
    hφ + hδ + Real.sin angle ^ 2 * hθ

theorem abs_sinReached_le_one (start : Coordinate ℝ) (azimuth angle : ℝ) :
    |sinReached start azimuth angle| ≤ 1 := by
  rw [← sq_le_one_iff_abs_le_one]
  nlinarith [reached_unit start azimuth angle, sq_nonneg (outwardReached start azimuth angle),
    sq_nonneg (Real.sin angle * Real.sin (toRadians azimuth))]

theorem latitude_destination (start : Coordinate ℝ) (azimuth angle : ℝ) :
    toRadians (destination start azimuth angle).latitude =
      Real.arcsin (sinReached start azimuth angle) := by
  obtain ⟨hl, hu⟩ := abs_le.mp (abs_sinReached_le_one start azimuth angle)
  have hclamp : clamp (-1.0) 1.0 (sinReached start azimuth angle) =
      sinReached start azimuth angle :=
    clamp_eq_self (by norm_num; exact hl) (by norm_num; exact hu)
  unfold destination
  rw [toRadians_toDegrees]
  exact congrArg Real.arcsin hclamp

theorem exists_longitude_destination {start : Coordinate ℝ} (h : |start.latitude| < 90)
    (azimuth angle : ℝ) :
    ∃ n : ℤ, toRadians ((destination start azimuth angle).longitude - start.longitude) =
      atan2 (Real.sin angle * Real.sin (toRadians azimuth)) (outwardReached start azimuth angle) +
        n * (2 * π) := by
  have hφ := Real.sin_sq_add_cos_sq (toRadians start.latitude)
  have hy : Real.sin (toRadians azimuth) * Real.sin angle * Real.cos (toRadians start.latitude) =
      Real.cos (toRadians start.latitude) * (Real.sin angle * Real.sin (toRadians azimuth)) := by
    ring
  have hx : Real.cos angle - Real.sin (toRadians start.latitude) *
        sinReached start azimuth angle =
      Real.cos (toRadians start.latitude) * outwardReached start azimuth angle := by
    unfold sinReached outwardReached
    linear_combination -Real.cos angle * hφ
  rw [← atan2_mul_pos (cos_toRadians_pos h), ← hy, ← hx]
  obtain ⟨n, hn⟩ := Angle.exists_wrapSigned_eq (toDegrees (toRadians start.longitude +
    atan2 (Real.sin (toRadians azimuth) * Real.sin angle * Real.cos (toRadians start.latitude))
      (Real.cos angle - Real.sin (toRadians start.latitude) * sinReached start azimuth angle)))
  refine ⟨n, ?_⟩
  have hlongitude : (destination start azimuth angle).longitude = _ := hn
  rw [hlongitude, toRadians_sub, toRadians_add, toRadians_toDegrees, toRadians_turns]
  ring

theorem view_destination {start : Coordinate ℝ} (h : |start.latitude| < 90) (azimuth angle : ℝ) :
    view start (destination start azimuth angle) =
      { up := Real.cos angle
        east := Real.sin angle * Real.sin (toRadians azimuth)
        north := Real.sin angle * Real.cos (toRadians azimuth) } := by
  have hφ := Real.sin_sq_add_cos_sq (toRadians start.latitude)
  obtain ⟨hl, hu⟩ := abs_le.mp (abs_sinReached_le_one start azimuth angle)
  obtain ⟨n, hn⟩ := exists_longitude_destination h azimuth angle
  obtain ⟨hx, hy⟩ := atan2_polar (Real.sin angle * Real.sin (toRadians azimuth))
    (outwardReached start azimuth angle)
  rw [reached_unit] at hx hy
  unfold view
  simp only [latitude_destination, hn, Real.sin_add_int_mul_two_pi, Real.cos_add_int_mul_two_pi,
    Real.sin_arcsin hl hu, Real.cos_arcsin, LocalView.mk.injEq]
  refine ⟨?_, ?_, ?_⟩
  · rw [mul_assoc, hx]
    unfold sinReached outwardReached
    linear_combination Real.cos angle * hφ
  · rw [mul_comm, hy]
  · rw [mul_assoc, hx]
    unfold sinReached outwardReached
    linear_combination Real.sin angle * Real.cos (toRadians azimuth) * hφ

theorem up_of_same {a b : Coordinate ℝ} (h : a.same b = true) : (view a b).up = 1 := by
  obtain ⟨hlat, hlon⟩ := Coordinate.same_iff.mp h
  have hφ := Real.sin_sq_add_cos_sq (toRadians b.latitude)
  have hzero : toRadians (b.longitude - b.longitude) = 0 := by rw [sub_self, toRadians_eq, zero_mul]
  unfold view
  simp only [hlat, hlon, hzero, Real.cos_zero]
  linear_combination hφ

theorem wrap_atan2 {r : ℝ} (hr : 0 < r) (azimuth : ℝ) :
    Angle.wrap (toDegrees (atan2 (r * Real.sin (toRadians azimuth))
      (r * Real.cos (toRadians azimuth)))) = azimuth - 360 * ⌊azimuth / 360⌋ := by
  obtain ⟨n, hn⟩ := exists_atan2_eq hr (toRadians azimuth)
  rw [hn, toDegrees_add, toDegrees_toRadians, toDegrees_turns, Angle.wrap_add_turns, Angle.wrap_eq]

theorem view_eq_polar (a b : Coordinate ℝ) :
    view a b =
      { up := Real.cos (centralAngle a b)
        east := Real.sin (centralAngle a b) * Real.sin (toRadians (departureAzimuth a b))
        north := Real.sin (centralAngle a b) * Real.cos (toRadians (departureAzimuth a b)) } := by
  obtain ⟨hl, hu⟩ := abs_le.mp (abs_up_le_one a b)
  have hunit := view_unit a b
  have hlevel : 1 - (view a b).up ^ 2 = (view a b).north ^ 2 + (view a b).east ^ 2 := by linarith
  rw [centralAngle_eq, Real.cos_arccos hl hu, Real.sin_arccos, hlevel]
  by_cases hsame : a.same b = true
  · have hup := up_of_same hsame
    have heast : (view a b).east = 0 := by nlinarith [sq_nonneg (view a b).north]
    have hnorth : (view a b).north = 0 := by nlinarith [sq_nonneg (view a b).east]
    have hview : view a b = ⟨1, 0, 0⟩ := LocalView.ext hup heast hnorth
    simp [hview]
  · obtain ⟨hx, hy⟩ := atan2_polar (view a b).east (view a b).north
    rw [departureAzimuth_eq (Bool.eq_false_iff.mpr hsame), Angle.wrap_eq, toRadians_sub,
      toRadians_toDegrees, toRadians_turns, Real.sin_sub_int_mul_two_pi,
      Real.cos_sub_int_mul_two_pi, hx, hy]

/-- The direct and the inverse problem undo each other. Laying off an azimuth and an angle of less
than half a turn from a place that is no pole leads to where they are measured again, and laying
off the azimuth and the angle measured to any place leads there. -/
theorem direct_inverse {start : Coordinate ℝ} (h : |start.latitude| < 90) :
    (∀ azimuth angle : ℝ, 0 < angle → angle < π →
      centralAngle start (destination start azimuth angle) = angle ∧
      departureAzimuth start (destination start azimuth angle) =
        azimuth - 360 * ⌊azimuth / 360⌋) ∧
    ∀ finish : Coordinate ℝ,
      (destination start (departureAzimuth start finish) (centralAngle start finish)).unitVector =
        finish.unitVector := by
  constructor
  · intro azimuth angle hpos hlt
    have hview := view_destination h azimuth angle
    have hapart : start.same (destination start azimuth angle) = false := by
      rw [Bool.eq_false_iff]
      intro hsame
      have hup := up_of_same hsame
      rw [hview] at hup
      have hcos := Real.cos_lt_cos_of_nonneg_of_le_pi le_rfl hlt.le hpos
      rw [Real.cos_zero] at hcos
      exact hcos.ne hup
    constructor
    · rw [centralAngle_eq, hview, Real.arccos_cos hpos.le hlt.le]
    · rw [departureAzimuth_eq hapart, hview]
      exact wrap_atan2 (Real.sin_pos_of_pos_of_lt_pi hpos hlt) azimuth
  · intro finish
    apply unitVector_eq_of_view_eq
    rw [view_destination h, ← view_eq_polar]

/-- Over the antimeridian for more than a quarter turn, by an azimuth that has to be reduced, and on
to a pole. -/
theorem direct_inverse_over_antimeridian :
    |(⟨45, 170⟩ : Coordinate ℝ).latitude| < 90 ∧ (0 : ℝ) < 2 ∧ 2 < π ∧
      centralAngle ⟨45, 170⟩ (destination ⟨45, 170⟩ (-270) 2) = (2 : ℝ) ∧
      departureAzimuth ⟨45, 170⟩ (destination ⟨45, 170⟩ (-270) 2) = (90 : ℝ) ∧
      (destination ⟨45, 170⟩ (departureAzimuth ⟨45, 170⟩ ⟨-90, 20⟩)
        (centralAngle ⟨45, 170⟩ ⟨-90, 20⟩)).unitVector =
          (⟨-90, 20⟩ : Coordinate ℝ).unitVector := by
  have hlat : |(⟨45, 170⟩ : Coordinate ℝ).latitude| < 90 := by norm_num [abs_lt]
  have hπ : (2 : ℝ) < π := by linarith [Real.pi_gt_three]
  have hturn : ⌊(-270 : ℝ) / 360⌋ = -1 := by norm_num
  obtain ⟨hforth, hback⟩ := direct_inverse hlat
  obtain ⟨hangle, hazimuth⟩ := hforth (-270) 2 two_pos hπ
  rw [hturn] at hazimuth
  norm_num at hazimuth
  exact ⟨hlat, two_pos, hπ, hangle, hazimuth, hback ⟨-90, 20⟩⟩

end GeoAlmanac.Sphere
