import GeoAlmanac.Proofs.Sphere.Metric

/-! Midpoints read over the reals. The unit vectors of two places are added in a frame turned by the
longitude of the first; turned back, the midpoint is the direction of their sum, in which neither
place is preferred. -/

namespace GeoAlmanac
open scoped Real

namespace Vector3

/-- A vector turned about the axis, eastward. -/
noncomputable def turned (angle : ℝ) (v : Vector3 ℝ) : Vector3 ℝ where
  x := Real.cos angle * v.x - Real.sin angle * v.y
  y := Real.sin angle * v.x + Real.cos angle * v.y
  z := v.z

theorem norm_turned (angle : ℝ) (v : Vector3 ℝ) : (v.turned angle).norm = v.norm := by
  have hθ := Real.sin_sq_add_cos_sq angle
  have hdot : (v.turned angle).dot (v.turned angle) = v.dot v := by
    unfold turned dot
    linear_combination (v.x ^ 2 + v.y ^ 2) * hθ
  unfold norm
  rw [hdot]

theorem norm_eq_hypot (v : Vector3 ℝ) : v.norm = √(hypot v.x v.y ^ 2 + v.z ^ 2) := by
  rw [hypot_eq, Real.sq_sqrt (by positivity)]
  unfold norm dot
  congr 1
  ring

/-- A vector is its length times the direction of the place that has its latitude and longitude. On
the axis any longitude will do. -/
theorem norm_smul_direction (v : Vector3 ℝ) (start : ℝ) :
    v.norm • (⟨toDegrees (atan2 v.z (hypot v.x v.y)),
      Angle.wrapSigned (toDegrees (start + atan2 v.y v.x))⟩ : Coordinate ℝ).direction =
        (v.turned start).toEuclidean := by
  obtain ⟨n, hn⟩ := Angle.exists_wrapSigned_eq (toDegrees (start + atan2 v.y v.x))
  have hlongitude : toRadians (Angle.wrapSigned (toDegrees (start + atan2 v.y v.x))) =
      start + atan2 v.y v.x + n * (2 * π) := by
    rw [hn, toRadians_add, toRadians_toDegrees, toRadians_turns]
  obtain ⟨hx, hy⟩ := atan2_polar v.y v.x
  obtain ⟨hlevel, hz⟩ := atan2_polar v.z (hypot v.x v.y)
  rw [← norm_eq_hypot] at hlevel hz
  change hypot v.x v.y * _ = _ at hx
  change hypot v.x v.y * _ = _ at hy
  unfold Coordinate.direction Coordinate.unitVector turned
  rw [smul_toEuclidean]
  simp only [hlongitude, toRadians_toDegrees, Real.cos_add_int_mul_two_pi,
    Real.sin_add_int_mul_two_pi]
  rw [Real.cos_add, Real.sin_add]
  congr 2
  · linear_combination (Real.cos start * Real.cos (atan2 v.y v.x) -
      Real.sin start * Real.sin (atan2 v.y v.x)) * hlevel + Real.cos start * hx -
      Real.sin start * hy
  · linear_combination (Real.sin start * Real.cos (atan2 v.y v.x) +
      Real.cos start * Real.sin (atan2 v.y v.x)) * hlevel + Real.sin start * hx +
      Real.cos start * hy

end Vector3

namespace Sphere

theorem turned_chordSum (a b : Coordinate ℝ) :
    ((chordSum a b).turned (toRadians a.longitude)).toEuclidean = a.direction + b.direction := by
  have hl := Real.sin_sq_add_cos_sq (toRadians a.longitude)
  have hsum : toRadians b.longitude =
      toRadians a.longitude + toRadians (b.longitude - a.longitude) := by
    rw [toRadians_sub, add_sub_cancel]
  unfold Coordinate.direction Coordinate.unitVector
  rw [Vector3.add_toEuclidean]
  congr 1
  unfold Vector3.turned chordSum
  simp only [sin_eq, cos_eq, hsum, Real.cos_add, Real.sin_add, Vector3.mk.injEq]
  refine ⟨by ring, by ring, trivial⟩

theorem norm_chordSum (a b : Coordinate ℝ) :
    (chordSum a b).norm = ‖a.direction + b.direction‖ := by
  rw [← turned_chordSum, Vector3.norm_toEuclidean, Vector3.norm_turned]

/-- Only where the sum of the directions is too short is there no midpoint. -/
theorem midpoint?_eq_none (a b : Coordinate ℝ) :
    midpoint? a b = none ↔ ‖a.direction + b.direction‖ < 1e-12 := by
  rw [← norm_chordSum]
  unfold midpoint?
  dsimp only
  split_ifs with hshort <;> simp [hshort]

theorem direction_midpoint {a b m : Coordinate ℝ} (h : midpoint? a b = some m) :
    ‖a.direction + b.direction‖ • m.direction = a.direction + b.direction := by
  unfold midpoint? at h
  dsimp only at h
  split_ifs at h
  rw [← norm_chordSum, ← Option.some.inj h, Vector3.norm_smul_direction, turned_chordSum]

theorem sum_pos_of_midpoint {a b m : Coordinate ℝ} (h : midpoint? a b = some m) :
    0 < ‖a.direction + b.direction‖ := by
  have hlong : ¬ ‖a.direction + b.direction‖ < 1e-12 := by
    rw [← midpoint?_eq_none, h]
    exact Option.some_ne_none m
  have hpos : (0 : ℝ) < 1e-12 := by norm_num
  linarith

theorem norm_direction_add (a b : Coordinate ℝ) :
    ‖a.direction + b.direction‖ = 2 * Real.cos (centralAngle a b / 2) := by
  have hhalf : 0 ≤ Real.cos (centralAngle a b / 2) :=
    Real.cos_nonneg_of_mem_Icc ⟨by linarith [centralAngle_nonneg a b, Real.pi_pos],
      by linarith [centralAngle_le_pi a b]⟩
  have hdouble := Real.cos_sq (centralAngle a b / 2)
  rw [mul_div_cancel₀ _ two_ne_zero, cos_centralAngle] at hdouble
  have hsquare : ‖a.direction + b.direction‖ ^ 2 = (2 * Real.cos (centralAngle a b / 2)) ^ 2 := by
    rw [norm_add_sq_real, a.norm_direction, b.norm_direction]
    linarith
  exact (pow_left_inj₀ (norm_nonneg _) (by positivity) two_ne_zero).mp hsquare

theorem centralAngle_midpoint {a b m : Coordinate ℝ} (h : midpoint? a b = some m) :
    centralAngle a m = centralAngle a b / 2 := by
  have hpos := sum_pos_of_midpoint h
  have hsum := congrArg (fun v => inner ℝ a.direction v) (direction_midpoint h)
  have hsquare := norm_add_sq_real a.direction b.direction
  simp only [inner_smul_right, inner_add_right, real_inner_self_eq_norm_sq, a.norm_direction,
    b.norm_direction] at hsum hsquare
  have hcos : Real.cos (centralAngle a m) = Real.cos (centralAngle a b / 2) := by
    rw [cos_centralAngle]
    apply mul_left_cancel₀ hpos.ne'
    rw [hsum]
    rw [norm_direction_add] at hsquare ⊢
    linarith
  exact Real.injOn_cos ⟨centralAngle_nonneg a m, centralAngle_le_pi a m⟩
    ⟨by linarith [centralAngle_nonneg a b],
      by linarith [centralAngle_nonneg a b, centralAngle_le_pi a b]⟩ hcos

theorem midpoint?_comm {a b m : Coordinate ℝ} (h : midpoint? a b = some m) :
    ∃ m', midpoint? b a = some m' ∧ m'.unitVector = m.unitVector := by
  cases h' : midpoint? b a with
  | none =>
    rw [midpoint?_eq_none, add_comm, ← midpoint?_eq_none, h] at h'
    cases h'
  | some m' =>
    refine ⟨m', rfl, Coordinate.direction_eq_iff.mp ?_⟩
    have hsame := (direction_midpoint h').trans
      ((add_comm _ _).trans (direction_midpoint h).symm)
    rw [add_comm b.direction] at hsame
    exact smul_right_injective _ (sum_pos_of_midpoint h).ne' hsame

/-- The place diametrically opposite. -/
noncomputable def opposite (a : Coordinate ℝ) : Coordinate ℝ :=
  ⟨-a.latitude, a.longitude + 180⟩

theorem direction_opposite (a : Coordinate ℝ) : (opposite a).direction = -a.direction := by
  unfold opposite Coordinate.direction Coordinate.unitVector Vector3.toEuclidean
  ext i
  fin_cases i <;>
    simp [toRadians_neg, toRadians_add, toRadians_half, Real.cos_add_pi, Real.sin_add_pi]

/-- Midpoints in full. There is none exactly where the sum of the directions is too short to give
one, so never between opposite points. Any other lies halfway, and it is the same point for the
places in the other order. -/
theorem midpoint_halfway (a b : Coordinate ℝ) :
    (midpoint? a b = none ↔ ‖a.direction + b.direction‖ < 1e-12) ∧
      (b.unitVector = (opposite a).unitVector → midpoint? a b = none) ∧
      ∀ m, midpoint? a b = some m →
        (centralAngle a m = centralAngle a b / 2 ∧ centralAngle m b = centralAngle a b / 2) ∧
          ∃ m', midpoint? b a = some m' ∧ m'.unitVector = m.unitVector := by
  refine ⟨midpoint?_eq_none a b, ?_, ?_⟩
  · intro hopposite
    have hdirection := (Coordinate.direction_eq_iff.mpr hopposite).trans (direction_opposite a)
    rw [midpoint?_eq_none, hdirection, add_neg_cancel, norm_zero]
    norm_num
  · intro m h
    obtain ⟨m', h', hsame⟩ := midpoint?_comm h
    refine ⟨⟨centralAngle_midpoint h, ?_⟩, m', h', hsame⟩
    calc centralAngle m b = centralAngle b m' := (centralAngle_comm m b).trans
          (centralAngle_congr hsame.symm)
      _ = centralAngle b a / 2 := centralAngle_midpoint h'
      _ = centralAngle a b / 2 := by rw [centralAngle_comm]

theorem midpoint?_antimeridian :
    midpoint? (⟨0, 135⟩ : Coordinate ℝ) ⟨0, -135⟩ = some ⟨0, 180⟩ := by
  have heast : toRadians (-135 - 135 : ℝ) = π / 2 - (1 : ℤ) * (2 * π) := by
    rw [toRadians_eq]
    push_cast
    ring
  have hsum : chordSum (⟨0, 135⟩ : Coordinate ℝ) ⟨0, -135⟩ = ⟨1, 1, 0⟩ := by
    unfold chordSum
    simp only [sin_eq, cos_eq, heast, Real.cos_sub_int_mul_two_pi, Real.sin_sub_int_mul_two_pi]
    simp [toRadians_zero]
  have hnorm : ¬ (⟨1, 1, 0⟩ : Vector3 ℝ).norm < 1e-12 := by
    have hone : (1 : ℝ) ≤ (⟨1, 1, 0⟩ : Vector3 ℝ).norm := by
      rw [Vector3.norm_eq_hypot]
      apply Real.one_le_sqrt.mpr
      change (1 : ℝ) ≤ √(1 ^ 2 + 1 ^ 2) ^ 2 + 0 ^ 2
      rw [Real.sq_sqrt (by norm_num)]
      norm_num
    rw [not_lt]
    exact le_trans (by norm_num) hone
  have hlatitude : atan2 (0 : ℝ) (hypot 1 1) = 0 := by
    have hpos : (0 : ℝ) < hypot 1 1 := Real.sqrt_pos.mpr (by norm_num)
    have hscaled := atan2_mul_pos hpos 0 1
    rw [mul_zero, mul_one] at hscaled
    have hzero : atan2 (Real.sin 0) (Real.cos 0) = 0 :=
      atan2_sin_cos (by linarith [Real.pi_pos]) Real.pi_pos.le
    rw [Real.sin_zero, Real.cos_zero] at hzero
    rw [hscaled, hzero]
  have hlongitude : atan2 (1 : ℝ) 1 = π / 4 := by
    have hscaled := atan2_mul_pos (c := √2 / 2) (by positivity) 1 1
    have heighth : atan2 (Real.sin (π / 4)) (Real.cos (π / 4)) = π / 4 :=
      atan2_sin_cos (by linarith [Real.pi_pos]) (by linarith [Real.pi_pos])
    rw [Real.sin_pi_div_four, Real.cos_pi_div_four] at heighth
    rw [← hscaled, mul_one, heighth]
  have hturn : toDegrees (toRadians (135 : ℝ) + π / 4) = 180 := by
    rw [toDegrees_add, toDegrees_toRadians, toDegrees_eq]
    field_simp
    norm_num
  unfold midpoint?
  dsimp only
  rw [hsum, if_neg hnorm, hlatitude, hlongitude, hturn]
  have hwhole : ⌊(180 + 180.0 : ℝ) / 360⌋ = 1 := by norm_num
  unfold Angle.wrapSigned
  rw [Angle.wrap_eq, hwhole]
  norm_num [toDegrees_eq]

/-- A quarter of the equator over the antimeridian is halved on it, in either order. -/
theorem midpoint_halfway_antimeridian :
    midpoint? (⟨0, 135⟩ : Coordinate ℝ) ⟨0, -135⟩ = some ⟨0, 180⟩ ∧
      centralAngle (⟨0, 135⟩ : Coordinate ℝ) ⟨0, 180⟩ =
        centralAngle (⟨0, 135⟩ : Coordinate ℝ) ⟨0, -135⟩ / 2 ∧
      (∃ m, midpoint? (⟨0, -135⟩ : Coordinate ℝ) ⟨0, 135⟩ = some m ∧
        m.unitVector = (⟨0, 180⟩ : Coordinate ℝ).unitVector) ∧
      midpoint? (⟨0, 135⟩ : Coordinate ℝ) (opposite ⟨0, 135⟩) = none := by
  obtain ⟨_, _, hhalf⟩ := midpoint_halfway ⟨0, 135⟩ ⟨0, -135⟩
  obtain ⟨⟨hangle, _⟩, hback⟩ := hhalf _ midpoint?_antimeridian
  obtain ⟨_, hopposite, _⟩ := midpoint_halfway ⟨0, 135⟩ (opposite ⟨0, 135⟩)
  exact ⟨midpoint?_antimeridian, hangle, hback, hopposite rfl⟩

end Sphere
end GeoAlmanac
