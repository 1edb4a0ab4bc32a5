import GeoAlmanac.Proofs.Sphere.GreatCircle
import Mathlib.Analysis.InnerProductSpace.PiL2
import Mathlib.Geometry.Euclidean.Angle.Unoriented.TriangleInequality

/-! The central angle as a distance. Read over the reals the haversine formula gives the angle
between the unit vectors of two places, and angles between vectors are a metric on directions. -/

namespace GeoAlmanac
open scoped Real

namespace Vector3

/-- The vector in the Euclidean space of three dimensions. -/
noncomputable def toEuclidean (v : Vector3 ℝ) : EuclideanSpace ℝ (Fin 3) :=
  WithLp.toLp _ ![v.x, v.y, v.z]

theorem add_toEuclidean (v w : Vector3 ℝ) : v.toEuclidean + w.toEuclidean =
    (⟨v.x + w.x, v.y + w.y, v.z + w.z⟩ : Vector3 ℝ).toEuclidean := by
  ext i
  fin_cases i <;> simp [toEuclidean]

theorem smul_toEuclidean (r : ℝ) (v : Vector3 ℝ) :
    r • v.toEuclidean = (⟨r * v.x, r * v.y, r * v.z⟩ : Vector3 ℝ).toEuclidean := by
  ext i
  fin_cases i <;> simp [toEuclidean]

theorem inner_toEuclidean (v w : Vector3 ℝ) :
    inner ℝ v.toEuclidean w.toEuclidean = v.dot w := by
  simp [toEuclidean, dot, PiLp.inner_apply, Fin.sum_univ_three]
  ring

theorem norm_toEuclidean (v : Vector3 ℝ) : ‖v.toEuclidean‖ = v.norm := by
  rw [norm_eq_sqrt_real_inner, inner_toEuclidean]
  rfl

theorem toEuclidean_injective : Function.Injective toEuclidean := by
  intro v w h
  have hx := congrFun (congrArg WithLp.ofLp h) 0
  have hy := congrFun (congrArg WithLp.ofLp h) 1
  have hz := congrFun (congrArg WithLp.ofLp h) 2
  cases v
  cases w
  simp_all [toEuclidean]

end Vector3

namespace Coordinate

/-- The unit vector of a place in Euclidean space. -/
noncomputable def direction (a : Coordinate ℝ) : EuclideanSpace ℝ (Fin 3) :=
  a.unitVector.toEuclidean

theorem direction_eq_iff {a b : Coordinate ℝ} :
    a.direction = b.direction ↔ a.unitVector = b.unitVector :=
  Vector3.toEuclidean_injective.eq_iff

@[simp] theorem inner_direction (a b : Coordinate ℝ) :
    inner ℝ a.direction b.direction = a.unitVector.dot b.unitVector :=
  Vector3.inner_toEuclidean _ _

@[simp] theorem norm_direction (a : Coordinate ℝ) : ‖a.direction‖ = 1 := by
  have hφ := Real.sin_sq_add_cos_sq (toRadians a.latitude)
  have hl := Real.sin_sq_add_cos_sq (toRadians a.longitude)
  have hdot : a.unitVector.dot a.unitVector = 1 := by
    unfold unitVector Vector3.dot
    linear_combination hφ + Real.cos (toRadians a.latitude) ^ 2 * hl
  rw [norm_eq_sqrt_real_inner, inner_direction, hdot, Real.sqrt_one]

end Coordinate

namespace Sphere

theorem up_eq_dot (a b : Coordinate ℝ) : (view a b).up = a.unitVector.dot b.unitVector := by
  unfold view Coordinate.unitVector Vector3.dot
  dsimp only
  rw [toRadians_sub, Real.cos_sub]
  ring

theorem centralAngle_eq_arccos (a b : Coordinate ℝ) :
    centralAngle a b = Real.arccos (a.unitVector.dot b.unitVector) := by
  rw [centralAngle_eq, up_eq_dot]

theorem centralAngle_congr {a b c : Coordinate ℝ} (h : b.unitVector = c.unitVector) :
    centralAngle a b = centralAngle a c := by
  rw [centralAngle_eq_arccos, centralAngle_eq_arccos, h]

theorem centralAngle_eq_angle (a b : Coordinate ℝ) :
    centralAngle a b = InnerProductGeometry.angle a.direction b.direction := by
  simp [InnerProductGeometry.angle, centralAngle_eq_arccos]

theorem cos_centralAngle (a b : Coordinate ℝ) :
    Real.cos (centralAngle a b) = inner ℝ a.direction b.direction := by
  simp [centralAngle_eq_angle, InnerProductGeometry.cos_angle]

theorem centralAngle_comm (a b : Coordinate ℝ) : centralAngle a b = centralAngle b a := by
  simp only [centralAngle_eq_angle]
  apply InnerProductGeometry.angle_comm

theorem centralAngle_nonneg (a b : Coordinate ℝ) : 0 ≤ centralAngle a b := by
  rw [centralAngle_eq_angle]
  apply InnerProductGeometry.angle_nonneg

theorem centralAngle_le_pi (a b : Coordinate ℝ) : centralAngle a b ≤ π := by
  rw [centralAngle_eq_angle]
  apply InnerProductGeometry.angle_le_pi

theorem centralAngle_triangle (a b c : Coordinate ℝ) :
    centralAngle a c ≤ centralAngle a b + centralAngle b c := by
  simp only [centralAngle_eq_angle]
  apply InnerProductGeometry.angle_le_angle_add_angle

/-- Only coordinates of one point of the sphere are at no angle. -/
theorem centralAngle_eq_zero {a b : Coordinate ℝ} :
    centralAngle a b = 0 ↔ a.unitVector = b.unitVector := by
  have hone : inner ℝ a.direction b.direction = 1 ↔ a.direction = b.direction :=
    inner_eq_one_iff_of_norm_eq_one a.norm_direction b.norm_direction
  rw [← Coordinate.direction_eq_iff, ← hone, ← cos_centralAngle]
  constructor
  · intro h
    rw [h, Real.cos_zero]
  · intro h
    have hzero : Real.cos (centralAngle a b) = Real.cos 0 := by rw [h, Real.cos_zero]
    exact Real.injOn_cos ⟨centralAngle_nonneg a b, centralAngle_le_pi a b⟩
      ⟨le_rfl, Real.pi_pos.le⟩ hzero

/-- A distance on the points of the sphere that no two points exceed by more than half a turn. Places
with latitudes up to the poles are one point if their latitudes are equal and, away from a pole,
their longitudes differ by whole turns. -/
structure IsMetric (d : Coordinate ℝ → Coordinate ℝ → ℝ) : Prop where
  symm (a b : Coordinate ℝ) : d a b = d b a
  nonneg (a b : Coordinate ℝ) : 0 ≤ d a b
  le_pi (a b : Coordinate ℝ) : d a b ≤ π
  eq_zero (a b : Coordinate ℝ) : d a b = 0 ↔ a.unitVector = b.unitVector
  eq_zero_coordinates (a b : Coordinate ℝ) : |a.latitude| ≤ 90 → |b.latitude| ≤ 90 →
    (d a b = 0 ↔ a.latitude = b.latitude ∧
      (|a.latitude| < 90 → ∃ n : ℤ, b.longitude = a.longitude + 360 * n))
  triangle (a b c : Coordinate ℝ) : d a c ≤ d a b + d b c

/-- The central angle is the angle between the unit vectors, and so a metric on the sphere. -/
theorem centralAngle_isMetric :
    (∀ a b : Coordinate ℝ, centralAngle a b = Real.arccos (a.unitVector.dot b.unitVector)) ∧
      IsMetric centralAngle where
  left := centralAngle_eq_arccos
  right := {
    symm := centralAngle_comm
    nonneg := centralAngle_nonneg
    le_pi := centralAngle_le_pi
    eq_zero := fun _ _ => centralAngle_eq_zero
    eq_zero_coordinates := fun _ _ ha hb =>
      centralAngle_eq_zero.trans (Coordinate.unitVector_eq_iff ha hb)
    triangle := centralAngle_triangle }

/-- A pole by two longitudes and the antimeridian by both are no distance apart, and a place is at
some distance from the other end of its parallel. -/
theorem centralAngle_isMetric_pole :
    |(⟨90, 0⟩ : Coordinate ℝ).latitude| ≤ 90 ∧ |(⟨10, 180⟩ : Coordinate ℝ).latitude| ≤ 90 ∧
      centralAngle (⟨90, 0⟩ : Coordinate ℝ) ⟨90, 123⟩ = 0 ∧
      centralAngle (⟨10, 180⟩ : Coordinate ℝ) ⟨10, -180⟩ = 0 ∧
      centralAngle (⟨10, 180⟩ : Coordinate ℝ) ⟨10, 0⟩ ≠ 0 := by
  have hpole (l : ℝ) : |(⟨90, l⟩ : Coordinate ℝ).latitude| ≤ 90 := by norm_num
  have hten (l : ℝ) : |(⟨10, l⟩ : Coordinate ℝ).latitude| ≤ 90 := by norm_num [abs_le]
  obtain ⟨_, hmetric⟩ := centralAngle_isMetric
  refine ⟨hpole 0, hten 180, ?_, ?_, ?_⟩
  · rw [hmetric.eq_zero_coordinates _ _ (hpole 0) (hpole 123)]
    norm_num
  · rw [hmetric.eq_zero_coordinates _ _ (hten 180) (hten (-180))]
    exact ⟨rfl, fun _ => ⟨-1, by norm_num⟩⟩
  · intro hzero
    rw [hmetric.eq_zero_coordinates _ _ (hten 180) (hten 0)] at hzero
    obtain ⟨n, hn⟩ := hzero.2 (by norm_num [abs_lt])
    have hhalf : (2 * n : ℝ) = (-1 : ℤ) := by
      dsimp only at hn
      push_cast
      linarith
    have hhalf : 2 * n = -1 := by exact_mod_cast hhalf
    omega

end Sphere
end GeoAlmanac
