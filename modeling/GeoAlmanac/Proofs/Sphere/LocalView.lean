import GeoAlmanac.Proofs.Reals.Numbers
import GeoAlmanac.Sphere

/-! Places as unit vectors, and the view of one place from another. Central angle, azimuth and
destination all speak about that view: its height is the cosine of the central angle, its two
horizontal components are the polar form of the azimuth. -/

namespace GeoAlmanac
open scoped Real

namespace Coordinate

/-- The unit vector from the centre of the sphere to a place. -/
noncomputable def unitVector (a : Coordinate ℝ) : Vector3 ℝ where
  x := Real.cos (toRadians a.latitude) * Real.cos (toRadians a.longitude)
  y := Real.cos (toRadians a.latitude) * Real.sin (toRadians a.longitude)
  z := Real.sin (toRadians a.latitude)

theorem cos_latitude_pole {a : Coordinate ℝ} (h : |a.latitude| = 90) :
    Real.cos (toRadians a.latitude) = 0 := by
  rcases eq_or_eq_neg_of_abs_eq h with hpole | hpole
  · rw [hpole, toRadians_right, Real.cos_pi_div_two]
  · rw [hpole, toRadians_neg, toRadians_right, Real.cos_neg, Real.cos_pi_div_two]

theorem same_iff {a b : Coordinate ℝ} :
    a.same b = true ↔ a.latitude = b.latitude ∧ a.longitude = b.longitude := by
  simp [same]

theorem same_eq_false {a b : Coordinate ℝ} (h : a.unitVector ≠ b.unitVector) :
    a.same b = false := by
  rw [Bool.eq_false_iff]
  intro hsame
  obtain ⟨hlat, hlon⟩ := same_iff.mp hsame
  apply h
  unfold unitVector
  rw [hlat, hlon]

theorem latitude_mem {a : Coordinate ℝ} (h : |a.latitude| ≤ 90) :
    toRadians a.latitude ∈ Set.Icc (-(π / 2)) (π / 2) := by
  obtain ⟨hl, hu⟩ := abs_le.mp h
  rw [← toRadians_right, ← toRadians_neg]
  exact ⟨toRadians_le hl, toRadians_le hu⟩

theorem cos_sin_eq_iff (x y : ℝ) :
    Real.cos (toRadians x) = Real.cos (toRadians y) ∧
      Real.sin (toRadians x) = Real.sin (toRadians y) ↔ ∃ n : ℤ, y = x + 360 * n := by
  constructor
  · rintro ⟨hcos, hsin⟩
    obtain ⟨n, hn⟩ := Real.Angle.angle_eq_iff_two_pi_dvd_sub.mp
      (Real.Angle.cos_sin_inj hcos hsin)
    refine ⟨-n, ?_⟩
    have hdegrees := congrArg toDegrees (show toRadians x = toRadians y + n * (2 * π) by linarith)
    rw [toDegrees_toRadians, toDegrees_add, toDegrees_toRadians, toDegrees_turns] at hdegrees
    push_cast
    linarith
  · rintro ⟨n, rfl⟩
    rw [toRadians_add, toRadians_turns, Real.cos_add_int_mul_two_pi, Real.sin_add_int_mul_two_pi]
    exact ⟨rfl, rfl⟩

/-- Places with latitudes up to the poles have one unit vector exactly if their latitudes are equal
and, away from a pole, their longitudes differ by whole turns. -/
theorem unitVector_eq_iff {a b : Coordinate ℝ} (ha : |a.latitude| ≤ 90) (hb : |b.latitude| ≤ 90) :
    a.unitVector = b.unitVector ↔ a.latitude = b.latitude ∧
      (|a.latitude| < 90 → ∃ n : ℤ, b.longitude = a.longitude + 360 * n) := by
  unfold unitVector
  rw [Vector3.mk.injEq]
  constructor
  · rintro ⟨hx, hy, hz⟩
    have hφ := Real.injOn_sin (latitude_mem ha) (latitude_mem hb) hz
    have hlat := congrArg toDegrees hφ
    rw [toDegrees_toRadians, toDegrees_toRadians] at hlat
    refine ⟨hlat, fun h => (cos_sin_eq_iff _ _).mp ?_⟩
    rw [← hφ] at hx hy
    have hne := (cos_toRadians_pos h).ne'
    exact ⟨mul_left_cancel₀ hne hx, mul_left_cancel₀ hne hy⟩
  · rintro ⟨hlat, hlon⟩
    rw [← hlat]
    rcases ha.lt_or_eq with h | hpole
    · obtain ⟨hcos, hsin⟩ := (cos_sin_eq_iff _ _).mpr (hlon h)
      rw [hcos, hsin]
      exact ⟨rfl, rfl, rfl⟩
    · have hzero := cos_latitude_pole hpole
      simp only [hzero, zero_mul, and_self]

theorem unitVector_ne_of_latitude {a b : Coordinate ℝ} (ha : |a.latitude| ≤ 90)
    (hb : |b.latitude| ≤ 90) (h : a.latitude ≠ b.latitude) : a.unitVector ≠ b.unitVector := by
  intro heq
  exact h ((unitVector_eq_iff ha hb).mp heq).1

end Coordinate

namespace Sphere

/-- The unit vector of a place in the frame of an observer elsewhere: upward, east and north. -/
@[ext] structure LocalView where
  up : ℝ
  east : ℝ
  north : ℝ

/-- How `b` is seen from `a`. -/
noncomputable def view (a b : Coordinate ℝ) : LocalView :=
  let φ₁ := toRadians a.latitude
  let φ₂ := toRadians b.latitude
  let east := toRadians (b.longitude - a.longitude)
  { up := Real.sin φ₁ * Real.sin φ₂ + Real.cos φ₁ * Real.cos φ₂ * Real.cos east
    east := Real.sin east * Real.cos φ₂
    north := Real.cos φ₁ * Real.sin φ₂ - Real.sin φ₁ * Real.cos φ₂ * Real.cos east }

/-- The unit vector that a view from `a` shows. -/
noncomputable def LocalView.unitVector (a : Coordinate ℝ) (v : LocalView) : Vector3 ℝ :=
  let φ := toRadians a.latitude
  let east := toRadians a.longitude
  let outward := Real.cos φ * v.up - Real.sin φ * v.north
  { x := Real.cos east * outward - Real.sin east * v.east
    y := Real.sin east * outward + Real.cos east * v.east
    z := Real.sin φ * v.up + Real.cos φ * v.north }

theorem unitVector_view (a b : Coordinate ℝ) : (view a b).unitVector a = b.unitVector := by
  have hφ := Real.sin_sq_add_cos_sq (toRadians a.latitude)
  have hsum : toRadians b.longitude =
      toRadians a.longitude + toRadians (b.longitude - a.longitude) := by
    rw [toRadians_sub, add_sub_cancel]
  unfold LocalView.unitVector view Coordinate.unitVector
  simp only [Vector3.mk.injEq]
  rw [hsum, Real.cos_add, Real.sin_add]
  refine ⟨?_, ?_, ?_⟩
  · linear_combination (Real.cos (toRadians b.latitude) * Real.cos (toRadians a.longitude) *
      Real.cos (toRadians (b.longitude - a.longitude))) * hφ
  · linear_combination (Real.cos (toRadians b.latitude) * Real.sin (toRadians a.longitude) *
      Real.cos (toRadians (b.longitude - a.longitude))) * hφ
  · linear_combination Real.sin (toRadians b.latitude) * hφ

theorem unitVector_eq_of_view_eq {a b c : Coordinate ℝ} (h : view a b = view a c) :
    b.unitVector = c.unitVector := by
  rw [← unitVector_view a b, ← unitVector_view a c, h]

theorem view_unit (a b : Coordinate ℝ) :
    (view a b).up ^ 2 + (view a b).east ^ 2 + (view a b).north ^ 2 = 1 := by
  have h₁ := Real.sin_sq_add_cos_sq (toRadians a.latitude)
  have h₂ := Real.sin_sq_add_cos_sq (toRadians b.latitude)
  have h₃ := Real.sin_sq_add_cos_sq (toRadians (b.longitude - a.longitude))
  unfold view
  dsimp only
  generalize Real.sin (toRadians a.latitude) = s₁ at *
  generalize Real.cos (toRadians a.latitude) = c₁ at *
  generalize Real.sin (toRadians b.latitude) = s₂ at *
  generalize Real.cos (toRadians b.latitude) = c₂ at *
  generalize Real.sin (toRadians (b.longitude - a.longitude)) = s₃ at *
  generalize Real.cos (toRadians (b.longitude - a.longitude)) = c₃ at *
  linear_combination (s₂ ^ 2 + c₂ ^ 2 * c₃ ^ 2) * h₁ + h₂ + c₂ ^ 2 * h₃

end Sphere
end GeoAlmanac
