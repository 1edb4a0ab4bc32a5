import Mathlib.Analysis.Real.Pi.Bounds
import Mathlib.Analysis.SpecialFunctions.Complex.Arg
import Mathlib.Analysis.SpecialFunctions.Trigonometric.Arctan
import Mathlib.Analysis.SpecialFunctions.Trigonometric.Bounds
import Mathlib.Analysis.SpecialFunctions.Log.Basic
import GeoAlmanac.Angle

/-! The formulas read over the real numbers. Every function is the exact one, and a quotient by
zero, the tangent of a right angle among them, is zero. -/

namespace GeoAlmanac
open scoped Real

/-- Exact arithmetic. The remainder belongs to the quotient truncated toward zero. -/
noncomputable instance : Arithmetic ℝ where
  decidableLT := inferInstance
  decidableLE := inferInstance
  ofInt n := n
  abs x := |x|
  floor x := ⌊x⌋
  trunc x := if 0 ≤ x then ⌊x⌋ else ⌈x⌉
  remainder x y := x - y * (if 0 ≤ x / y then ⌊x / y⌋ else ⌈x / y⌉ : ℤ)
  isNegative x := decide (x < 0)
  toUInt32 x := .ofNat (min ⌊x⌋₊ (2 ^ 32 - 1))

noncomputable instance : Geometric ℝ where
  sqrt := Real.sqrt
  pi := π

noncomputable instance : Elementary ℝ where
  sin := Real.sin
  cos := Real.cos
  tan := Real.tan
  asin := Real.arcsin
  acos := Real.arccos
  atan := Real.arctan
  atan2 y x := Complex.arg ⟨x, y⟩
  hypot x y := √(x ^ 2 + y ^ 2)
  log := Real.log

@[simp] theorem sin_eq (x : ℝ) : sin x = Real.sin x := rfl
@[simp] theorem cos_eq (x : ℝ) : cos x = Real.cos x := rfl
@[simp] theorem tan_eq (x : ℝ) : tan x = Real.tan x := rfl
@[simp] theorem asin_eq (x : ℝ) : asin x = Real.arcsin x := rfl
@[simp] theorem acos_eq (x : ℝ) : acos x = Real.arccos x := rfl
@[simp] theorem atan_eq (x : ℝ) : atan x = Real.arctan x := rfl
@[simp] theorem sqrt_eq (x : ℝ) : sqrt x = √x := rfl
@[simp] theorem floor_eq (x : ℝ) : floor x = ⌊x⌋ := rfl

theorem hypot_eq (x y : ℝ) : hypot x y = √(x ^ 2 + y ^ 2) := rfl

theorem toRadians_eq (x : ℝ) : toRadians x = x * (π / 180) := by
  norm_num [toRadians, pi]

theorem toDegrees_eq (x : ℝ) : toDegrees x = x * (180 / π) := by
  norm_num [toDegrees, pi]

@[simp] theorem toDegrees_toRadians (x : ℝ) : toDegrees (toRadians x) = x := by
  rw [toDegrees_eq, toRadians_eq]
  field_simp

@[simp] theorem toRadians_toDegrees (x : ℝ) : toRadians (toDegrees x) = x := by
  rw [toDegrees_eq, toRadians_eq]
  field_simp

theorem toRadians_add (x y : ℝ) : toRadians (x + y) = toRadians x + toRadians y := by
  simp only [toRadians_eq]
  ring

theorem toRadians_sub (x y : ℝ) : toRadians (x - y) = toRadians x - toRadians y := by
  simp only [toRadians_eq]
  ring

theorem toRadians_neg (x : ℝ) : toRadians (-x) = -toRadians x := by
  simp only [toRadians_eq]
  ring

theorem toRadians_zero : toRadians (0 : ℝ) = 0 := by
  rw [toRadians_eq, zero_mul]

theorem toRadians_right : toRadians (90 : ℝ) = π / 2 := by
  rw [toRadians_eq]
  ring

theorem toRadians_half : toRadians (180 : ℝ) = π := by
  rw [toRadians_eq]
  ring

theorem toRadians_lt {x y : ℝ} (h : x < y) : toRadians x < toRadians y := by
  rw [toRadians_eq, toRadians_eq]
  exact mul_lt_mul_of_pos_right h (by positivity)

theorem toRadians_le {x y : ℝ} (h : x ≤ y) : toRadians x ≤ toRadians y := by
  rw [toRadians_eq, toRadians_eq]
  exact mul_le_mul_of_nonneg_right h (by positivity)

theorem toRadians_nonneg {degrees : ℝ} (h : 0 ≤ degrees) : 0 ≤ toRadians degrees :=
  toRadians_zero ▸ toRadians_le h

theorem toRadians_le_right {degrees : ℝ} (h : degrees ≤ 90) : toRadians degrees ≤ π / 2 :=
  toRadians_right ▸ toRadians_le h

theorem toRadians_le_half {degrees : ℝ} (h : degrees ≤ 180) : toRadians degrees ≤ π :=
  toRadians_half ▸ toRadians_le h

theorem toDegrees_half : toDegrees π = 180 := by
  rw [← toRadians_half, toDegrees_toRadians]

theorem toDegrees_le {x y : ℝ} (h : x ≤ y) : toDegrees x ≤ toDegrees y := by
  rw [toDegrees_eq, toDegrees_eq]
  exact mul_le_mul_of_nonneg_right h (by positivity)

theorem toDegrees_lt {x y : ℝ} (h : x < y) : toDegrees x < toDegrees y := by
  rw [toDegrees_eq, toDegrees_eq]
  exact mul_lt_mul_of_pos_right h (by positivity)

theorem toDegrees_add (x y : ℝ) : toDegrees (x + y) = toDegrees x + toDegrees y := by
  simp only [toDegrees_eq]
  ring

/-- Whole turns are the same number in both units. -/
theorem toRadians_turns (n : ℤ) : toRadians (360 * n : ℝ) = n * (2 * π) := by
  rw [toRadians_eq]
  ring

theorem toDegrees_turns (n : ℤ) : toDegrees (n * (2 * π) : ℝ) = 360 * n := by
  rw [← toRadians_turns, toDegrees_toRadians]

/-- Less than a right angle to either side, in both units. -/
theorem toRadians_mem_Ioo {degrees : ℝ} (h : |degrees| < 90) :
    toRadians degrees ∈ Set.Ioo (-(π / 2)) (π / 2) := by
  obtain ⟨hl, hu⟩ := abs_lt.mp h
  rw [← toRadians_right, ← toRadians_neg]
  exact ⟨toRadians_lt hl, toRadians_lt hu⟩

theorem cos_toRadians_pos {degrees : ℝ} (h : |degrees| < 90) :
    0 < Real.cos (toRadians degrees) :=
  Real.cos_pos_of_mem_Ioo (toRadians_mem_Ioo h)

theorem sin_toRadians_le {degrees : ℝ} (h0 : 0 ≤ degrees) :
    Real.sin (toRadians degrees) ≤ 0.0175 * degrees := by
  have hπ := Real.pi_lt_d2
  have hrad : toRadians degrees = degrees * (π / 180) := toRadians_eq _
  have hsin := Real.sin_le (toRadians_nonneg h0)
  rw [hrad] at hsin ⊢
  nlinarith

theorem le_sin_toRadians {degrees : ℝ} (h0 : 0 ≤ degrees) (h90 : degrees ≤ 90) :
    degrees / 90 ≤ Real.sin (toRadians degrees) := by
  have hsin := Real.mul_le_sin (toRadians_nonneg h0) (toRadians_le_right h90)
  have hslope : 2 / π * toRadians degrees = degrees / 90 := by
    rw [toRadians_eq]
    field_simp
    ring
  rwa [hslope] at hsin

theorem clamp_eq_self {low high x : ℝ} (hl : low ≤ x) (hh : x ≤ high) : clamp low high x = x := by
  unfold clamp
  rw [if_neg (not_lt.mpr hl), if_neg (not_lt.mpr hh)]

namespace Angle

/-- Reducing an angle takes away the whole turns below it. -/
theorem wrap_eq (x : ℝ) : wrap x = x - 360 * ⌊x / 360⌋ := by
  have hlow := Int.floor_le (x / 360)
  have hhigh := Int.lt_floor_add_one (x / 360)
  unfold wrap
  dsimp only [Arithmetic.remainder]
  norm_num only
  by_cases hx : 0 ≤ x / 360
  · have hrest : ¬ x - 360 * ⌊x / 360⌋ < 0 := by linarith
    rw [if_pos hx, if_neg hrest, if_neg (by linarith)]
  · rw [if_neg hx]
    rcases (Int.ceil_le_floor_add_one (x / 360)).lt_or_eq with hceil | hceil
    · have hwhole : ⌈x / 360⌉ = ⌊x / 360⌋ :=
        le_antisymm (Int.lt_add_one_iff.mp hceil) (Int.floor_le_ceil _)
      have hle := Int.le_ceil (x / 360)
      rw [hwhole] at hle ⊢
      have hrest : ¬ x - 360 * ⌊x / 360⌋ < 0 := by linarith
      rw [if_neg hrest, if_neg (by linarith)]
    · have hrest : x - 360 * ((⌊x / 360⌋ + 1 : ℤ) : ℝ) < 0 := by
        push_cast
        linarith
      rw [hceil, if_pos hrest]
      push_cast
      split_ifs with hfull
      · linarith
      · ring

theorem wrap_nonneg (x : ℝ) : 0 ≤ wrap x := by
  have := Int.floor_le (x / 360)
  rw [wrap_eq]
  linarith

theorem wrap_add_turns (x : ℝ) (n : ℤ) : wrap (x + 360 * n) = wrap x := by
  have hdiv : (x + 360 * n) / 360 = x / 360 + n := by ring
  rw [wrap_eq, wrap_eq, hdiv, Int.floor_add_intCast]
  push_cast
  ring

theorem exists_wrap_eq (x : ℝ) : ∃ n : ℤ, wrap x = x + 360 * n := by
  refine ⟨-⌊x / 360⌋, ?_⟩
  rw [wrap_eq]
  push_cast
  ring

/-- An angle already in `[0, 360)` stays as it is. -/
theorem wrap_of_mem {x : ℝ} (h0 : 0 ≤ x) (h360 : x < 360) : wrap x = x := by
  have hfloor : ⌊x / 360⌋ = 0 := Int.floor_eq_zero_iff.mpr ⟨by positivity, by linarith⟩
  rw [wrap_eq, hfloor]
  simp

theorem exists_wrapSigned_eq (x : ℝ) : ∃ n : ℤ, wrapSigned x = x + 360 * n := by
  unfold wrapSigned
  norm_num only [wrap_eq]
  split_ifs with h
  · refine ⟨1 - ⌊(x + 180) / 360⌋, ?_⟩
    have := wrap_nonneg (x + 180)
    rw [wrap_eq] at this
    push_cast
    linarith
  · exact ⟨-⌊(x + 180) / 360⌋, by push_cast; ring⟩

end Angle

/-- The angle of a point and its distance from the origin give back the point, the origin
included. -/
theorem atan2_polar (y x : ℝ) :
    √(x ^ 2 + y ^ 2) * Real.cos (atan2 y x) = x ∧ √(x ^ 2 + y ^ 2) * Real.sin (atan2 y x) = y := by
  have hnorm : √(x ^ 2 + y ^ 2) = ‖(⟨x, y⟩ : ℂ)‖ := (Complex.norm_eq_sqrt_sq_add_sq ⟨x, y⟩).symm
  rw [hnorm]
  exact ⟨Complex.norm_mul_cos_arg _, Complex.norm_mul_sin_arg _⟩

theorem atan2_mul_pos {c : ℝ} (hc : 0 < c) (y x : ℝ) : atan2 (c * y) (c * x) = atan2 y x := by
  have hpoint : (⟨c * x, c * y⟩ : ℂ) = c * ⟨x, y⟩ := by
    apply Complex.ext <;> simp
  change Complex.arg ⟨c * x, c * y⟩ = Complex.arg ⟨x, y⟩
  rw [hpoint, Complex.arg_real_mul _ hc]

theorem exists_atan2_eq {r : ℝ} (hr : 0 < r) (θ : ℝ) :
    ∃ n : ℤ, atan2 (r * Real.sin θ) (r * Real.cos θ) = θ + n * (2 * π) := by
  refine ⟨⌊(π - θ) / (2 * π)⌋, ?_⟩
  have hpoint : (⟨r * Real.cos θ, r * Real.sin θ⟩ : ℂ) =
      r * (Complex.cos θ + Complex.sin θ * Complex.I) := by
    apply Complex.ext <;>
      simp [← Complex.ofReal_cos, ← Complex.ofReal_sin]
  have h := Complex.arg_mul_cos_add_sin_mul_I_sub hr θ
  rw [← hpoint] at h
  change Complex.arg ⟨r * Real.cos θ, r * Real.sin θ⟩ = _
  linarith

theorem exists_atan2_neg {y x : ℝ} (h : y ≠ 0 ∨ x ≠ 0) :
    ∃ n : ℤ, atan2 (-y) (-x) = atan2 y x + π + n * (2 * π) := by
  have hsquares : 0 < x ^ 2 + y ^ 2 := by
    rcases h with hy | hx
    · positivity
    · positivity
  obtain ⟨hx, hy⟩ := atan2_polar y x
  have hopposite := exists_atan2_eq (Real.sqrt_pos.mpr hsquares) (atan2 y x + π)
  rwa [Real.sin_add_pi, Real.cos_add_pi, mul_neg, mul_neg, hx, hy] at hopposite

theorem atan2_sin_cos {θ : ℝ} (hl : -π < θ) (hu : θ ≤ π) :
    atan2 (Real.sin θ) (Real.cos θ) = θ := by
  have hpoint : (⟨Real.cos θ, Real.sin θ⟩ : ℂ) =
      Complex.cos θ + Complex.sin θ * Complex.I := by
    apply Complex.ext <;>
      simp [← Complex.ofReal_cos, ← Complex.ofReal_sin]
  change Complex.arg ⟨Real.cos θ, Real.sin θ⟩ = _
  rw [hpoint]
  exact Complex.arg_cos_add_sin_mul_I ⟨hl, hu⟩

end GeoAlmanac
