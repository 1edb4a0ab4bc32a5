import GeoAlmanac.Proofs.Sphere.Track
import GeoAlmanac.Globe

/-! The flat chart of latitudes and longitudes read over the reals. A line that is straight on it is a
way over the sphere no longer than on the chart, where every parallel is as long as the equator; on
a meridian it is the great circle itself. -/

namespace GeoAlmanac
open scoped Real

namespace Sphere

theorem hasDerivAt_evenly (x y : ℝ) :
    ∀ t ∈ Set.Icc (0 : ℝ) 1, HasDerivAt (fun t => x + t * (y - x)) (y - x) t :=
  fun t _ => hasDerivAt_line x (y - x) t

/-- The way that is straight on the flat chart. -/
noncomputable def flatLine (φ₁ φ₂ l₁ l₂ : ℝ) : Track √((φ₂ - φ₁) ^ 2 + (l₂ - l₁) ^ 2) where
  latitude t := φ₁ + t * (φ₂ - φ₁)
  longitude t := l₁ + t * (l₂ - l₁)
  latitudeRate _ := φ₂ - φ₁
  longitudeRate _ := l₂ - l₁
  hasDerivAt_latitude := hasDerivAt_evenly φ₁ φ₂
  hasDerivAt_longitude := hasDerivAt_evenly l₁ l₂
  speed_nonneg := Real.sqrt_nonneg _
  speed_le t _ := by
    have hparallel := mul_le_of_le_one_left (sq_nonneg (l₂ - l₁))
      (Real.cos_sq_le_one (φ₁ + t * (φ₂ - φ₁)))
    rw [Real.sq_sqrt (by positivity), mul_pow]
    linarith

theorem flatLine_start (φ₁ φ₂ l₁ l₂ : ℝ) :
    (flatLine φ₁ φ₂ l₁ l₂).place 0 = ⟨toDegrees φ₁, toDegrees l₁⟩ := by
  simp [Track.place, flatLine]

theorem flatLine_end (φ₁ φ₂ l₁ l₂ : ℝ) :
    (flatLine φ₁ φ₂ l₁ l₂).place 1 = ⟨toDegrees φ₂, toDegrees l₂⟩ := by
  simp [Track.place, flatLine]

theorem toRadians_hypot (x y : ℝ) :
    toRadians (hypot x y) = √(toRadians x ^ 2 + toRadians y ^ 2) := by
  have hscale : (0 : ℝ) ≤ π / 180 := by positivity
  rw [hypot_eq, toRadians_eq, toRadians_eq, toRadians_eq, mul_pow, mul_pow, ← add_mul,
    Real.sqrt_mul (by positivity), Real.sqrt_sq hscale]

theorem centralAngle_le_flat (a b : Coordinate ℝ) : centralAngle a b ≤
    toRadians (hypot (b.latitude - a.latitude) (b.longitude - a.longitude)) := by
  have hway := (flatLine (toRadians a.latitude) (toRadians b.latitude) (toRadians a.longitude)
    (toRadians b.longitude)).centralAngle_le
  rw [flatLine_start, flatLine_end] at hway
  simp only [toDegrees_toRadians] at hway
  rw [toRadians_hypot, toRadians_sub, toRadians_sub]
  exact hway

theorem centralAngle_meridian {a b : Coordinate ℝ} (ha : |a.latitude| ≤ 90)
    (hb : |b.latitude| ≤ 90) (h : a.longitude = b.longitude) :
    centralAngle a b = |toRadians (b.latitude - a.latitude)| := by
  have hdot : a.unitVector.dot b.unitVector =
      Real.cos |toRadians (b.latitude - a.latitude)| := by
    rw [Real.cos_abs, toRadians_sub, Real.cos_sub]
    unfold Coordinate.unitVector Vector3.dot
    dsimp only
    rw [h]
    linear_combination Real.cos (toRadians a.latitude) * Real.cos (toRadians b.latitude) *
      Real.sin_sq_add_cos_sq (toRadians b.longitude)
  have hhalf : |toRadians (b.latitude - a.latitude)| ≤ π := by
    obtain ⟨hal, hau⟩ := Coordinate.latitude_mem ha
    obtain ⟨hbl, hbu⟩ := Coordinate.latitude_mem hb
    rw [toRadians_sub, abs_le]
    constructor <;> linarith
  rw [centralAngle_eq_arccos, hdot, Real.arccos_cos (abs_nonneg _) hhalf]

theorem centralAngle_eq_flat_of_meridian {a b : Coordinate ℝ} (ha : |a.latitude| ≤ 90)
    (hb : |b.latitude| ≤ 90) (h : a.longitude = b.longitude) : centralAngle a b =
      toRadians (hypot (b.latitude - a.latitude) (b.longitude - a.longitude)) := by
  rw [centralAngle_meridian ha hb h, toRadians_hypot, h, sub_self, toRadians_zero,
    zero_pow two_ne_zero, add_zero, Real.sqrt_sq_eq_abs]

end Sphere

namespace Globe
open Sphere

/-- On any globe the flat chart never shows two places nearer than they are, and shows places of one
meridian as far apart as they are. -/
theorem haversineDistance_le_equirectangularDistance {g : Globe ℝ} (hradius : 0 < g.radius.value)
    {a b : Coordinate ℝ} (ha : |a.latitude| ≤ 90) (hb : |b.latitude| ≤ 90) :
    g.haversineDistance a b ≤ g.equirectangularDistance a b ∧
      (a.longitude = b.longitude → g.haversineDistance a b = g.equirectangularDistance a b) := by
  constructor
  · exact mul_le_mul_of_nonneg_right (centralAngle_le_flat a b) hradius.le
  · intro hmeridian
    exact congrArg (· * g.radius.value) (centralAngle_eq_flat_of_meridian ha hb hmeridian)

/-- On the Earth, from the north pole down the prime meridian to the south pole, and along the
parallel of eighty degrees over the antimeridian. -/
theorem haversineDistance_le_equirectangularDistance_earth :
    0 < (⟨.earth .kilometres⟩ : Globe ℝ).radius.value ∧
      |(⟨90, 0⟩ : Coordinate ℝ).latitude| ≤ 90 ∧ |(⟨-90, 0⟩ : Coordinate ℝ).latitude| ≤ 90 ∧
      |(⟨80, 170⟩ : Coordinate ℝ).latitude| ≤ 90 ∧ |(⟨80, -170⟩ : Coordinate ℝ).latitude| ≤ 90 ∧
      (⟨.earth .kilometres⟩ : Globe ℝ).haversineDistance ⟨90, 0⟩ ⟨-90, 0⟩ =
        (⟨.earth .kilometres⟩ : Globe ℝ).equirectangularDistance ⟨90, 0⟩ ⟨-90, 0⟩ ∧
      (⟨.earth .kilometres⟩ : Globe ℝ).haversineDistance ⟨80, 170⟩ ⟨80, -170⟩ ≤
        (⟨.earth .kilometres⟩ : Globe ℝ).equirectangularDistance ⟨80, 170⟩ ⟨80, -170⟩ := by
  have hradius : 0 < (⟨.earth .kilometres⟩ : Globe ℝ).radius.value := by norm_num [Radius.earth]
  have hpole : |(⟨90, 0⟩ : Coordinate ℝ).latitude| ≤ 90 := by norm_num
  have hpole' : |(⟨-90, 0⟩ : Coordinate ℝ).latitude| ≤ 90 := by norm_num
  have heighty (l : ℝ) : |(⟨80, l⟩ : Coordinate ℝ).latitude| ≤ 90 := by norm_num [abs_le]
  obtain ⟨_, hmeridian⟩ := haversineDistance_le_equirectangularDistance hradius hpole hpole'
  obtain ⟨hparallel, _⟩ :=
    haversineDistance_le_equirectangularDistance hradius (heighty 170) (heighty (-170))
  exact ⟨hradius, hpole, hpole', heighty 170, heighty (-170), hmeridian rfl, hparallel⟩

end Globe
end GeoAlmanac
