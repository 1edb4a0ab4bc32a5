import GeoAlmanac.Proofs.Sphere.Track
import Mathlib.Analysis.SpecialFunctions.Log.Deriv
import Mathlib.Analysis.SpecialFunctions.Trigonometric.ArctanDeriv

/-! Loxodromes read over the reals. On the Mercator chart a loxodrome is straight; on the sphere it
is a way of constant speed, whose length is the loxodromic angle. -/

namespace GeoAlmanac.Sphere
open scoped Real
open Set

/-- The stretched latitude of the Mercator chart. -/
noncomputable def mercator (φ : ℝ) : ℝ :=
  Real.log (Real.tan (π / 4.0 + φ / 2.0))

theorem mercator_eq (φ : ℝ) : mercator φ = Real.log (Real.tan (π / 4 + φ / 2)) := by
  norm_num [mercator]

/-- The chart shows every latitude but those of the poles. -/
def OnChart (φ : ℝ) : Prop :=
  |φ| < π / 2.0

theorem onChart_iff {φ : ℝ} : OnChart φ ↔ φ ∈ Ioo (-(π / 2)) (π / 2) := by
  norm_num [OnChart, abs_lt]

theorem onChart_latitude {a : Coordinate ℝ} (h : |a.latitude| < 90) :
    OnChart (toRadians a.latitude) :=
  onChart_iff.mpr (toRadians_mem_Ioo h)

theorem OnChart.cos_pos {φ : ℝ} (h : OnChart φ) : 0 < Real.cos φ :=
  Real.cos_pos_of_mem_Ioo (onChart_iff.mp h)

theorem OnChart.stretch_mem {φ : ℝ} (h : OnChart φ) : π / 4 + φ / 2 ∈ Ioo 0 (π / 2) := by
  obtain ⟨hl, hu⟩ := onChart_iff.mp h
  constructor <;> linarith

theorem OnChart.tan_stretch_pos {φ : ℝ} (h : OnChart φ) : 0 < Real.tan (π / 4 + φ / 2) :=
  Real.tan_pos_of_pos_of_lt_pi_div_two h.stretch_mem.1 h.stretch_mem.2

/-- A latitude between two on the chart is on it. -/
theorem OnChart.between {φ φ₁ φ₂ : ℝ} (h₁ : OnChart φ₁) (h₂ : OnChart φ₂)
    (hφ : φ ∈ Icc φ₁ φ₂) : OnChart φ := by
  rw [onChart_iff] at *
  exact ⟨h₁.1.trans_le hφ.1, hφ.2.trans_lt h₂.2⟩

theorem OnChart.add_mul_sub {φ₁ φ₂ t : ℝ} (h₁ : OnChart φ₁) (h₂ : OnChart φ₂)
    (ht : t ∈ Icc (0 : ℝ) 1) : OnChart (φ₁ + t * (φ₂ - φ₁)) := by
  rw [onChart_iff] at *
  exact (convex_Ioo _ _).add_smul_sub_mem h₁ h₂ ht

theorem hasDerivAt_mercator {φ : ℝ} (h : OnChart φ) :
    HasDerivAt mercator (1 / Real.cos φ) φ := by
  obtain ⟨hpos, hlt⟩ := h.stretch_mem
  have hsin : 0 < Real.sin (π / 4 + φ / 2) := Real.sin_pos_of_pos_of_lt_pi hpos (by linarith)
  have hcos : 0 < Real.cos (π / 4 + φ / 2) := Real.cos_pos_of_mem_Ioo ⟨by linarith, hlt⟩
  have hdouble : Real.cos φ = 2 * Real.sin (π / 4 + φ / 2) * Real.cos (π / 4 + φ / 2) := by
    rw [← Real.sin_two_mul, ← Real.sin_add_pi_div_two]
    congr 1
    ring
  have hstretch : HasDerivAt (fun φ : ℝ => π / 4 + φ / 2) (1 / 2) φ :=
    ((hasDerivAt_id φ).div_const 2).const_add (π / 4)
  have htan := (Real.hasDerivAt_tan hcos.ne').comp φ hstretch
  rw [funext mercator_eq]
  apply (htan.log h.tan_stretch_pos.ne').congr_deriv
  rw [Function.comp_apply, hdouble, Real.tan_eq_sin_div_cos]
  field_simp

theorem exists_mercator_sub {φ₁ φ₂ : ℝ} (h₁ : OnChart φ₁) (h₂ : OnChart φ₂) :
    ∃ φ, OnChart φ ∧ mercator φ₂ - mercator φ₁ = (φ₂ - φ₁) / Real.cos φ := by
  have hordered {x y : ℝ} (hx : OnChart x) (hy : OnChart y) (h : x < y) :
      ∃ φ, OnChart φ ∧ mercator y - mercator x = (y - x) / Real.cos φ := by
    have hcontinuous : ContinuousOn mercator (Icc x y) := fun z hz =>
      (hasDerivAt_mercator (hx.between hy hz)).continuousAt.continuousWithinAt
    obtain ⟨φ, hφ, hslope⟩ := exists_hasDerivAt_eq_slope mercator (fun φ => 1 / Real.cos φ) h
      hcontinuous fun z hz => hasDerivAt_mercator (hx.between hy (Ioo_subset_Icc_self hz))
    refine ⟨φ, hx.between hy (Ioo_subset_Icc_self hφ), ?_⟩
    rw [eq_div_iff (sub_pos.mpr h).ne'] at hslope
    rw [← hslope]
    ring
  rcases lt_trichotomy φ₁ φ₂ with h | rfl | h
  · exact hordered h₁ h₂ h
  · exact ⟨φ₁, h₁, by simp⟩
  · obtain ⟨φ, hφ, hsub⟩ := hordered h₂ h₁ h
    refine ⟨φ, hφ, ?_⟩
    rw [← neg_sub, hsub, ← neg_div, neg_sub]

theorem abs_sub_le_mercator {φ₁ φ₂ : ℝ} (h₁ : OnChart φ₁) (h₂ : OnChart φ₂) :
    |φ₂ - φ₁| ≤ |mercator φ₂ - mercator φ₁| := by
  obtain ⟨φ, hφ, hsub⟩ := exists_mercator_sub h₁ h₂
  rw [hsub, abs_div, abs_of_pos hφ.cos_pos, le_div_iff₀ hφ.cos_pos]
  exact mul_le_of_le_one_right (abs_nonneg _) (Real.cos_le_one φ)

theorem stretchedNorth_eq {a b : Coordinate ℝ} (ha : |a.latitude| < 90)
    (hb : |b.latitude| < 90) :
    stretchedNorth a b = mercator (toRadians b.latitude) - mercator (toRadians a.latitude) := by
  have hposa := (onChart_latitude ha).tan_stretch_pos
  have hposb := (onChart_latitude hb).tan_stretch_pos
  rw [mercator_eq, mercator_eq]
  unfold stretchedNorth
  split_ifs with h
  · rw [eq_of_beq h]
    norm_num
  · rw [← Real.log_div hposb.ne' hposa.ne']
    norm_num [pi, log, div_eq_mul_inv]

theorem exists_shorterEast_eq (a b : Coordinate ℝ) :
    ∃ n : ℤ, shorterEast a b = toRadians (b.longitude - a.longitude) + n * (2 * π) := by
  unfold shorterEast
  dsimp only
  split_ifs
  · exact ⟨-1, by norm_num [pi]; ring⟩
  · exact ⟨1, by norm_num [pi]⟩
  · exact ⟨0, by simp⟩

/-- The way that is straight on the chart, with `slope` as much east as stretched north. -/
noncomputable def chartLine {φ₁ φ₂ : ℝ} (h₁ : OnChart φ₁) (h₂ : OnChart φ₂) (l slope : ℝ) :
    Track √((φ₂ - φ₁) ^ 2 + (slope * (φ₂ - φ₁)) ^ 2) where
  latitude t := φ₁ + t * (φ₂ - φ₁)
  longitude t := l + slope * (mercator (φ₁ + t * (φ₂ - φ₁)) - mercator φ₁)
  latitudeRate _ := φ₂ - φ₁
  longitudeRate t := slope * (1 / Real.cos (φ₁ + t * (φ₂ - φ₁)) * (φ₂ - φ₁))
  hasDerivAt_latitude t _ := hasDerivAt_line φ₁ (φ₂ - φ₁) t
  hasDerivAt_longitude t ht := by
    have hstretched := (hasDerivAt_mercator (h₁.add_mul_sub h₂ ht)).comp t
      (hasDerivAt_line φ₁ (φ₂ - φ₁) t)
    exact ((hstretched.sub_const _).const_mul slope).const_add l
  speed_nonneg := Real.sqrt_nonneg _
  speed_le t ht := by
    have hcos := (h₁.add_mul_sub h₂ ht).cos_pos.ne'
    rw [Real.sq_sqrt (by positivity), mul_left_comm, ← mul_assoc (Real.cos _),
      mul_one_div_cancel hcos, one_mul]

theorem chartLine_start {φ₁ φ₂ : ℝ} (h₁ : OnChart φ₁) (h₂ : OnChart φ₂) (l slope : ℝ) :
    (chartLine h₁ h₂ l slope).place 0 = ⟨toDegrees φ₁, toDegrees l⟩ := by
  simp [Track.place, chartLine]

theorem chartLine_end {φ₁ φ₂ : ℝ} (h₁ : OnChart φ₁) (h₂ : OnChart φ₂) (l slope : ℝ) :
    (chartLine h₁ h₂ l slope).place 1 =
      ⟨toDegrees φ₂, toDegrees (l + slope * (mercator φ₂ - mercator φ₁))⟩ := by
  simp [Track.place, chartLine]

/-- The way along a parallel. -/
noncomputable def parallelLine (φ l east : ℝ) : Track |Real.cos φ * east| where
  latitude _ := φ
  longitude t := l + t * east
  latitudeRate _ := 0
  longitudeRate _ := east
  hasDerivAt_latitude t _ := hasDerivAt_const t φ
  hasDerivAt_longitude t _ := hasDerivAt_line l east t
  speed_nonneg := abs_nonneg _
  speed_le _ _ := by simp [mul_pow]

theorem parallelLine_start (φ l east : ℝ) :
    (parallelLine φ l east).place 0 = ⟨toDegrees φ, toDegrees l⟩ := by
  simp [Track.place, parallelLine]

theorem parallelLine_end (φ l east : ℝ) :
    (parallelLine φ l east).place 1 = ⟨toDegrees φ, toDegrees (l + east)⟩ := by
  simp [Track.place, parallelLine]

theorem unitVector_shorterEast (a b : Coordinate ℝ) :
    (⟨b.latitude, toDegrees (toRadians a.longitude + shorterEast a b)⟩ :
      Coordinate ℝ).unitVector = b.unitVector := by
  obtain ⟨n, hn⟩ := exists_shorterEast_eq a b
  have hend : toRadians a.longitude + shorterEast a b =
      toRadians b.longitude + n * (2 * π) := by
    rw [hn, toRadians_sub]
    ring
  simp only [Coordinate.unitVector, toRadians_toDegrees, hend, Real.cos_add_int_mul_two_pi,
    Real.sin_add_int_mul_two_pi]

theorem stretchedNorth_ne_zero {a b : Coordinate ℝ} (h : 1e-12 < |stretchedNorth a b|) :
    stretchedNorth a b ≠ 0 :=
  abs_pos.mp (lt_trans (by norm_num) h)

theorem loxodromeScale_of_stretched {a b : Coordinate ℝ} (h : 1e-12 < |stretchedNorth a b|) :
    loxodromeScale a b =
      (toRadians b.latitude - toRadians a.latitude) / stretchedNorth a b := by
  rw [← toRadians_sub]
  exact if_pos h

theorem loxodromeScale_of_parallel {a b : Coordinate ℝ} (h : |stretchedNorth a b| ≤ 1e-12) :
    loxodromeScale a b = Real.cos (toRadians a.latitude) :=
  if_neg (not_lt.mpr h)

theorem loxodromeAngle_eq (a b : Coordinate ℝ) :
    loxodromeAngle a b = √((toRadians b.latitude - toRadians a.latitude) ^ 2 +
      (loxodromeScale a b * shorterEast a b) ^ 2) := by
  unfold loxodromeAngle
  rw [← toRadians_sub]
  apply congrArg Real.sqrt
  ring

theorem centralAngle_le_of_stretched {a b : Coordinate ℝ} (ha : |a.latitude| < 90)
    (hb : |b.latitude| < 90) (h : 1e-12 < |stretchedNorth a b|) :
    centralAngle a b ≤ loxodromeAngle a b := by
  have hne := stretchedNorth_ne_zero h
  have hway := (chartLine (onChart_latitude ha) (onChart_latitude hb) (toRadians a.longitude)
    (shorterEast a b / stretchedNorth a b)).centralAngle_le
  have hspeed : shorterEast a b / stretchedNorth a b *
      (toRadians b.latitude - toRadians a.latitude) = loxodromeScale a b * shorterEast a b := by
    rw [loxodromeScale_of_stretched h]
    ring
  rw [chartLine_start, chartLine_end, ← stretchedNorth_eq ha hb, div_mul_cancel₀ _ hne,
    toDegrees_toRadians, toDegrees_toRadians, toDegrees_toRadians,
    centralAngle_congr (unitVector_shorterEast a b), hspeed, ← loxodromeAngle_eq] at hway
  exact hway

/-- Elsewhere it is all but a parallel, on which the latitudes differ by less than the chart can
tell. -/
theorem centralAngle_le_of_parallel {a b : Coordinate ℝ} (ha : |a.latitude| < 90)
    (hb : |b.latitude| < 90) (h : |stretchedNorth a b| ≤ 1e-12) :
    centralAngle a b ≤ loxodromeAngle a b + |toRadians b.latitude - toRadians a.latitude| := by
  let corner : Coordinate ℝ :=
    ⟨a.latitude, toDegrees (toRadians a.longitude + shorterEast a b)⟩
  have heast : centralAngle a corner ≤ loxodromeAngle a b := by
    have hway := (parallelLine (toRadians a.latitude) (toRadians a.longitude)
      (shorterEast a b)).centralAngle_le
    rw [parallelLine_start, parallelLine_end, toDegrees_toRadians, toDegrees_toRadians] at hway
    apply hway.trans
    rw [loxodromeAngle_eq, loxodromeScale_of_parallel h]
    apply Real.abs_le_sqrt
    linarith [sq_nonneg (toRadians b.latitude - toRadians a.latitude)]
  have hnorth : centralAngle corner b ≤ |toRadians b.latitude - toRadians a.latitude| := by
    have hway := (chartLine (onChart_latitude ha) (onChart_latitude hb)
      (toRadians a.longitude + shorterEast a b) 0).centralAngle_le
    rw [chartLine_start, chartLine_end, zero_mul, zero_mul, add_zero, toDegrees_toRadians,
      toDegrees_toRadians, centralAngle_congr (unitVector_shorterEast a b), zero_pow two_ne_zero,
      add_zero, Real.sqrt_sq_eq_abs] at hway
    exact hway
  linarith [centralAngle_triangle a corner b]

/-- A loxodrome is never shorter than the great circle, but for a difference of latitudes that the
chart cannot tell. -/
theorem centralAngle_le_loxodromeAngle {a b : Coordinate ℝ} (ha : |a.latitude| < 90)
    (hb : |b.latitude| < 90) :
    centralAngle a b ≤ loxodromeAngle a b + 1e-9 ∧
      (a.latitude = b.latitude ∨ 1e-12 < |stretchedNorth a b| →
        centralAngle a b ≤ loxodromeAngle a b) := by
  rcases lt_or_ge 1e-12 |stretchedNorth a b| with h | h
  · have hle := centralAngle_le_of_stretched ha hb h
    have hslack : (0 : ℝ) < 1e-9 := by norm_num
    exact ⟨by linarith, fun _ => hle⟩
  · have hle := centralAngle_le_of_parallel ha hb h
    have hnear := abs_sub_le_mercator (onChart_latitude ha) (onChart_latitude hb)
    rw [← stretchedNorth_eq ha hb] at hnear
    have hslack : (1e-12 : ℝ) < 1e-9 := by norm_num
    refine ⟨by linarith, ?_⟩
    rintro (hsame | hlt)
    · rw [hsame, sub_self, abs_zero, add_zero] at hle
      exact hle
    · exact absurd hlt (not_lt.mpr h)

/-- Twenty degrees of the sixtieth parallel, over the antimeridian, and from their end to the
other hemisphere. -/
theorem centralAngle_le_loxodromeAngle_sixty :
    |(⟨60, 170⟩ : Coordinate ℝ).latitude| < 90 ∧ |(⟨-60, 170⟩ : Coordinate ℝ).latitude| < 90 ∧
      loxodromeAngle (⟨60, 170⟩ : Coordinate ℝ) ⟨60, -170⟩ = π / 18 ∧
      centralAngle (⟨60, 170⟩ : Coordinate ℝ) ⟨60, -170⟩ ≤ π / 18 ∧
      centralAngle (⟨60, -170⟩ : Coordinate ℝ) ⟨-60, 170⟩ ≤
        loxodromeAngle (⟨60, -170⟩ : Coordinate ℝ) ⟨-60, 170⟩ + 1e-9 := by
  have hnorth (l : ℝ) : |(⟨60, l⟩ : Coordinate ℝ).latitude| < 90 := by norm_num [abs_lt]
  have hsouth (l : ℝ) : |(⟨-60, l⟩ : Coordinate ℝ).latitude| < 90 := by norm_num [abs_lt]
  have hangle : loxodromeAngle (⟨60, 170⟩ : Coordinate ℝ) ⟨60, -170⟩ = π / 18 := by
    have hparallel : |stretchedNorth (⟨60, 170⟩ : Coordinate ℝ) ⟨60, -170⟩| ≤ 1e-12 := by
      rw [stretchedNorth_eq (hnorth 170) (hnorth (-170)), sub_self]
      norm_num
    have hcos : Real.cos (toRadians 60) = 1 / 2 := by
      rw [toRadians_eq, ← Real.cos_pi_div_three]
      congr 1
      ring
    have heast : shorterEast (⟨60, 170⟩ : Coordinate ℝ) ⟨60, -170⟩ = π / 9 := by
      have hraw : toRadians (-170 - 170 : ℝ) = -(17 / 9) * π := by
        rw [toRadians_eq]
        ring
      have hwest : -(17 / 9) * π < -π := by linarith [Real.pi_pos]
      have hnot : ¬ π < -(17 / 9) * π := by linarith [Real.pi_pos]
      unfold shorterEast
      dsimp only
      rw [hraw, show (pi : ℝ) = π from rfl, if_neg hnot, if_pos hwest]
      norm_num
      ring
    rw [loxodromeAngle_eq, loxodromeScale_of_parallel hparallel, hcos, heast, sub_self,
      zero_pow two_ne_zero, zero_add, Real.sqrt_sq (by positivity)]
    ring
  obtain ⟨_, hexact⟩ := centralAngle_le_loxodromeAngle (hnorth 170) (hnorth (-170))
  obtain ⟨hslack, _⟩ := centralAngle_le_loxodromeAngle (hnorth (-170)) (hsouth 170)
  exact ⟨hnorth 170, hsouth 170, hangle, hangle ▸ hexact (.inl rfl), hslack⟩

end GeoAlmanac.Sphere
