import GeoAlmanac.Proofs.Sphere.FlatChart
import Mathlib.Analysis.Convex.SpecificFunctions.Deriv

/-! How far the flat chart of latitudes and longitudes is off near the equator, read over the reals.
Its error is largest on a hop along the outermost parallel over the whole width, so that one
comparison of sines tells whether a band of latitudes keeps a tolerance. -/

namespace GeoAlmanac
open scoped Real

namespace Sphere

theorem mul_sin_le {part x : ℝ} (hpart : part ∈ Set.Icc (0 : ℝ) 1) (hx : x ∈ Set.Icc 0 π) :
    part * Real.sin x ≤ Real.sin (part * x) := by
  have hzero : (0 : ℝ) ∈ Set.Icc 0 π := ⟨le_rfl, Real.pi_pos.le⟩
  have h := strictConcaveOn_sin_Icc.concaveOn.2 hzero hx (sub_nonneg.mpr hpart.2) hpart.1
    (sub_add_cancel 1 part)
  simpa using h

/-- A part of an angle turns slower than the angle: the derivative of the quotient of their sines
is not negative. -/
theorem sin_mul_cos_le {part x : ℝ} (hpart : part ∈ Set.Icc (0 : ℝ) 1)
    (hx : x ∈ Set.Icc 0 (π / 2)) :
    Real.sin (part * x) * Real.cos x ≤ part * (Real.cos (part * x) * Real.sin x) := by
  obtain ⟨hlow, hhigh⟩ := hpart
  have hpos : 0 < 1 + part := by linarith
  have hsum : (1 + part) * x ∈ Set.Icc 0 π := by
    constructor
    · exact mul_nonneg hpos.le hx.1
    · nlinarith [hx.1, hx.2]
  have hratio : (1 - part) / (1 + part) ∈ Set.Icc (0 : ℝ) 1 :=
    ⟨div_nonneg (by linarith) hpos.le, (div_le_one hpos).mpr (by linarith)⟩
  have hconcave := mul_sin_le hratio hsum
  have hless : (1 - part) / (1 + part) * ((1 + part) * x) = (1 - part) * x := by
    field_simp
  rw [hless, div_mul_eq_mul_div, div_le_iff₀ hpos, one_add_mul part x, one_sub_mul part x,
    Real.sin_add, Real.sin_sub] at hconcave
  linarith

theorem hasDerivAt_sin_quotient (part : ℝ) {x : ℝ} (hx : Real.sin x ≠ 0) :
    HasDerivAt (fun x => Real.sin (part * x) / Real.sin x)
      ((part * (Real.cos (part * x) * Real.sin x) - Real.sin (part * x) * Real.cos x) /
        Real.sin x ^ 2) x := by
  have hpart : HasDerivAt (fun x => part * x) part x := by
    simpa using (hasDerivAt_id x).const_mul part
  refine (hpart.sin.div (Real.hasDerivAt_sin x) hx).congr_deriv ?_
  ring

theorem monotoneOn_sin_quotient {part : ℝ} (hpart : part ∈ Set.Icc (0 : ℝ) 1) :
    MonotoneOn (fun x => Real.sin (part * x) / Real.sin x) (Set.Ioc 0 (π / 2)) := by
  have hsin : ∀ x ∈ Set.Ioc 0 (π / 2), Real.sin x ≠ 0 := by
    intro x hx
    exact (Real.sin_pos_of_pos_of_lt_pi hx.1 (by linarith [hx.2, Real.pi_pos])).ne'
  have hderiv : ∀ x ∈ Set.Ioc 0 (π / 2), HasDerivAt _ _ x := fun x hx =>
    hasDerivAt_sin_quotient part (hsin x hx)
  apply monotoneOn_of_hasDerivWithinAt_nonneg (convex_Ioc _ _)
  · intro x hx
    exact (hderiv x hx).continuousAt.continuousWithinAt
  · intro x hx
    exact (hderiv x (interior_subset hx)).hasDerivWithinAt
  · intro x hx
    obtain ⟨hpos, hright⟩ := interior_subset hx
    exact div_nonneg (sub_nonneg.mpr (sin_mul_cos_le hpart ⟨hpos.le, hright⟩)) (sq_nonneg _)

/-- The haversine of an angle: the square of the sine of its half. -/
noncomputable def hav (x : ℝ) : ℝ :=
  Real.sin (x * 0.5) * Real.sin (x * 0.5)

theorem hav_eq_sq (x : ℝ) : hav x = Real.sin (x / 2) ^ 2 := by
  rw [hav, show x * 0.5 = x / 2 by ring, sq]

theorem hav_eq_half_sub (x : ℝ) : hav x = (1 - Real.cos x) / 2 := by
  rw [hav_eq_sq, Real.sin_sq_eq_half_sub, mul_div_cancel₀ _ two_ne_zero]
  ring

theorem hav_abs (x : ℝ) : hav |x| = hav x := by
  rw [hav_eq_half_sub, hav_eq_half_sub, Real.cos_abs]

theorem hav_lt_iff {x y : ℝ} (hx : x ∈ Set.Icc 0 π) (hy : y ∈ Set.Icc 0 π) :
    hav x < hav y ↔ x < y := by
  rw [hav_eq_half_sub, hav_eq_half_sub, ← Real.strictAntiOn_cos.lt_iff_gt hy hx]
  constructor <;> intro h <;> linarith

theorem hav_centralAngle (a b : Coordinate ℝ) : hav (centralAngle a b) =
    hav (toRadians (b.latitude - a.latitude)) +
      Real.cos (toRadians a.latitude) * Real.cos (toRadians b.latitude) *
        hav (toRadians (b.longitude - a.longitude)) := by
  obtain ⟨hlow, hhigh⟩ := abs_le.mp (abs_up_le_one a b)
  rw [hav_eq_half_sub, centralAngle_eq, Real.cos_arccos hlow hhigh, ← haversine_eq,
    ← toRadians_sub, hav, hav, mul_assoc _ (Real.sin _)]

theorem leg_hav_le {x y : ℝ} (hy : y ∈ Set.Icc 0 π) (h : |x| ≤ y) :
    x ^ 2 * hav y ≤ y ^ 2 * hav x := by
  obtain ⟨hy0, hyπ⟩ := hy
  rcases hy0.eq_or_lt with rfl | hpos
  · rw [abs_nonpos_iff.mp h]
  · have hpart : |x| / y ∈ Set.Icc (0 : ℝ) 1 :=
      ⟨by positivity, (div_le_one hpos).mpr h⟩
    have hsin := mul_sin_le hpart (x := y / 2) ⟨by linarith, by linarith⟩
    have hhalf : |x| / y * (y / 2) = |x| / 2 := by field_simp
    have hsin0 : 0 ≤ Real.sin (y / 2) :=
      Real.sin_nonneg_of_nonneg_of_le_pi (by linarith) (by linarith)
    rw [hhalf, div_mul_eq_mul_div, div_le_iff₀ hpos] at hsin
    have hsquare := pow_le_pow_left₀ (by positivity) hsin 2
    rw [← hav_abs x]
    simp only [hav_eq_sq]
    rw [mul_pow, mul_pow, sq_abs] at hsquare
    linarith

theorem hav_hypot_le {x y : ℝ} (h : √(x ^ 2 + y ^ 2) ≤ π) :
    hav √(x ^ 2 + y ^ 2) ≤ hav x + hav y := by
  have hsum : 0 ≤ x ^ 2 + y ^ 2 := by positivity
  rcases hsum.eq_or_lt with hzero | hpos
  · rw [← hzero, Real.sqrt_zero, hav_eq_half_sub, Real.cos_zero, sub_self, zero_div]
    simp only [hav_eq_sq]
    positivity
  · have hmem : √(x ^ 2 + y ^ 2) ∈ Set.Icc 0 π := ⟨Real.sqrt_nonneg _, h⟩
    have hx := leg_hav_le (x := x) hmem
      (Real.abs_le_sqrt (le_add_of_nonneg_right (sq_nonneg y)))
    have hy := leg_hav_le (x := y) hmem
      (Real.abs_le_sqrt (le_add_of_nonneg_left (sq_nonneg x)))
    rw [Real.sq_sqrt hsum] at hx hy
    have hboth : (x ^ 2 + y ^ 2) * hav √(x ^ 2 + y ^ 2) ≤
        (x ^ 2 + y ^ 2) * (hav x + hav y) := by linarith
    exact le_of_mul_le_mul_left hboth hpos

theorem hav_part_le {part x : ℝ} (hpart : part ∈ Set.Icc (0 : ℝ) 1) (hx : |x| ≤ π) :
    hav (part * x) ≤ hav x := by
  have hless : part * |x| ≤ |x| := mul_le_of_le_one_left (abs_nonneg x) hpart.2
  rw [← hav_abs x, ← hav_abs (part * x), abs_mul, abs_of_nonneg hpart.1,
    ← not_lt, hav_lt_iff ⟨abs_nonneg x, hx⟩
      ⟨mul_nonneg hpart.1 (abs_nonneg x), hless.trans hx⟩]
  exact not_lt.mpr hless

theorem abs_toRadians (x : ℝ) : |toRadians x| = toRadians |x| := by
  rw [toRadians_eq, toRadians_eq, abs_mul, abs_of_pos (by positivity : 0 < π / 180)]

theorem abs_toRadians_le {x bound : ℝ} (h : |x| ≤ bound) : |toRadians x| ≤ toRadians bound := by
  rw [abs_toRadians]
  exact toRadians_le h

theorem toRadians_sub_ne_zero {x y : ℝ} (h : x ≠ y) : toRadians (y - x) ≠ 0 := by
  rw [toRadians_eq]
  exact mul_ne_zero (sub_ne_zero.mpr h.symm) (by positivity)

theorem toRadians_div_two (x : ℝ) : toRadians x / 2 = toRadians (x / 2) := by
  simp only [toRadians_eq]
  ring

theorem cos_sq_le_cos_mul_cos {band φ₁ φ₂ : ℝ} (hband : band ≤ π / 2) (h₁ : |φ₁| ≤ band)
    (h₂ : |φ₂| ≤ band) : Real.cos band ^ 2 ≤ Real.cos φ₁ * Real.cos φ₂ := by
  have hcos (φ : ℝ) (h : |φ| ≤ band) : Real.cos band ≤ Real.cos φ := by
    rw [← Real.cos_abs φ]
    exact Real.cos_le_cos_of_nonneg_of_le_pi (abs_nonneg φ) (by linarith [Real.pi_pos]) h
  have hpos : 0 ≤ Real.cos band :=
    Real.cos_nonneg_of_mem_Icc ⟨by linarith [Real.pi_pos, abs_nonneg φ₁], hband⟩
  rw [sq]
  exact mul_le_mul (hcos φ₁ h₁) (hcos φ₂ h₂) hpos (hpos.trans (hcos φ₁ h₁))

theorem sin_part_lt_of_width {part c half x : ℝ} (hpart : part ∈ Set.Icc (0 : ℝ) 1)
    (hhalf : half ≤ π / 2) (hx : 0 < x) (hwidth : x ≤ half)
    (h : Real.sin (part * half) < c * Real.sin half) :
    Real.sin (part * x) < c * Real.sin x := by
  have hpos (y : ℝ) (hy : 0 < y) (hyhalf : y ≤ half) : 0 < Real.sin y :=
    Real.sin_pos_of_pos_of_lt_pi hy (by linarith [Real.pi_pos])
  rw [← div_lt_iff₀ (hpos half (hx.trans_le hwidth) le_rfl)] at h
  rw [← div_lt_iff₀ (hpos x hx hwidth)]
  exact (monotoneOn_sin_quotient hpart ⟨hx, hwidth.trans hhalf⟩
    ⟨hx.trans_le hwidth, hhalf⟩ hwidth).trans_lt h

theorem hav_part_lt_of_width {part c half x : ℝ} (hpart : part ∈ Set.Icc (0 : ℝ) 1)
    (hhalf : half ≤ π / 2) (hx : x ≠ 0) (hwidth : |x| / 2 ≤ half)
    (h : Real.sin (part * half) < c * Real.sin half) :
    hav (part * x) < c ^ 2 * hav x := by
  have hpos : 0 < |x| / 2 := by positivity
  have hless := mul_le_of_le_one_left hpos.le hpart.2
  have hsin := sin_part_lt_of_width hpart hhalf hpos hwidth h
  have hsin0 : 0 ≤ Real.sin (part * (|x| / 2)) :=
    Real.sin_nonneg_of_nonneg_of_le_pi (mul_nonneg hpart.1 hpos.le)
      (by linarith [Real.pi_pos])
  rw [← hav_abs x, ← hav_abs (part * x), abs_mul, abs_of_nonneg hpart.1]
  simp only [hav_eq_sq]
  rw [mul_div_assoc, ← mul_pow]
  exact pow_lt_pow_left₀ hsin hsin0 two_ne_zero

/-- The comparison of sines from one of polynomials: the sine of the shortened half width is that of
the half width less the sine of what is cut off. -/
theorem sin_part_lt_of_sq_lt {tolerance band half : ℝ} (htolerance : 0 < tolerance)
    (hhalf0 : 0 < half) (hhalf : half ≤ 1) (h : band ^ 2 / 2 <
      (1 - half ^ 2 / 2) * (1 - half ^ 2 / 6) * (tolerance / (1 + tolerance))) :
    Real.sin ((1 + tolerance)⁻¹ * half) < Real.cos band * Real.sin half := by
  have hpos : 0 < 1 + tolerance := by linarith
  set cut := tolerance / (1 + tolerance) * half with hcut
  have hcut0 : 0 < cut := by positivity
  have hcuthalf : cut ≤ half :=
    mul_le_of_le_one_left hhalf0.le ((div_le_one hpos).mpr (by linarith))
  have hrest : (1 + tolerance)⁻¹ * half = half - cut := by
    rw [hcut]
    field_simp
    ring
  have hsquare : half ^ 2 ≤ 1 := pow_le_one₀ hhalf0.le hhalf
  have hsinHalf : 0 < Real.sin half := Real.sin_pos_of_pos_of_le_one hhalf0 hhalf
  have hwhole : Real.sin half * Real.cos cut ≤ Real.sin half :=
    mul_le_of_le_one_right hsinHalf.le (Real.cos_le_one cut)
  have hsinCut : (1 - half ^ 2 / 6) * cut ≤ Real.sin cut := by
    have hcube := Real.sin_gt_sub_cube hcut0
    have hsmaller : cut ^ 2 * cut ≤ half ^ 2 * cut := by gcongr
    linarith
  have hlost : (1 - half ^ 2 / 2) * ((1 - half ^ 2 / 6) * cut) ≤
      Real.cos half * Real.sin cut :=
    mul_le_mul Real.one_sub_sq_div_two_le_cos hsinCut (mul_nonneg (by linarith) hcut0.le)
      (Real.cos_nonneg_of_mem_Icc ⟨by linarith [Real.pi_gt_three], by linarith [Real.pi_gt_three]⟩)
  have hparallel : Real.sin half * (1 - Real.cos band) ≤ half * (band ^ 2 / 2) :=
    mul_le_mul (Real.sin_le hhalf0.le)
      (by linarith [Real.one_sub_sq_div_two_le_cos (x := band)])
      (by linarith [Real.cos_le_one band]) hhalf0.le
  have hmargin := mul_lt_mul_of_pos_left h hhalf0
  have hsame : half * ((1 - half ^ 2 / 2) * (1 - half ^ 2 / 6) * (tolerance / (1 + tolerance))) =
      (1 - half ^ 2 / 2) * ((1 - half ^ 2 / 6) * cut) := by
    rw [hcut]
    ring
  rw [hrest, Real.sin_sub]
  linarith

end Sphere

namespace Globe
open Sphere

/-- The distance on the flat chart differs from that on the sphere by less than a part of the
latter. -/
def ChartAccurate (g : Globe ℝ) (tolerance : ℝ) (a b : Coordinate ℝ) : Prop :=
  |g.equirectangularDistance a b - g.haversineDistance a b| <
    tolerance * g.haversineDistance a b

/-- The hypotenuse on the flat chart. -/
noncomputable def flatAngle (a b : Coordinate ℝ) : ℝ :=
  toRadians (hypot (b.latitude - a.latitude) (b.longitude - a.longitude))

section
variable {g : Globe ℝ} (hradius : 0 < g.radius.value) {tolerance : ℝ} (htolerance : 0 < tolerance)
include hradius htolerance

theorem chartAccurate_iff (a b : Coordinate ℝ) : g.ChartAccurate tolerance a b ↔
    (1 + tolerance)⁻¹ * flatAngle a b < centralAngle a b := by
  have hlonger := centralAngle_le_flat a b
  have hpos : 0 < 1 + tolerance := by linarith
  rw [inv_mul_lt_iff₀ hpos]
  unfold ChartAccurate equirectangularDistance haversineDistance
  change centralAngle a b ≤ flatAngle a b at hlonger
  change |flatAngle a b * g.radius.value - centralAngle a b * g.radius.value| < _ ↔ _
  rw [← sub_mul, abs_mul, abs_of_pos hradius, abs_of_nonneg (sub_nonneg.mpr hlonger), ← mul_assoc,
    mul_lt_mul_iff_left₀ hradius]
  constructor <;> intro h <;> linarith

omit hradius in
theorem part_mem : (1 + tolerance)⁻¹ ∈ Set.Icc (0 : ℝ) 1 := by
  constructor
  · positivity
  · exact inv_le_one_of_one_le₀ (by linarith)

theorem chartAccurate_iff_hav {a b : Coordinate ℝ} (hflat : flatAngle a b ≤ π) :
    g.ChartAccurate tolerance a b ↔
      hav ((1 + tolerance)⁻¹ * flatAngle a b) < hav (centralAngle a b) := by
  obtain ⟨hpart0, hpart1⟩ := part_mem htolerance
  have hflat0 : 0 ≤ flatAngle a b := (centralAngle_nonneg a b).trans (centralAngle_le_flat a b)
  rw [chartAccurate_iff hradius htolerance, hav_lt_iff
    ⟨mul_nonneg hpart0 hflat0, (mul_le_of_le_one_left hflat0 hpart1).trans hflat⟩
    ⟨centralAngle_nonneg a b, centralAngle_le_pi a b⟩]

theorem chartAccurate_meridian {a b : Coordinate ℝ} (hab : a ≠ b) (ha : |a.latitude| ≤ 90)
    (hb : |b.latitude| ≤ 90) (h : a.longitude = b.longitude) : g.ChartAccurate tolerance a b := by
  rw [chartAccurate_iff hradius htolerance]
  have hmeridian : centralAngle a b = flatAngle a b := centralAngle_eq_flat_of_meridian ha hb h
  have hpos : 0 < centralAngle a b := by
    rw [centralAngle_meridian ha hb h, abs_pos]
    refine toRadians_sub_ne_zero fun hlatitude => hab ?_
    cases a
    cases b
    simp_all
  rw [← hmeridian]
  exact mul_lt_of_lt_one_left hpos (inv_lt_one_of_one_lt₀ (by linarith))

variable {band width : ℝ} (hband : band ≤ 45) (hwidth : width ≤ 90)

omit hradius htolerance in
include hband hwidth in
theorem flatAngle_le_pi {a b : Coordinate ℝ} (ha : |a.latitude| ≤ band) (hb : |b.latitude| ≤ band)
    (hhop : |b.longitude - a.longitude| ≤ width) : flatAngle a b ≤ π := by
  have hnorth : |toRadians (b.latitude - a.latitude)| ≤ π / 2 := by
    rw [← toRadians_right]
    exact abs_toRadians_le ((abs_sub _ _).trans (by linarith))
  have heast : |toRadians (b.longitude - a.longitude)| ≤ π / 2 := by
    rw [← toRadians_right]
    exact abs_toRadians_le (hhop.trans hwidth)
  have hnorth := sq_le_sq' (abs_le.mp hnorth).1 (abs_le.mp hnorth).2
  have heast := sq_le_sq' (abs_le.mp heast).1 (abs_le.mp heast).2
  rw [flatAngle, toRadians_hypot, Real.sqrt_le_left Real.pi_pos.le]
  nlinarith [sq_nonneg π]

include hband hwidth

theorem chartAccurate_of_outermost {a b : Coordinate ℝ} (hab : a ≠ b) (ha : |a.latitude| ≤ band)
    (hb : |b.latitude| ≤ band) (hhop : |b.longitude - a.longitude| ≤ width)
    (h : Real.sin ((1 + tolerance)⁻¹ * toRadians (width / 2)) <
      Real.cos (toRadians band) * Real.sin (toRadians (width / 2))) :
    g.ChartAccurate tolerance a b := by
  have hflat := flatAngle_le_pi hband hwidth ha hb hhop
  rcases eq_or_ne a.longitude b.longitude with hmeridian | hne
  · exact chartAccurate_meridian hradius htolerance hab (by linarith) (by linarith) hmeridian
  rw [chartAccurate_iff_hav hradius htolerance hflat, hav_centralAngle]
  have hpart := part_mem htolerance
  have heast : hav ((1 + tolerance)⁻¹ * toRadians (b.longitude - a.longitude)) <
      Real.cos (toRadians band) ^ 2 * hav (toRadians (b.longitude - a.longitude)) := by
    refine hav_part_lt_of_width hpart (toRadians_le_right (by linarith))
      (toRadians_sub_ne_zero hne) ?_ h
    rw [abs_toRadians, toRadians_div_two]
    exact toRadians_le (by linarith)
  have hnorth : hav ((1 + tolerance)⁻¹ * toRadians (b.latitude - a.latitude)) ≤
      hav (toRadians (b.latitude - a.latitude)) := by
    apply hav_part_le hpart
    rw [← toRadians_half]
    exact abs_toRadians_le ((abs_sub _ _).trans (by linarith))
  have hparallels : Real.cos (toRadians band) ^ 2 ≤
      Real.cos (toRadians a.latitude) * Real.cos (toRadians b.latitude) :=
    cos_sq_le_cos_mul_cos (toRadians_le_right (by linarith)) (abs_toRadians_le ha)
      (abs_toRadians_le hb)
  have hscaled : (1 + tolerance)⁻¹ * flatAngle a b =
      √(((1 + tolerance)⁻¹ * toRadians (b.latitude - a.latitude)) ^ 2 +
        ((1 + tolerance)⁻¹ * toRadians (b.longitude - a.longitude)) ^ 2) := by
    rw [flatAngle, toRadians_hypot, mul_pow, mul_pow, ← mul_add, Real.sqrt_mul (sq_nonneg _),
      Real.sqrt_sq hpart.1]
  have hflat0 : 0 ≤ flatAngle a b := (centralAngle_nonneg a b).trans (centralAngle_le_flat a b)
  have hlegs := hav_hypot_le (hscaled ▸ (mul_le_of_le_one_left hflat0 hpart.2).trans hflat)
  rw [← hscaled] at hlegs
  have hshorter := mul_le_mul_of_nonneg_right hparallels
    (sq_nonneg (Real.sin (toRadians (b.longitude - a.longitude) / 2)))
  rw [← hav_eq_sq] at hshorter
  linarith

theorem chartAccurate_outermost_iff (hband0 : 0 ≤ band) (hwidth0 : 0 < width) :
    g.ChartAccurate tolerance ⟨band, 0⟩ ⟨band, width⟩ ↔
      Real.sin ((1 + tolerance)⁻¹ * toRadians (width / 2)) <
        Real.cos (toRadians band) * Real.sin (toRadians (width / 2)) := by
  obtain ⟨hpart0, hpart1⟩ := part_mem htolerance
  have hlatitude : |band| ≤ band := (abs_of_nonneg hband0).le
  have hhop : |width - 0| ≤ width := by
    rw [sub_zero, abs_of_pos hwidth0]
  have hflat : flatAngle ⟨band, 0⟩ ⟨band, width⟩ = toRadians width := by
    rw [flatAngle, hypot_eq, sub_self, sub_zero, zero_pow two_ne_zero, zero_add,
      Real.sqrt_sq hwidth0.le]
  have hhalf : toRadians (width / 2) ≤ π / 2 := toRadians_le_right (by linarith)
  have hhalf0 : 0 ≤ toRadians (width / 2) := toRadians_nonneg (by linarith)
  have hpartHalf0 := mul_nonneg hpart0 hhalf0
  have hpartHalf := (mul_le_of_le_one_left hhalf0 hpart1).trans hhalf
  have hsin (x : ℝ) (h0 : 0 ≤ x) (hx : x ≤ π / 2) : 0 ≤ Real.sin x :=
    Real.sin_nonneg_of_nonneg_of_le_pi h0 (by linarith)
  have hcos : 0 ≤ Real.cos (toRadians band) :=
    (cos_toRadians_pos (by linarith)).le
  have hiff := chartAccurate_iff_hav hradius htolerance
    (flatAngle_le_pi hband hwidth (a := ⟨band, 0⟩) (b := ⟨band, width⟩) hlatitude hlatitude hhop)
  rw [hiff, hflat, hav_centralAngle]
  simp only [hav_eq_sq]
  rw [sub_self, toRadians_zero, zero_div, Real.sin_zero, zero_pow two_ne_zero, zero_add, sub_zero,
    mul_div_assoc, toRadians_div_two, ← sq, ← mul_pow,
    pow_lt_pow_iff_left₀ (hsin _ hpartHalf0 hpartHalf) (mul_nonneg hcos (hsin _ hhalf0 hhalf))
      two_ne_zero]

/-- The flat chart keeps a tolerance for all hops of a band of latitudes about the equator, up to a
width in longitude, exactly if the sine of the half width, shortened by the tolerance, is less than
its own shortening on the outermost parallel. -/
theorem chart_accurate_in_band_iff (hband0 : 0 ≤ band) (hwidth0 : 0 < width) :
    (∀ a b : Coordinate ℝ, a ≠ b → |a.latitude| ≤ band → |b.latitude| ≤ band →
        |b.longitude - a.longitude| ≤ width → g.ChartAccurate tolerance a b) ↔
      Real.sin ((1 + tolerance)⁻¹ * toRadians (width / 2)) <
        Real.cos (toRadians band) * Real.sin (toRadians (width / 2)) := by
  constructor
  · intro h
    rw [← chartAccurate_outermost_iff hradius htolerance hband hwidth hband0 hwidth0]
    apply h
    · intro heq
      have hlongitude := congrArg Coordinate.longitude heq
      exact hwidth0.ne hlongitude
    · exact (abs_of_nonneg hband0).le
    · exact (abs_of_nonneg hband0).le
    · rw [sub_zero, abs_of_pos hwidth0]
  · intro h a b hab ha hb hhop
    exact chartAccurate_of_outermost hradius htolerance hband hwidth hab ha hb hhop h

end

/-- On the Earth hops of at most a degree in longitude are told to a part in ten thousand up to a
latitude of 0.81 degrees, and to 1.53 parts up to one degree. -/
theorem chart_accurate_in_band_iff_earth :
    let earth : Globe ℝ := ⟨.earth .kilometres⟩
    0 < earth.radius.value ∧ (0 : ℝ) < 0.0001 ∧ (0 : ℝ) < 0.000153 ∧
      (0 : ℝ) ≤ 0.81 ∧ (0.81 : ℝ) ≤ 45 ∧ (0 : ℝ) ≤ 1 ∧ (1 : ℝ) ≤ 45 ∧ (0 : ℝ) < 1 ∧ (1 : ℝ) ≤ 90 ∧
      (∀ a b : Coordinate ℝ, a ≠ b → |a.latitude| ≤ 0.81 → |b.latitude| ≤ 0.81 →
        |b.longitude - a.longitude| ≤ 1 → earth.ChartAccurate 0.0001 a b) ∧
      ∀ a b : Coordinate ℝ, a ≠ b → |a.latitude| ≤ 1 → |b.latitude| ≤ 1 →
        |b.longitude - a.longitude| ≤ 1 → earth.ChartAccurate 0.000153 a b := by
  intro earth
  have hradius : 0 < earth.radius.value := by norm_num [earth, Radius.earth]
  have hlow := Real.pi_gt_d2
  have hhigh := Real.pi_lt_d4
  have hsquare : π ^ 2 < 9.87 := by nlinarith
  have hhalf : toRadians (1 / 2 : ℝ) = π / 360 := by
    rw [toRadians_eq]
    ring
  have hhalf1 : π / 360 ≤ 1 := by linarith
  have hinner : Real.sin ((1 + 0.0001)⁻¹ * toRadians (1 / 2)) <
      Real.cos (toRadians 0.81) * Real.sin (toRadians (1 / 2)) := by
    rw [hhalf]
    apply sin_part_lt_of_sq_lt (by norm_num) (by positivity) hhalf1
    rw [toRadians_eq]
    nlinarith
  have houter : Real.sin ((1 + 0.000153)⁻¹ * toRadians (1 / 2)) <
      Real.cos (toRadians 1) * Real.sin (toRadians (1 / 2)) := by
    rw [hhalf]
    apply sin_part_lt_of_sq_lt (by norm_num) (by positivity) hhalf1
    rw [toRadians_eq]
    nlinarith
  refine ⟨hradius, by norm_num, by norm_num, by norm_num, by norm_num, by norm_num, by norm_num,
    by norm_num, by norm_num, ?_, ?_⟩
  · exact (chart_accurate_in_band_iff hradius (by norm_num) (by norm_num) (by norm_num)
      (by norm_num) (by norm_num)).mpr hinner
  · exact (chart_accurate_in_band_iff hradius (by norm_num) (by norm_num) (by norm_num)
      (by norm_num) (by norm_num)).mpr houter

/-- One degree along the parallel of one degree is off by more than a part in ten thousand. -/
theorem chart_misses_part_in_ten_thousand :
    (⟨1, 0⟩ : Coordinate ℝ) ≠ ⟨1, 1⟩ ∧ |(1 : ℝ)| ≤ 1 ∧ |(1 : ℝ) - 0| ≤ 1 ∧
      ¬(⟨.earth .kilometres⟩ : Globe ℝ).ChartAccurate 0.0001 ⟨1, 0⟩ ⟨1, 1⟩ := by
  refine ⟨by simp, by simp, by simp, ?_⟩
  have hradius : 0 < (⟨.earth .kilometres⟩ : Globe ℝ).radius.value := by norm_num [Radius.earth]
  rw [chartAccurate_outermost_iff hradius (by norm_num) (by norm_num) (by norm_num) (by norm_num)
    (by norm_num), not_lt]
  have hhalf : toRadians (1 / 2 : ℝ) = π / 360 := by
    rw [toRadians_eq]
    ring
  have hdegree : toRadians (1 : ℝ) = 2 * (π / 360) := by
    rw [toRadians_eq]
    ring
  have hlow := Real.pi_gt_d2
  have hhigh := Real.pi_lt_d2
  have hsin : 0.0087 ≤ Real.sin (π / 360) := by
    have hsin := Real.sin_gt_sub_cube (x := π / 360) (by positivity)
    have hcube : (π / 360) ^ 3 ≤ (3.15 / 360) ^ 3 := by gcongr
    norm_num at hcube
    linarith
  have hpart := mul_sin_le (part_mem (show (0 : ℝ) < 0.0001 by norm_num))
    (show π / 360 ∈ Set.Icc 0 π from ⟨by positivity, by linarith⟩)
  have hcos : Real.cos (2 * (π / 360)) ≤ (1 + 0.0001)⁻¹ := by
    rw [Real.cos_two_mul, Real.cos_sq']
    norm_num
    nlinarith
  rw [hhalf, hdegree]
  exact (mul_le_mul_of_nonneg_right hcos (by linarith)).trans hpart

end Globe
end GeoAlmanac
