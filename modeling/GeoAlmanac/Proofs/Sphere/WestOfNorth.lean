import GeoAlmanac.Proofs.Sun.NearestTangents
import GeoAlmanac.Sphere

/-! Azimuths computed just west of north, with sine, cosine and the angle of a point correctly
rounded. From the crossing of the equator and the prime meridian, places in the middle latitudes
that lie a little west of that meridian are seen less than half a hundredth of a degree before a
full turn. -/

namespace GeoAlmanac.Sphere
open Binary64
open scoped Real

/-- What is relied on of sine, cosine and the angle of a point. -/
structure NearestCircular [Elementary Float] : Prop where
  sin (x : Float) : x.isFinite = true → Rounds (sin x) (Real.sin (value x))
  cos (x : Float) : x.isFinite = true → Rounds (cos x) (Real.cos (value x))
  atan2 (y x : Float) : y.isFinite = true → x.isFinite = true →
    Rounds (atan2 y x) (Complex.arg ⟨value x, value y⟩)

theorem nearestCircular_nearestFunctions : @NearestCircular Sun.nearestFunctions :=
  @NearestCircular.mk Sun.nearestFunctions (fun _ _ => nearestDouble_rounds _)
    (fun _ _ => nearestDouble_rounds _) fun _ _ _ _ => nearestDouble_rounds _

theorem arg_bounds {x y l u : ℝ} (hx : 1 / 2 ≤ x) (hx1 : x ≤ 1) (hl : 0 < l) (hly : l ≤ -y)
    (hyu : -y ≤ u) (hu : u ≤ 1) :
    -(π * u) ≤ Complex.arg ⟨x, y⟩ ∧ Complex.arg ⟨x, y⟩ ≤ -(l / 2) := by
  have hpos : 0 < ‖(⟨x, y⟩ : ℂ)‖ := lt_of_lt_of_le (by linarith) (Complex.re_le_norm ⟨x, y⟩)
  have hnear : x ≤ ‖(⟨x, y⟩ : ℂ)‖ := Complex.re_le_norm ⟨x, y⟩
  have hfar : ‖(⟨x, y⟩ : ℂ)‖ ≤ 2 := by
    have h := Complex.norm_le_abs_re_add_abs_im ⟨x, y⟩
    rw [abs_of_pos (by linarith), abs_of_neg (by linarith)] at h
    linarith
  have hneg : Complex.arg ⟨x, y⟩ < 0 := Complex.arg_neg_iff.mpr (by dsimp only; linarith)
  have hright : -(π / 2) ≤ Complex.arg ⟨x, y⟩ :=
    Complex.neg_pi_div_two_le_arg_iff.mpr (.inl (by dsimp only; linarith))
  have hsin := Complex.sin_arg ⟨x, y⟩
  generalize Complex.arg ⟨x, y⟩ = θ at *
  generalize ‖(⟨x, y⟩ : ℂ)‖ = r at *
  have hsine : Real.sin (-θ) = -y / r := by rw [Real.sin_neg, hsin, neg_div]
  have hle := Real.sin_le (x := -θ) (by linarith)
  have hge := Real.mul_le_sin (x := -θ) (by linarith) (by linarith)
  rw [hsine] at hle hge
  constructor
  · have hsteep : -y / r ≤ 2 * u := by
      rw [div_le_iff₀ hpos]
      nlinarith
    have hπ := Real.pi_pos
    rw [div_mul_eq_mul_div, div_le_iff₀ hπ] at hge
    nlinarith
  · have hflat : l / 2 ≤ -y / r := div_le_div₀ (by linarith) hly hpos hfar
    linarith

/-- A latitude in the middle and a short way west, in radians. -/
structure ShortlyWest (φ east : Float) : Prop where
  latitude_finite : φ.isFinite = true
  east_finite : east.isFinite = true
  latitude_mem : value φ ∈ Set.Icc (3 / 4 : ℝ) (13 / 16)
  east_mem : value east ∈ Set.Icc (-(1 / 2 ^ 16) : ℝ) (-(1 / 2 ^ 17))

theorem rounded_one : rounded 1 = 1 :=
  rounded_of_eq 1 0 (by norm_num) (by norm_num) (by norm_num)

theorem rounded_half : rounded (1 / 2) = 1 / 2 :=
  rounded_of_eq 1 (-1) (by norm_num) (by norm_num) (by norm_num)

theorem rounded_neg_part {n : ℕ} (h : n ≤ 1074) : rounded (-(1 / 2 ^ n)) = -(1 / 2 ^ n) :=
  rounded_of_eq (-1) (-n) (by simp) (by norm_num) (by omega)

theorem shortlyWest_radians {latitude longitude : Float} (hlatitude : latitude.isFinite = true)
    (hlongitude : longitude.isFinite = true) (hnorth : value latitude ∈ Set.Icc (43 : ℝ) 46)
    (hwest : value longitude ∈ Set.Icc (-0.0008 : ℝ) (-0.00045)) :
    ShortlyWest (toRadians latitude) (toRadians (longitude - 0.0)) := by
  obtain ⟨hsouth, hnorth⟩ := hnorth
  obtain ⟨hwest, heast⟩ := hwest
  have hdifference := sub_rounds hlongitude (y := 0.0) rfl
  rw [show value 0.0 = 0 from rfl, sub_zero] at hdifference
  obtain ⟨hfinite, hvalue⟩ := hdifference.exact (rounded_value hlongitude) (by
    rw [abs_lt]
    norm_num at *
    constructor <;> linarith)
  have hlat := mul_rounds hlatitude (y := pi / 180.0) rfl
  have hlong := mul_rounds hfinite (y := pi / 180.0) rfl
  rw [Sun.value_radian] at hlat hlong
  rw [hvalue] at hlong
  obtain ⟨hlat, hlat'⟩ := hlat.mem_Icc (l := 3 / 4) (u := 13 / 16) (by constructor <;> linarith)
    (rounded_of_eq 3 (-2) (by norm_num) (by norm_num) (by norm_num))
    (rounded_of_eq 13 (-4) (by norm_num) (by norm_num) (by norm_num)) (by norm_num) (by norm_num)
  obtain ⟨hlong, hlong'⟩ := hlong.mem_Icc (l := -(1 / 2 ^ 16)) (u := -(1 / 2 ^ 17))
    (by norm_num at *; constructor <;> linarith)
    (rounded_neg_part (by decide)) (rounded_neg_part (by decide)) (by norm_num) (by norm_num)
  exact ⟨hlat, hlong, hlat', hlong'⟩

section
variable [Elementary Float] (h : NearestCircular) {φ east : Float} (hwest : ShortlyWest φ east)
include h hwest

theorem cos_latitude_mem : (cos φ).isFinite = true ∧ value (cos φ) ∈ Set.Icc (1 / 2 : ℝ) 1 := by
  obtain ⟨hlow, hhigh⟩ := hwest.latitude_mem
  have hhalf : 1 / 2 ≤ Real.cos (value φ) := by
    nlinarith [Real.one_sub_sq_div_two_le_cos (x := value φ)]
  exact (h.cos φ hwest.latitude_finite).mem_Icc ⟨hhalf, Real.cos_le_one _⟩ rounded_half rounded_one
    (by norm_num) (by norm_num)

theorem sin_latitude_mem : (sin φ).isFinite = true ∧ value (sin φ) ∈ Set.Icc (1 / 2 : ℝ) 1 := by
  obtain ⟨hlow, hhigh⟩ := hwest.latitude_mem
  have hpos : 0 < value φ := by linarith
  have hhalf : 1 / 2 ≤ Real.sin (value φ) := by
    nlinarith [Real.sin_gt_sub_cube hpos, mul_pos hpos hpos]
  exact (h.sin φ hwest.latitude_finite).mem_Icc ⟨hhalf, Real.sin_le_one _⟩ rounded_half rounded_one
    (by norm_num) (by norm_num)

theorem sin_east_mem : (sin east).isFinite = true ∧
    value (sin east) ∈ Set.Icc (-(1 / 2 ^ 16) : ℝ) (-(1 / 2 ^ 18)) := by
  obtain ⟨hlow, hhigh⟩ := hwest.east_mem
  have hπ := Real.pi_gt_three
  have hle := Real.sin_le (x := -value east) (by linarith)
  have hge := Real.mul_le_sin (x := -value east) (by linarith) (by linarith)
  rw [div_mul_eq_mul_div, div_le_iff₀ Real.pi_pos] at hge
  rw [Real.sin_neg] at hle hge
  have hflat : Real.sin (value east) ≤ -(1 / 2 ^ 18) := by nlinarith [Real.pi_le_four]
  exact (h.sin east hwest.east_finite).mem_Icc ⟨by linarith, hflat⟩ (rounded_neg_part (by decide))
    (rounded_neg_part (by decide)) (by norm_num) (by norm_num)

theorem ordinate_mem : (sin east * cos φ).isFinite = true ∧
    value (sin east * cos φ) ∈ Set.Icc (-(1 / 2 ^ 16) : ℝ) (-(1 / 2 ^ 19)) := by
  obtain ⟨hcos, hlow, hhigh⟩ := cos_latitude_mem h hwest
  obtain ⟨hsin, hlow', hhigh'⟩ := sin_east_mem h hwest
  exact (mul_rounds hsin hcos).mem_Icc (by constructor <;> nlinarith)
    (rounded_neg_part (by decide)) (rounded_neg_part (by decide)) (by norm_num) (by norm_num)

theorem abscissa_mem : (cos 0.0 * sin φ - sin 0.0 * cos φ * cos east).isFinite = true ∧
    value (cos 0.0 * sin φ - sin 0.0 * cos φ * cos east) ∈ Set.Icc (1 / 2 : ℝ) 1 := by
  have hnone : |(0 : ℝ)| < 2 ^ (10 : ℤ) := by norm_num
  obtain ⟨hcos, -⟩ := cos_latitude_mem h hwest
  obtain ⟨hsin, hsin'⟩ := sin_latitude_mem h hwest
  obtain ⟨hcosEast, -⟩ := (h.cos east hwest.east_finite).near (n := 1) (by norm_num) (by norm_num)
    ((Real.abs_cos_le_one _).trans_lt (by norm_num))
  have hsmall : |value (sin φ)| < 2 ^ (10 : ℤ) := by
    rw [abs_of_pos (by linarith [hsin'.1])]
    exact hsin'.2.trans_lt (by norm_num)
  have hcosZero := h.cos 0.0 rfl
  have hsinZero := h.sin 0.0 rfl
  rw [show value 0.0 = 0 from rfl, Real.cos_zero] at hcosZero
  rw [show value 0.0 = 0 from rfl, Real.sin_zero] at hsinZero
  obtain ⟨hone, hone'⟩ := hcosZero.exact rounded_one (by norm_num)
  obtain ⟨hzero, hzero'⟩ := hsinZero.exact rounded_zero hnone
  have hnorth := mul_rounds hone hsin
  rw [hone', one_mul] at hnorth
  obtain ⟨hnorth, hnorth'⟩ := hnorth.exact (rounded_value hsin) hsmall
  have hside := mul_rounds hzero hcos
  rw [hzero', zero_mul] at hside
  obtain ⟨hside, hside'⟩ := hside.exact rounded_zero hnone
  have hsouth := mul_rounds hside hcosEast
  rw [hside', zero_mul] at hsouth
  obtain ⟨hsouth, hsouth'⟩ := hsouth.exact rounded_zero hnone
  have hsum := sub_rounds hnorth hsouth
  rw [hnorth', hsouth', sub_zero] at hsum
  exact hsum.mem_Icc hsin' rounded_half rounded_one (by norm_num) (by norm_num)

end

theorem azimuth_mem_of_west {θ : Float} (hθ : θ.isFinite = true)
    (hmem : value θ ∈ Set.Icc (-(1 / 2 ^ 14) : ℝ) (-(1 / 2 ^ 20))) :
    (azimuth (toDegrees θ)).isFinite = true ∧
      value (azimuth (toDegrees θ)) ∈ Set.Icc (360 - 1 / 2 ^ 8 : ℝ) (360 - 1 / 2 ^ 15) := by
  obtain ⟨hlow, hhigh⟩ := hmem
  have hdegrees := mul_rounds hθ (y := 180.0 / pi) rfl
  rw [Sun.value_degrees] at hdegrees
  obtain ⟨hfinite, hlow', hhigh'⟩ := hdegrees.mem_Icc (l := -(1 / 2 ^ 8)) (u := -(1 / 2 ^ 15))
    (by constructor <;> linarith) (rounded_neg_part (by decide)) (rounded_neg_part (by decide))
    (by norm_num) (by norm_num)
  have hsum := add_rounds hfinite (y := 360.0) rfl
  rw [value_turn] at hsum
  obtain ⟨hturn, hmem⟩ := hsum.mem_Icc (l := 360 - 1 / 2 ^ 8) (u := 360 - 1 / 2 ^ 15)
    ⟨by linarith, by linarith⟩
    (rounded_of_eq 92159 (-8) (by norm_num) (by norm_num) (by norm_num))
    (rounded_of_eq 11796479 (-15) (by norm_num) (by norm_num) (by norm_num))
    (by norm_num) (by norm_num)
  have h0 : 0 ≤ value (θ * (180.0 / pi) + 360.0) := by linarith only [hmem.1]
  have h360 : value (θ * (180.0 / pi) + 360.0) < 360 := by linarith only [hmem.2]
  have hwrap : azimuth (toDegrees θ) = θ * (180.0 / pi) + 360.0 := wrap_of_mem hturn h0 h360
  rw [hwrap]
  exact ⟨hturn, hmem⟩

/-- Seen from the crossing of the equator and the prime meridian, middle latitudes up to 0.0008
degrees west of it are at least 359.996 degrees from north. -/
theorem departureAzimuth_mem_of_west [Elementary Float] (h : NearestCircular)
    {b : Coordinate Float} (hlatitude : b.latitude.isFinite = true)
    (hlongitude : b.longitude.isFinite = true)
    (hnorth : value b.latitude ∈ Set.Icc (43 : ℝ) 46)
    (hwest : value b.longitude ∈ Set.Icc (-0.0008 : ℝ) (-0.00045)) :
    (departureAzimuth ⟨0.0, 0.0⟩ b).isFinite = true ∧
      value (departureAzimuth ⟨0.0, 0.0⟩ b) ∈ Set.Icc (360 - 1 / 2 ^ 8 : ℝ) (360 - 1 / 2 ^ 15) := by
  have hview := shortlyWest_radians hlatitude hlongitude hnorth hwest
  obtain ⟨hy, hlow, hhigh⟩ := ordinate_mem h hview
  obtain ⟨hx, hx'⟩ := abscissa_mem h hview
  have hπ := Real.pi_le_four
  obtain ⟨hlow', hhigh'⟩ := arg_bounds hx'.1 hx'.2 (l := 1 / 2 ^ 19) (by norm_num)
    (le_neg_of_le_neg hhigh) (neg_le.mp hlow) (by norm_num)
  obtain ⟨hθ, hθ'⟩ := (h.atan2 _ _ hy hx).mem_Icc (l := -(1 / 2 ^ 14)) (u := -(1 / 2 ^ 20))
    ⟨by linarith, by linarith⟩ (rounded_neg_part (by decide)) (rounded_neg_part (by decide))
    (by norm_num) (by norm_num)
  have hdistinct : (⟨0.0, 0.0⟩ : Coordinate Float).same b = false := by
    have hpos : 0 < value b.latitude := by linarith [hnorth.1]
    have hne : ((0.0 : Float) == b.latitude) = false := by
      rw [← Bool.not_eq_true, beq_iff_value rfl hlatitude, show value 0.0 = 0 from rfl]
      exact hpos.ne
    simp [Coordinate.same, hne]
  rw [departureAzimuth, hdistinct]
  exact azimuth_mem_of_west hθ hθ'

end GeoAlmanac.Sphere
