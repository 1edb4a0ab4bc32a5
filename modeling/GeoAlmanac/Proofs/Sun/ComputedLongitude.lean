import GeoAlmanac.Proofs.Sun.ComputedOffset
import GeoAlmanac.Proofs.Binary64.WholeParts

/-! A longitude of one turn in binary64. Its quadrant is exact, and the doubles next to a multiple of
a right angle tell on which side of it the computed radians lie, and how far from it at least. -/

namespace GeoAlmanac.Sun
open Binary64
open scoped Real

theorem value_right : value 90.0 = 90 := (ofInt_natCast (n := 90) (by decide)).2

theorem value_three_quarters : value 270.0 = 270 := (ofInt_natCast (n := 270) (by decide)).2

theorem floor_div_range {x : ℝ} (h0 : 0 ≤ x) (h360 : x < 360) : 0 ≤ ⌊x / 90⌋ ∧ ⌊x / 90⌋ ≤ 3 := by
  have hlt : ⌊x / 90⌋ < 4 := Int.floor_lt.mpr (by push_cast; linarith)
  exact ⟨Int.floor_nonneg.mpr (by positivity), by omega⟩

section
variable {g : ℝ} (hg : rounded g = g)
include hg

/-- Among the units of two powers of two the quotient of a double below the end of a quadrant is not
rounded up to it. -/
theorem rounded_div_lt_of_units {i k m j : ℤ} {n : ℝ} (h : g < 90 * n) (hm : -1022 ≤ m)
    (hj : 2 ^ 52 ≤ j) (hj' : j < 2 ^ 53) (hlow : (2 : ℝ) ^ i < 90 * n)
    (hend : 90 * n = k * 2 ^ (i - 52))
    (hquotient : (k - 1 : ℤ) * (2 : ℝ) ^ (i - 52) / 90 < (j + 1 / 2) * 2 ^ (m - 52))
    (hlast : (j : ℝ) * 2 ^ (m - 52) < n) : rounded (g / 90) < n := by
  have hbelow := le_sub_of_lt_units hg (hend ▸ hlow) (hend ▸ h)
  have hlt := (div_le_div_of_nonneg_right hbelow (by norm_num : (0 : ℝ) ≤ 90)).trans_lt hquotient
  exact (rounded_le_of_lt_units hm hj hj' hlt).trans_lt hlast

theorem rounded_div_lt {n : ℤ} (h0 : 0 ≤ n) (h3 : n ≤ 3) (h : g < 90 * (n + 1)) :
    rounded (g / 90) < n + 1 := by
  interval_cases n
  · exact rounded_div_lt_of_units (i := 6) (k := 6333186975989760) (m := -1)
      (j := 9007199254740991) hg h (by norm_num) (by norm_num) (by norm_num) (by norm_num)
      (by norm_num) (by norm_num) (by norm_num)
  · exact rounded_div_lt_of_units (i := 7) (k := 6333186975989760) (m := 0)
      (j := 9007199254740991) hg h (by norm_num) (by norm_num) (by norm_num) (by norm_num)
      (by norm_num) (by norm_num) (by norm_num)
  · exact rounded_div_lt_of_units (i := 8) (k := 4749890231992320) (m := 1)
      (j := 6755399441055743) hg h (by norm_num) (by norm_num) (by norm_num) (by norm_num)
      (by norm_num) (by norm_num) (by norm_num)
  · exact rounded_div_lt_of_units (i := 8) (k := 6333186975989760) (m := 1)
      (j := 9007199254740991) hg h (by norm_num) (by norm_num) (by norm_num) (by norm_num)
      (by norm_num) (by norm_num) (by norm_num)

theorem floor_rounded_div (h0 : 0 ≤ g) (h360 : g < 360) : ⌊rounded (g / 90)⌋ = ⌊g / 90⌋ := by
  have hfloor := Int.floor_le (g / 90)
  have hfloor' := Int.lt_floor_add_one (g / 90)
  obtain ⟨hlow, hhigh⟩ := floor_div_range h0 h360
  rw [Int.floor_eq_iff]
  constructor
  · rw [← rounded_intCast (n := ⌊g / 90⌋) (abs_lt.mpr ⟨by omega, by omega⟩)]
    exact rounded_mono hfloor
  · exact rounded_div_lt hg hlow hhigh (by linarith)

end

theorem quadrant_value {x : Float} (hx : x.isFinite = true) (h0 : 0 ≤ value x)
    (h360 : value x < 360) :
    (quadrant x).isFinite = true ∧ value (quadrant x) = 90 * ⌊value x / 90⌋ := by
  have hrounds := div_rounds hx (y := 90.0) rfl (by rw [value_right]; norm_num)
  rw [value_right] at hrounds
  obtain ⟨hquotient, -⟩ := hrounds.near (n := 2) (by norm_num) (by norm_num)
    (by rw [abs_of_nonneg (by positivity)]; norm_num; linarith)
  have hvalue := hrounds.value_eq hquotient
  obtain ⟨hwhole, hfloor⟩ := floorOf_value hquotient
    (hvalue ▸ rounded_nonneg (div_nonneg h0 (by norm_num)))
  rw [hvalue, floor_rounded_div (rounded_value hx) h0 h360] at hfloor
  obtain ⟨hlow, hhigh⟩ := floor_div_range h0 h360
  have hexact : (⌊value x / 90⌋ : ℝ) * 90 = (⌊value x / 90⌋ * 90 : ℤ) := by
    push_cast
    ring
  have hgrid := rounded_intCast (n := ⌊value x / 90⌋ * 90) (abs_lt.mpr ⟨by omega, by omega⟩)
  have hproduct := mul_rounds hwhole (y := 90.0) rfl
  rw [hfloor, value_right, hexact] at hproduct
  have hsmall : |((⌊value x / 90⌋ * 90 : ℤ) : ℝ)| < 2 ^ (9 : ℤ) := by
    have habs : |⌊value x / 90⌋ * 90| < 2 ^ 9 := abs_lt.mpr ⟨by omega, by omega⟩
    exact_mod_cast habs
  obtain ⟨hfinite, -⟩ := hproduct.near (n := 9) (by norm_num) (by norm_num) hsmall
  refine ⟨hfinite, (hproduct.value_eq hfinite).trans (hgrid.trans ?_)⟩
  push_cast
  ring

theorem quadrant_range {x : Float} (hx : x.isFinite = true) (h0 : 0 ≤ value x)
    (h360 : value x < 360) : 0 ≤ value (quadrant x) ∧ value (quadrant x) ≤ 270 := by
  obtain ⟨hlow, hhigh⟩ := floor_div_range h0 h360
  have hlow : (0 : ℝ) ≤ ⌊value x / 90⌋ := by exact_mod_cast hlow
  have hhigh : (⌊value x / 90⌋ : ℝ) ≤ 3 := by exact_mod_cast hhigh
  rw [(quadrant_value hx h0 h360).2]
  constructor <;> linarith

theorem value_radian : value (pi / 180.0) = 5030569068109113 / 2 ^ 58 := by
  have hfactor : (pi / 180.0 : Float) = 0.017453292519943295 := by decide +kernel
  rw [hfactor]
  change signFactor .positive * ((5030569068109113 : ℕ) * 2 ^ (-58 : ℤ)) = _
  norm_num [signFactor]

/-- A longitude in radians as it is computed. -/
noncomputable def computedRadians (longitude : ℝ) : ℝ :=
  rounded (longitude * value (pi / 180.0))

section
variable {l : ℝ}

theorem computedRadians_near (h0 : 0 ≤ l) (h360 : l < 360) :
    |toDegrees (computedRadians l) - l| ≤ 0.01 := by
  have hsmall : |l * value (pi / 180.0)| < 2 ^ (3 : ℤ) := by
    rw [value_radian, abs_of_nonneg (by positivity)]
    norm_num
    linarith
  obtain ⟨hl, hu⟩ := abs_le.mp (abs_rounded_sub_le_of_lt (by norm_num) hsmall)
  have hnonneg : 0 ≤ computedRadians l := rounded_nonneg (by rw [value_radian]; positivity)
  change _ ≤ computedRadians l - _ at hl
  change computedRadians l - _ ≤ _ at hu
  obtain ⟨hdl, hdu⟩ := toDegrees_bounds hnonneg
  rw [value_radian] at hl hu
  rw [abs_le]
  norm_num at *
  constructor <;> linarith

/-- Where half a unit is left to a point of the units the longitude is not rounded beyond it. -/
theorem computedRadians_le {m j : ℤ} {b : ℝ} (h : l ≤ b) (hm : -1022 ≤ m) (hj : 2 ^ 52 ≤ j)
    (hj' : j < 2 ^ 53) (hb : b * (5030569068109113 / 2 ^ 58) < (j + 1 / 2) * 2 ^ (m - 52)) :
    computedRadians l ≤ j * 2 ^ (m - 52) := by
  refine rounded_le_of_lt_units hm hj hj' (lt_of_le_of_lt ?_ hb)
  rw [value_radian]
  exact mul_le_mul_of_nonneg_right h (by norm_num)

theorem le_computedRadians {m j : ℤ} {b : ℝ} (h : b ≤ l) (hm : -1022 ≤ m) (hj : 2 ^ 52 ≤ j)
    (hj' : j < 2 ^ 53) (hne : j ≠ 2 ^ 52)
    (hb : (j - 1 / 2) * 2 ^ (m - 52) < b * (5030569068109113 / 2 ^ 58)) :
    j * 2 ^ (m - 52) ≤ computedRadians l := by
  refine units_le_rounded_of_lt hm hj hj' hne (lt_of_lt_of_le hb ?_)
  rw [value_radian]
  exact mul_le_mul_of_nonneg_right h (by norm_num)

theorem computedRadians_right :
    π / 2 - 6.2e-17 ≤ computedRadians 90 ∧ computedRadians 90 ≤ π / 2 - 6e-17 := by
  have hπ := Real.pi_gt_d20
  have hπ' := Real.pi_lt_d20
  have hl := le_computedRadians (l := 90) (m := 0) (j := 7074237752028440) le_rfl (by norm_num)
    (by norm_num) (by norm_num) (by norm_num) (by norm_num)
  have hu := computedRadians_le (l := 90) (m := 0) (j := 7074237752028440) le_rfl (by norm_num)
    (by norm_num) (by norm_num) (by norm_num)
  norm_num at hπ hπ' hl hu ⊢
  constructor <;> linarith

theorem computedRadians_half : π - 1.3e-16 ≤ computedRadians 180 ∧ computedRadians 180 ≤ π := by
  have hπ := Real.pi_gt_d20
  have hπ' := Real.pi_lt_d20
  have hl := le_computedRadians (l := 180) (m := 1) (j := 7074237752028440) le_rfl (by norm_num)
    (by norm_num) (by norm_num) (by norm_num) (by norm_num)
  have hu := computedRadians_le (l := 180) (m := 1) (j := 7074237752028440) le_rfl (by norm_num)
    (by norm_num) (by norm_num) (by norm_num)
  norm_num at hπ hπ' hl hu ⊢
  constructor <;> linarith

/-- Three quarters of a turn are computed as less, by more than the neighbours of a right angle lie
from each other. -/
theorem computedRadians_three_quarters (h : l ≤ 270) :
    computedRadians l ≤ π + (π / 2 - 1.83e-16) := by
  have hπ := Real.pi_gt_d20
  have hu := computedRadians_le (m := 2) (j := 5305678314021330) h (by norm_num)
    (by norm_num) (by norm_num) (by norm_num)
  norm_num at hπ hu ⊢
  linarith

section
variable (hg : rounded l = l)
include hg

theorem computedRadians_lt_right (h : l < 90) : computedRadians l ≤ π / 2 - 1.83e-16 := by
  have hπ := Real.pi_gt_d20
  have hbelow := le_sub_of_lt_units hg (n := 6) (k := 6333186975989760) (by norm_num)
    (by norm_num; exact h)
  have hu := computedRadians_le (m := 0) (j := 7074237752028439) hbelow (by norm_num)
    (by norm_num) (by norm_num) (by norm_num)
  norm_num at hπ hu ⊢
  linarith

theorem lt_computedRadians_right (h : 90 < l) : π / 2 + 6e-17 ≤ computedRadians l := by
  have hπ := Real.pi_lt_d20
  have habove := add_le_of_units_lt hg (n := 6) (k := 6333186975989760) (by norm_num)
    (by norm_num; exact h)
  have hl := le_computedRadians (m := 0) (j := 7074237752028441) habove (by norm_num)
    (by norm_num) (by norm_num) (by norm_num) (by norm_num)
  norm_num at hπ hl ⊢
  linarith

theorem computedRadians_lt_half (h : l < 180) : computedRadians l ≤ π - 5.6e-16 := by
  have hπ := Real.pi_gt_d20
  have hbelow := le_sub_of_lt_units hg (n := 7) (k := 6333186975989760) (by norm_num)
    (by norm_num; exact h)
  have hu := computedRadians_le (m := 1) (j := 7074237752028439) hbelow (by norm_num)
    (by norm_num) (by norm_num) (by norm_num)
  norm_num at hπ hu ⊢
  linarith

theorem lt_computedRadians_half (h : 180 < l) : π ≤ computedRadians l := by
  have hπ := Real.pi_lt_d20
  have habove := add_le_of_units_lt hg (n := 7) (k := 6333186975989760) (by norm_num)
    (by norm_num; exact h)
  have hl := le_computedRadians (m := 1) (j := 7074237752028441) habove (by norm_num)
    (by norm_num) (by norm_num) (by norm_num) (by norm_num)
  norm_num at hπ hl ⊢
  linarith

theorem lt_computedRadians_three_quarters (h : 270 < l) :
    π + π / 2 + 6e-17 ≤ computedRadians l := by
  have hπ := Real.pi_lt_d20
  have habove := add_le_of_units_lt hg (n := 8) (k := 4749890231992320) (by norm_num)
    (by norm_num; exact h)
  have hl := le_computedRadians (m := 2) (j := 5305678314021331) habove (by norm_num)
    (by norm_num) (by norm_num) (by norm_num) (by norm_num)
  norm_num at hπ hl ⊢
  linarith

theorem computedRadians_lt_turn (h : l < 360) : computedRadians l ≤ 2 * π - 5.6e-16 := by
  have hπ := Real.pi_gt_d20
  have hbelow := le_sub_of_lt_units hg (n := 8) (k := 6333186975989760) (by norm_num)
    (by norm_num; exact h)
  have hu := computedRadians_le (m := 2) (j := 7074237752028439) hbelow (by norm_num)
    (by norm_num) (by norm_num) (by norm_num)
  norm_num at hπ hu ⊢
  linarith

end
end

end GeoAlmanac.Sun
