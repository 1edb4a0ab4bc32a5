import GeoAlmanac.Proofs.Reals.Numbers
import GeoAlmanac.Sun.Position

/-! The right ascension read over the reals. Between two solstices it is the longitude with its tangent
compressed, counted from the node in their middle, and so it stays close to the longitude, keeps its
quadrant and grows with it. -/

namespace GeoAlmanac.Sun
open scoped Real

theorem arctan_le_self {v : ℝ} (h : 0 ≤ v) : Real.arctan v ≤ v := by
  have hle := Real.le_tan (Real.arctan_nonneg.mpr h) (Real.arctan_lt_pi_div_two v)
  rwa [Real.tan_arctan] at hle

theorem arctan_scaled {k g x : ℝ} (hk : 0 < k) (hk1 : k ≤ 1) (hg : 0 < g)
    (h : (1 - k) ^ 2 ≤ 4 * k * g ^ 2) (h0 : 0 ≤ x) (hx : x < π / 2) :
    x - g ≤ Real.arctan (k * Real.tan x) ∧ Real.arctan (k * Real.tan x) ≤ x := by
  have harctan : Real.arctan (Real.tan x) = x := Real.arctan_tan (by linarith) hx
  have hu : 0 ≤ Real.tan x := Real.tan_nonneg_of_nonneg_of_le_pi_div_two h0 hx.le
  generalize Real.tan x = u at *
  have hsquare : 0 ≤ k * u * u := by positivity
  have hadd := Real.arctan_add (show u * -(k * u) < 1 by linarith)
  rw [Real.arctan_neg, harctan] at hadd
  set v := (u + -(k * u)) / (1 - u * -(k * u)) with hv
  have hden : 0 < 1 - u * -(k * u) := by linarith
  have hv0 : 0 ≤ v := div_nonneg (by nlinarith) hden.le
  have hv1 : v ≤ g := by
    have hfactor : 0 < 4 * k * g := by positivity
    rw [hv, div_le_iff₀ hden]
    refine le_of_mul_le_mul_left ?_ hfactor
    linarith [sq_nonneg (2 * g * k * u - (1 - k))]
  have hle := arctan_le_self hv0
  have hnonneg := Real.arctan_nonneg.mpr hv0
  constructor <;> linarith

/-- Compressing a tangent by the cosine of the obliquity lowers the angle, by less than two and a
half degrees. -/
theorem arctan_compressed {x : ℝ} (h0 : 0 ≤ x) (hx : x < π / 2) :
    x - 0.043 ≤ Real.arctan (0.91764 * Real.tan x) ∧
      Real.arctan (0.91764 * Real.tan x) ≤ x :=
  arctan_scaled (by norm_num) (by norm_num) (by norm_num) (by norm_num) h0 hx

/-- An offset of less than a quarter turn from a node, in degrees, with its tangent compressed. -/
noncomputable def compressed (longitude : ℝ) : ℝ :=
  toDegrees (Real.arctan (0.91764 * Real.tan (toRadians longitude)))

theorem compressed_near {longitude : ℝ} (h0 : 0 ≤ longitude) (h90 : longitude < 90) :
    longitude - 2.47 ≤ compressed longitude ∧ compressed longitude ≤ longitude := by
  have hπ := Real.pi_gt_d2
  have hright := toRadians_lt h90
  rw [toRadians_right] at hright
  obtain ⟨hl, hu⟩ := arctan_compressed (toRadians_nonneg h0) hright
  have hgap : toDegrees (0.043 : ℝ) ≤ 2.47 := by
    rw [toDegrees_eq, mul_div_assoc', div_le_iff₀ Real.pi_pos]
    linarith
  have hl := toDegrees_le hl
  have hu := toDegrees_le hu
  rw [sub_eq_add_neg, toDegrees_add, toDegrees_toRadians, toDegrees_eq (-_), neg_mul,
    ← toDegrees_eq] at hl
  rw [toDegrees_toRadians] at hu
  unfold compressed
  constructor <;> linarith

theorem compressed_neg (offset : ℝ) : compressed (-offset) = -compressed offset := by
  unfold compressed
  rw [toRadians_neg, Real.tan_neg, mul_neg, Real.arctan_neg, toDegrees_eq, toDegrees_eq, neg_mul]

theorem abs_compressed_sub_le {offset : ℝ} (h : |offset| < 90) :
    |compressed offset - offset| ≤ 2.47 := by
  obtain ⟨hl, hu⟩ := abs_lt.mp h
  rw [abs_le]
  rcases le_total 0 offset with h0 | h0
  · obtain ⟨hlow, hhigh⟩ := compressed_near h0 hu
    constructor <;> linarith
  · obtain ⟨hlow, hhigh⟩ := compressed_near (neg_nonneg.mpr h0) (neg_lt.mp hl)
    rw [compressed_neg] at hlow hhigh
    constructor <;> linarith

theorem strictMonoOn_compressed : StrictMonoOn compressed {offset | |offset| < 90} := by
  intro x hx y hy hlt
  have htan := Real.strictMonoOn_tan (toRadians_mem_Ioo hx) (toRadians_mem_Ioo hy)
    (toRadians_lt hlt)
  exact toDegrees_lt (Real.arctan_strictMono (mul_lt_mul_of_pos_left htan (by norm_num)))

theorem compressed_neg_iff {offset : ℝ} (h : |offset| < 90) :
    compressed offset < 0 ↔ offset < 0 := by
  have hzero : compressed 0 = 0 := by simp [compressed, toRadians_zero, toDegrees_eq]
  have hiff := strictMonoOn_compressed.lt_iff_lt h (show |(0 : ℝ)| < 90 by norm_num)
  rwa [hzero] at hiff

theorem floor_div_of_mem {x : ℝ} {n : ℤ} (hl : 90 * n ≤ x) (hu : x < 90 * (n + 1)) :
    ⌊x / 90⌋ = n := by
  rw [Int.floor_eq_iff]
  constructor <;> linarith

theorem quadrant_of_mem {degrees : ℝ} {n : ℤ} (hl : 90 * n ≤ degrees)
    (hu : degrees < 90 * (n + 1)) : quadrant degrees = 90 * n := by
  unfold quadrant
  norm_num [floor_div_of_mem hl hu]
  ring

theorem toDegrees_arctan_lt (v : ℝ) : toDegrees (Real.arctan v) < 90 := by
  have h := toDegrees_lt (Real.arctan_lt_pi_div_two v)
  rwa [← toRadians_right, toDegrees_toRadians] at h

theorem neg_lt_toDegrees_arctan (v : ℝ) : -90 < toDegrees (Real.arctan v) := by
  have h := toDegrees_lt (Real.neg_pi_div_two_lt_arctan v)
  rwa [← toRadians_right, ← toRadians_neg, toDegrees_toRadians] at h

theorem abs_compressed_lt (offset : ℝ) : |compressed offset| < 90 :=
  abs_lt.mpr ⟨neg_lt_toDegrees_arctan _, toDegrees_arctan_lt _⟩

/-- The right ascension in degrees is the quadrant of the longitude and the angle of the compressed
tangent, which counts from the end of the quadrant where it is negative. -/
theorem rightAscension_eq (longitude : ℝ) :
    15 * rightAscension longitude =
      quadrant longitude + toDegrees (Real.arctan (0.91764 * Real.tan (toRadians longitude))) +
        if 0.91764 * Real.tan (toRadians longitude) < 0 then 90 else 0 := by
  unfold rightAscension
  simp only [tan_eq, atan_eq]
  generalize 0.91764 * Real.tan (toRadians longitude) = v
  have hlt := toDegrees_arctan_lt v
  have hgt := neg_lt_toDegrees_arctan v
  split_ifs with hv
  · have hneg : toDegrees (Real.arctan v) < 0 := by
      have h := toDegrees_lt (Real.arctan_lt_zero.mpr hv)
      rwa [← toRadians_zero, toDegrees_toRadians] at h
    have hwrap : Angle.wrap (toDegrees (Real.arctan v)) = toDegrees (Real.arctan v) + 360 := by
      have h := Angle.wrap_add_turns (toDegrees (Real.arctan v)) 1
      rw [← h, Angle.wrap_of_mem] <;> push_cast <;> linarith
    have hquadrant : quadrant (toDegrees (Real.arctan v) + 360) = 90 * (3 : ℤ) :=
      quadrant_of_mem (by push_cast; linarith) (by push_cast; linarith)
    rw [hwrap, hquadrant]
    norm_num
    ring
  · have hnonneg : 0 ≤ toDegrees (Real.arctan v) := by
      have h := toDegrees_le (Real.arctan_nonneg.mpr (not_lt.mp hv))
      rwa [← toRadians_zero, toDegrees_toRadians] at h
    have hquadrant : quadrant (toDegrees (Real.arctan v)) = 90 * (0 : ℤ) :=
      quadrant_of_mem (by push_cast; linarith) (by push_cast; linarith)
    rw [Angle.wrap_of_mem hnonneg (by linarith), hquadrant]
    norm_num
    ring

theorem toRadians_half_turns (j : ℤ) (x : ℝ) :
    toRadians (180 * j + x) = toRadians x + j * π := by
  rw [toRadians_eq, toRadians_eq]
  ring

/-- Between two solstices the offset from the node in their middle is compressed. -/
theorem rightAscension_branch (j : ℤ) {offset : ℝ} (h : |offset| < 90) :
    15 * rightAscension (180 * j + offset) = 180 * j + compressed offset := by
  obtain ⟨hl, hu⟩ := abs_lt.mp h
  obtain ⟨hlow, hhigh⟩ := toRadians_mem_Ioo h
  rw [rightAscension_eq, toRadians_half_turns, Real.tan_add_int_mul_pi]
  rcases lt_or_ge offset 0 with hneg | hnonneg
  · have hquadrant : quadrant (180 * j + offset) = 90 * (2 * j - 1 : ℤ) :=
      quadrant_of_mem (by push_cast; linarith) (by push_cast; linarith)
    have htan : Real.tan (toRadians offset) < 0 :=
      Real.tan_neg_of_neg_of_pi_div_two_lt (toRadians_zero ▸ toRadians_lt hneg) hlow
    rw [hquadrant, if_pos (by linarith)]
    unfold compressed
    push_cast
    ring
  · have hquadrant : quadrant (180 * j + offset) = 90 * (2 * j : ℤ) :=
      quadrant_of_mem (by push_cast; linarith) (by push_cast; linarith)
    have htan : 0 ≤ Real.tan (toRadians offset) :=
      Real.tan_nonneg_of_nonneg_of_le_pi_div_two (toRadians_nonneg hnonneg) hhigh.le
    rw [hquadrant, if_neg (by linarith)]
    unfold compressed
    push_cast
    ring

theorem rightAscension_solstice (j : ℤ) :
    15 * rightAscension (180 * j + 90 : ℝ) = 180 * j + 90 := by
  have hquadrant : quadrant (180 * j + 90 : ℝ) = 90 * (2 * j + 1 : ℤ) :=
    quadrant_of_mem (by push_cast; linarith) (by push_cast; linarith)
  rw [rightAscension_eq, toRadians_half_turns, toRadians_right, Real.tan_add_int_mul_pi, hquadrant,
    Real.tan_pi_div_two]
  norm_num [toDegrees_eq]
  ring

theorem exists_branch (longitude : ℝ) :
    ∃ (j : ℤ) (offset : ℝ), longitude = 180 * j + offset ∧ (|offset| < 90 ∨ offset = 90) := by
  have hlow := Int.le_ceil ((longitude - 90) / 180)
  have hhigh := Int.ceil_lt_add_one ((longitude - 90) / 180)
  refine ⟨⌈(longitude - 90) / 180⌉, longitude - 180 * ⌈(longitude - 90) / 180⌉, by ring, ?_⟩
  rcases hlow.lt_or_eq with hlt | heq
  · left
    rw [abs_lt]
    constructor <;> linarith
  · right
    linarith

theorem rightAscension_near (longitude : ℝ) :
    |15 * rightAscension longitude - longitude| ≤ 2.47 := by
  obtain ⟨j, offset, rfl, h | rfl⟩ := exists_branch longitude
  · rw [rightAscension_branch j h, add_sub_add_left_eq_sub]
    exact abs_compressed_sub_le h
  · rw [rightAscension_solstice j, sub_self, abs_zero]
    norm_num

theorem exists_branch_of_ne {longitude : ℝ} (h : ∀ j : ℤ, longitude ≠ 180 * j + 90) :
    ∃ (j : ℤ) (offset : ℝ), longitude = 180 * j + offset ∧ |offset| < 90 := by
  obtain ⟨j, offset, rfl, hlt | rfl⟩ := exists_branch longitude
  · exact ⟨j, offset, rfl, hlt⟩
  · exact absurd rfl (h j)

theorem tan_branch (j : ℤ) (offset : ℝ) :
    Real.tan (toRadians (180 * j + compressed offset)) =
      0.91764 * Real.tan (toRadians (180 * j + offset)) := by
  rw [toRadians_half_turns, toRadians_half_turns, Real.tan_add_int_mul_pi,
    Real.tan_add_int_mul_pi]
  unfold compressed
  rw [toRadians_toDegrees, Real.tan_arctan]

theorem floor_branch (j : ℤ) {offset : ℝ} (h : |offset| < 90) :
    ⌊(180 * j + compressed offset) / 90⌋ = ⌊(180 * j + offset) / 90⌋ := by
  have hquadrant {x : ℝ} (hx : |x| < 90) :
      ⌊(180 * j + x) / 90⌋ = 2 * j - if x < 0 then 1 else 0 := by
    obtain ⟨hl, hu⟩ := abs_lt.mp hx
    rw [Int.floor_eq_iff]
    split_ifs with hneg
    · push_cast
      constructor <;> linarith
    · push_cast
      constructor <;> linarith
  simp only [hquadrant h, hquadrant (abs_compressed_lt offset), compressed_neg_iff h]

theorem rightAscension_lt {l m : ℝ} (hl : ∀ j : ℤ, l ≠ 180 * j + 90)
    (hm : ∀ j : ℤ, m ≠ 180 * j + 90) (h : l < m) : rightAscension l < rightAscension m := by
  obtain ⟨i, x, rfl, hx⟩ := exists_branch_of_ne hl
  obtain ⟨j, y, rfl, hy⟩ := exists_branch_of_ne hm
  suffices 15 * rightAscension (180 * i + x) < 15 * rightAscension (180 * j + y) by linarith
  rw [rightAscension_branch i hx, rightAscension_branch j hy]
  obtain ⟨hxl, hxu⟩ := abs_lt.mp hx
  obtain ⟨hyl, hyu⟩ := abs_lt.mp hy
  rcases lt_trichotomy i j with hij | rfl | hji
  · have hnext : (i : ℝ) + 1 ≤ j := by exact_mod_cast hij
    obtain ⟨_, hu⟩ := abs_lt.mp (abs_compressed_lt x)
    obtain ⟨hl, _⟩ := abs_lt.mp (abs_compressed_lt y)
    linarith
  · have hlt := strictMonoOn_compressed hx hy (by linarith)
    linarith
  · have hnext : (j : ℝ) + 1 ≤ i := by exact_mod_cast hji
    linarith

theorem ne_solstice {longitude : ℝ} (h : longitude ∈ Set.Ico (0 : ℝ) 360 \ {90, 270}) (j : ℤ) :
    longitude ≠ 180 * j + 90 := by
  rintro rfl
  obtain ⟨⟨hl, hu⟩, hne⟩ := h
  have hlow : (-1 : ℝ) < j := by linarith
  have hhigh : (j : ℝ) < 2 := by linarith
  have hlow : -1 < j := by exact_mod_cast hlow
  have hhigh : j < 2 := by exact_mod_cast hhigh
  obtain rfl | rfl : j = 0 ∨ j = 1 := by omega
  · norm_num at hne
  · norm_num at hne

/-- Over one turn, off the solstices, the right ascension stays in the quadrant of the longitude and
near it, its tangent is that of the longitude compressed by the cosine of the obliquity, and it grows
with the longitude. -/
theorem rightAscension_follows_longitude :
    (∀ longitude ∈ Set.Ico (0 : ℝ) 360 \ {90, 270},
      ⌊rightAscension longitude * 15 / 90⌋ = ⌊longitude / 90⌋ ∧
      Real.tan (toRadians (rightAscension longitude * 15)) =
        0.91764 * Real.tan (toRadians longitude) ∧
      |rightAscension longitude * 15 - longitude| < 3) ∧
    StrictMonoOn rightAscension (Set.Ico (0 : ℝ) 360 \ {90, 270}) := by
  constructor
  · intro longitude hmem
    have hnear := rightAscension_near longitude
    obtain ⟨j, offset, rfl, h⟩ := exists_branch_of_ne (ne_solstice hmem)
    rw [mul_comm (rightAscension _) 15, rightAscension_branch j h] at *
    exact ⟨floor_branch j h, tan_branch j offset, hnear.trans_lt (by norm_num)⟩
  · intro l hl m hm hlt
    exact rightAscension_lt (ne_solstice hl) (ne_solstice hm) hlt

/-- One degree before the node the right ascension is in the last quadrant, and ten degrees past the
summer solstice in the second. -/
theorem rightAscension_follows_longitude_late :
    (359 : ℝ) ∈ Set.Ico (0 : ℝ) 360 \ {90, 270} ∧ (100 : ℝ) ∈ Set.Ico (0 : ℝ) 360 \ {90, 270} ∧
      ⌊rightAscension (359 : ℝ) * 15 / 90⌋ = 3 ∧ ⌊rightAscension (100 : ℝ) * 15 / 90⌋ = 1 ∧
      |rightAscension (359 : ℝ) * 15 - 359| < 3 ∧
      rightAscension (100 : ℝ) < rightAscension (359 : ℝ) := by
  have hlate : (359 : ℝ) ∈ Set.Ico (0 : ℝ) 360 \ {90, 270} := by norm_num
  have hsecond : (100 : ℝ) ∈ Set.Ico (0 : ℝ) 360 \ {90, 270} := by norm_num
  obtain ⟨hfollows, hgrows⟩ := rightAscension_follows_longitude
  obtain ⟨hfloor, _, hnear⟩ := hfollows 359 hlate
  obtain ⟨hfloor', _, _⟩ := hfollows 100 hsecond
  refine ⟨hlate, hsecond, ?_, ?_, hnear, hgrows hsecond hlate (by norm_num)⟩
  · rw [hfloor]
    norm_num
  · rw [hfloor']
    norm_num

end GeoAlmanac.Sun
