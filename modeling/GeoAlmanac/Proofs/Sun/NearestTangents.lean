import GeoAlmanac.Proofs.Sun.ComputedLongitude
import GeoAlmanac.Proofs.Binary64.Turns

/-! The right ascension in binary64. With a correctly rounded tangent and arctangent it stays close
to the true longitude everywhere but at 270 degrees, where the computed angle lies in the quadrant
before the longitude. -/

namespace GeoAlmanac.Sun
open Binary64
open scoped Real

/-- What is relied on of the tangent and the arctangent: they are correctly rounded. -/
structure NearestTangents [Elementary Float] : Prop where
  tan (x : Float) : x.isFinite = true → Rounds (tan x) (Real.tan (value x))
  atan (x : Float) : x.isFinite = true → Rounds (atan x) (Real.arctan (value x))

theorem toRadians_value {l : Float} (hl : l.isFinite = true) (h0 : 0 ≤ value l)
    (h360 : value l < 360) : (toRadians l).isFinite = true ∧
      value (toRadians l) = computedRadians (value l) := by
  have hrounds := mul_rounds hl (y := pi / 180.0) rfl
  obtain ⟨hfinite, -⟩ := hrounds.near (n := 9) (by norm_num) (by norm_num) (by
    rw [value_radian, abs_of_nonneg (by positivity)]
    norm_num
    linarith)
  exact ⟨hfinite, hrounds.value_eq hfinite⟩

section
variable [Elementary Float] (h : NearestTangents)
include h

theorem toDegrees_atan_value {r : Float} (hr : r.isFinite = true)
    (htan : |Real.tan (value r)| < 2 ^ (60 : ℤ)) :
    (toDegrees (atan (0.91764 * tan r))).isFinite = true ∧
      value (toDegrees (atan (0.91764 * tan r))) = computedOffset (value r) := by
  have htangent := h.tan r hr
  obtain ⟨ht, hnear⟩ := htangent.near (n := 60) (by norm_num) (by norm_num) htan
  have hslope := mul_rounds (x := 0.91764) rfl ht
  have htvalue := htangent.value_eq ht
  obtain ⟨hs, -⟩ := hslope.near (n := 61) (by norm_num) (by norm_num) (by
    obtain ⟨hl, hu⟩ := abs_lt.mp htan
    obtain ⟨hl', hu'⟩ := abs_le.mp hnear
    rw [value_factor, abs_lt]
    norm_num at *
    constructor <;> linarith)
  have harctan := h.atan _ hs
  have hbound := abs_arctan_lt (value (0.91764 * tan r))
  obtain ⟨ha, hnear'⟩ := harctan.near (n := 1) (by norm_num) (by norm_num)
    (hbound.trans (by norm_num))
  have hdegrees := mul_rounds ha (y := 180.0 / pi) rfl
  obtain ⟨hd, -⟩ := hdegrees.near (n := 7) (by norm_num) (by norm_num) (by
    obtain ⟨hl, hu⟩ := abs_lt.mp hbound
    obtain ⟨hl', hu'⟩ := abs_le.mp hnear'
    rw [value_degrees, abs_lt]
    norm_num at *
    constructor <;> linarith)
  refine ⟨hd, (hdegrees.value_eq hd).trans ?_⟩
  rw [harctan.value_eq ha, hslope.value_eq hs, htvalue]
  rfl

theorem angle_value {l : Float} (hl : l.isFinite = true) (h0 : 0 ≤ value l) (h360 : value l < 360)
    {j : ℤ} {o : ℝ} (ho : |o| ≤ π / 2 - 6e-17) (hnode : computedRadians (value l) = o + j * π) :
    (toDegrees (atan (0.91764 * tan (toRadians l)))).isFinite = true ∧
      value (toDegrees (atan (0.91764 * tan (toRadians l)))) = computedOffset o := by
  obtain ⟨hr, hvalue⟩ := toRadians_value hl h0 h360
  have htan : |Real.tan (value (toRadians l))| < 2 ^ (60 : ℤ) := by
    rw [hvalue, hnode, Real.tan_add_int_mul_pi]
    exact (abs_tan_le_inv (by norm_num) ho).trans_lt (by norm_num)
  rw [← computedOffset_add_half_turns o j, ← hnode, ← hvalue]
  exact toDegrees_atan_value h hr htan

end

/-- The least representative of the angle that is computed from a longitude. -/
def principal [Elementary Float] (l : Float) : Float :=
  Angle.wrap (toDegrees (atan (0.91764 * tan (toRadians l))))

section
variable [Elementary Float] (h : NearestTangents) {l : Float} (hl : l.isFinite = true)
  (h0 : 0 ≤ value l) (h360 : value l < 360) {j : ℤ} {o : ℝ}
include h hl h0 h360

theorem principal_range (ho : |o| ≤ π / 2 - 6e-17) (hnode : computedRadians (value l) = o + j * π) :
    (principal l).isFinite = true ∧ 0 ≤ value (principal l) ∧ value (principal l) < 360 :=
  wrap_range (angle_value h hl h0 h360 ho hnode).1

variable (ho0 : 0 ≤ o) (ho : o ≤ π / 2 - 6e-17)
include ho0 ho

theorem principal_after (hnode : computedRadians (value l) = o + j * π) :
    value (principal l) = computedOffset o := by
  have hπ := Real.pi_gt_three
  obtain ⟨hd, hvalue⟩ := angle_value h hl h0 h360 (by rwa [abs_of_nonneg ho0]) hnode
  have hnonneg := computedOffset_nonneg ho0 (by linarith)
  have hright := computedOffset_le_right o
  rw [principal, wrap_of_mem hd (hvalue ▸ hnonneg) (hvalue ▸ by linarith), hvalue]

theorem principal_before (hnode : computedRadians (value l) = -o + j * π) :
    value (principal l) = if rounded (360 - computedOffset o) = 360 then 0
      else rounded (360 - computedOffset o) := by
  have hπ := Real.pi_gt_three
  obtain ⟨hd, hvalue⟩ := angle_value h hl h0 h360 (by rwa [abs_neg, abs_of_nonneg ho0]) hnode
  rw [computedOffset_neg] at hvalue
  have hnonneg := computedOffset_nonneg ho0 (by linarith)
  have hright := computedOffset_le_right o
  rw [principal]
  rcases hnonneg.eq_or_lt with hzero | hpos
  · rw [← hzero, neg_zero] at hvalue
    rw [wrap_of_mem hd hvalue.ge (hvalue ▸ by norm_num), hvalue, ← hzero, sub_zero, rounded_turn,
      if_pos rfl]
  · have hturn : (0 : ℝ) < 360 := by norm_num
    have hsmall := residue_of_mem hturn hnonneg (by linarith)
    have hresidue := residue_neg_of_pos hturn (hsmall.symm ▸ hpos)
    rw [hsmall] at hresidue
    rw [wrap_value_of_neg hd (hvalue ▸ neg_lt_zero.mpr hpos), hvalue, hresidue]

end

/-- Adding the quadrants and going over to hours hardly changes the sum. -/
theorem hours_near {p q q' : Float} (hp : p.isFinite = true) (hq : q.isFinite = true)
    (hq' : q'.isFinite = true) (hp0 : 0 ≤ value p) (hp360 : value p < 360) (hq0 : 0 ≤ value q)
    (hq270 : value q ≤ 270) (hq0' : 0 ≤ value q') (hq270' : value q' ≤ 270) :
    ((p + q - q') / 15.0).isFinite = true ∧
      |15 * value ((p + q - q') / 15.0) - (value p + value q - value q')| ≤ 1e-12 := by
  have hfifteen : value 15.0 = 15 := (ofInt_natCast (n := 15) (by decide)).2
  obtain ⟨hsum, hnear⟩ := (add_rounds hp hq).near (n := 10) (by norm_num) (by norm_num) (by
    rw [abs_of_nonneg (by positivity)]
    norm_num
    linarith)
  obtain ⟨hl, hu⟩ := abs_le.mp hnear
  obtain ⟨hdiff, hnear'⟩ := (sub_rounds hsum hq').near (n := 10) (by norm_num) (by norm_num) (by
    rw [abs_lt]
    norm_num at *
    constructor <;> linarith)
  obtain ⟨hl', hu'⟩ := abs_le.mp hnear'
  obtain ⟨hhours, hnear''⟩ := (div_rounds hdiff (y := 15.0) rfl
    (by rw [hfifteen]; norm_num)).near (n := 7) (by norm_num) (by norm_num) (by
      rw [hfifteen, abs_lt]
      norm_num at *
      constructor <;> linarith)
  obtain ⟨hl'', hu''⟩ := abs_le.mp hnear''
  rw [hfifteen] at hl'' hu''
  refine ⟨hhours, ?_⟩
  rw [abs_le]
  norm_num at *
  constructor <;> linarith

section
variable [Elementary Float] {l : Float} (hl : l.isFinite = true) (h0 : 0 ≤ value l)
  (h360 : value l < 360)
include hl h0 h360

theorem rightAscension_near_principal (hp : (principal l).isFinite = true)
    (hp0 : 0 ≤ value (principal l)) (hp360 : value (principal l) < 360) :
    (rightAscension l).isFinite = true ∧
      |15 * value (rightAscension l) - (value (principal l) + 90 * ⌊value l / 90⌋ -
        90 * ⌊value (principal l) / 90⌋)| ≤ 1e-12 := by
  obtain ⟨hq, hqvalue⟩ := quadrant_value hl h0 h360
  obtain ⟨hq', hqvalue'⟩ := quadrant_value hp hp0 hp360
  obtain ⟨hq0, hq270⟩ := quadrant_range hl h0 h360
  obtain ⟨hq0', hq270'⟩ := quadrant_range hp hp0 hp360
  rw [← hqvalue, ← hqvalue']
  exact hours_near hp hq hq' hp0 hp360 hq0 hq270 hq0' hq270'

variable (h : NearestTangents)
include h

theorem near_after {j : ℤ} {o : ℝ} (ho0 : 0 ≤ o) (ho : o ≤ π / 2 - 1.83e-16)
    (hnode : computedRadians (value l) = o + j * π) : (rightAscension l).isFinite = true ∧
      |15 * value (rightAscension l) - (value l + (90 * ⌊value l / 90⌋ - 180 * j))| ≤ 2.9 := by
  have hgap : o ≤ π / 2 - 6e-17 := ho.trans (sub_le_sub_left (by norm_num) _)
  obtain ⟨hp, hp0, hp360⟩ := principal_range h hl h0 h360 (by rwa [abs_of_nonneg ho0]) hnode
  have hvalue := principal_after h hl h0 h360 ho0 hgap hnode
  have hright := computedOffset_lt_right ho0 ho
  have hquadrant : ⌊value (principal l) / 90⌋ = 0 :=
    floor_div_of_mem (by push_cast; linarith) (by push_cast; linarith)
  obtain ⟨hfinite, hnear⟩ := rightAscension_near_principal hl h0 h360 hp hp0 hp360
  have hoffset := computedOffset_near ho0 (by linarith)
  have hradians := computedRadians_near h0 h360
  rw [hnode, toDegrees_half_turns] at hradians
  rw [hquadrant, hvalue] at hnear
  refine ⟨hfinite, ?_⟩
  rw [abs_le] at *
  push_cast at hnear
  constructor <;> linarith

theorem near_before {j : ℤ} {o : ℝ} (ho0 : 5.6e-16 ≤ o) (ho : o ≤ π / 2 - 6e-17)
    (hnode : computedRadians (value l) = -o + j * π) : (rightAscension l).isFinite = true ∧
      |15 * value (rightAscension l) - (value l + (90 * ⌊value l / 90⌋ + 90 - 180 * j))| ≤ 2.9 := by
  have hpos : 0 ≤ o := le_trans (by norm_num) ho0
  have hright : o < π / 2 := ho.trans_lt (sub_lt_self _ (by norm_num))
  obtain ⟨hp, hp0, hp360⟩ := principal_range h hl h0 h360
    (by rwa [abs_neg, abs_of_nonneg hpos]) hnode
  have hvalue := principal_before h hl h0 h360 hpos ho hnode
  have hlow := le_computedOffset hpos hright ho0
  have hhigh := computedOffset_le_right o
  have hturn := rounded_le_of_lt_units (n := 8) (k := 6333186975989759)
    (x := 360 - computedOffset o) (by norm_num) (by norm_num) (by norm_num)
    (by norm_num at hlow ⊢; linarith)
  have hless : rounded (360 - computedOffset o) < 360 := hturn.trans_lt (by norm_num)
  rw [if_neg hless.ne] at hvalue
  have hlast : 270 ≤ rounded (360 - computedOffset o) := by
    have hmono := rounded_mono (show ((270 : ℤ) : ℝ) ≤ 360 - computedOffset o by
      push_cast
      linarith)
    rw [rounded_intCast (by norm_num)] at hmono
    exact_mod_cast hmono
  have hquadrant : ⌊value (principal l) / 90⌋ = 3 :=
    floor_div_of_mem (by push_cast; linarith) (by push_cast; linarith)
  obtain ⟨hfinite, hnear⟩ := rightAscension_near_principal hl h0 h360 hp hp0 hp360
  have hoffset := computedOffset_near hpos hright
  have hradians := computedRadians_near h0 h360
  have hround := abs_rounded_sub_le_of_lt (x := 360 - computedOffset o) (n := 9) (by norm_num)
    (by rw [abs_of_nonneg (by linarith)]; norm_num; linarith)
  rw [hnode, toDegrees_half_turns, toDegrees_eq (-o), neg_mul, ← toDegrees_eq] at hradians
  rw [hquadrant, hvalue] at hnear
  refine ⟨hfinite, ?_⟩
  rw [abs_le] at *
  norm_num at *
  constructor <;> linarith

theorem near_right (hright : value l = 90) : (rightAscension l).isFinite = true ∧
    |15 * value (rightAscension l) - value l| ≤ 1e-12 := by
  obtain ⟨hlow, hhigh⟩ := computedRadians_right
  have hpos : 0 ≤ computedRadians 90 := by linarith [Real.pi_gt_three]
  have hnode : computedRadians (value l) = computedRadians 90 + (0 : ℤ) * π := by
    rw [hright, Int.cast_zero, zero_mul, add_zero]
  obtain ⟨hp, hp0, hp360⟩ := principal_range h hl h0 h360 (by rwa [abs_of_nonneg hpos]) hnode
  have hvalue := principal_after h hl h0 h360 hpos hhigh hnode
  rw [computedOffset_right hlow (hhigh.trans_lt (sub_lt_self _ (by norm_num)))] at hvalue
  obtain ⟨hfinite, hnear⟩ := rightAscension_near_principal hl h0 h360 hp hp0 hp360
  rw [hvalue, hright, add_sub_cancel_right] at hnear
  exact ⟨hfinite, hright ▸ hnear⟩

theorem near_half (hhalf : value l = 180) : (rightAscension l).isFinite = true ∧
    |15 * value (rightAscension l) - value l| ≤ 1e-12 := by
  obtain ⟨hlow, hhigh⟩ := computedRadians_half
  have hπ := Real.pi_gt_three
  have hnode : computedRadians (value l) = -(π - computedRadians 180) + (1 : ℤ) * π := by
    rw [hhalf]
    push_cast
    ring
  have hgap : π - computedRadians 180 ≤ π / 2 - 6e-17 := by
    norm_num at hlow ⊢
    linarith
  have hpos : 0 ≤ π - computedRadians 180 := sub_nonneg.mpr hhigh
  obtain ⟨hp, hp0, hp360⟩ := principal_range h hl h0 h360
    (by rwa [abs_neg, abs_of_nonneg hpos]) hnode
  have hvalue := principal_before h hl h0 h360 hpos hgap hnode
  have hsmall := computedOffset_le hpos (hgap.trans_lt (sub_lt_self _ (by norm_num)))
    (sub_le_comm.mp hlow)
  have hnonneg := computedOffset_nonneg hpos (hgap.trans_lt (sub_lt_self _ (by norm_num)))
  have hturn : rounded (360 - computedOffset (π - computedRadians 180)) = 360 := by
    refine le_antisymm ((rounded_mono ?_).trans_eq rounded_turn) ?_
    · linarith
    · have hunits := units_le_rounded_of_lt (n := 8) (k := 6333186975989760)
        (x := 360 - computedOffset (π - computedRadians 180)) (by norm_num) (by norm_num)
        (by norm_num) (by norm_num) (by norm_num at hsmall ⊢; linarith)
      exact le_trans (by norm_num) hunits
  rw [if_pos hturn] at hvalue
  obtain ⟨hfinite, hnear⟩ := rightAscension_near_principal hl h0 h360 hp hp0 hp360
  have hsecond : ⌊(180 : ℝ) / 90⌋ = 2 := floor_div_of_mem (by norm_num) (by norm_num)
  rw [hvalue, hhalf, hsecond] at hnear
  norm_num at hnear
  rw [hhalf]
  exact ⟨hfinite, by norm_num; exact hnear⟩

/-- The right ascension in degrees stays near the longitude; at 270 degrees, where the computed
angle has not come to the last quadrant yet, it is a quarter turn ahead. -/
theorem rightAscension_near_longitude : (rightAscension l).isFinite = true ∧
    |15 * value (rightAscension l) - (value l + if value l = 270 then 90 else 0)| ≤ 2.9 := by
  have hg := rounded_value hl
  have hπ := Real.pi_gt_three
  have hquadrant (n : ℤ) (hlow : 90 * n ≤ value l) (hhigh : value l < 90 * (n + 1)) :
      ⌊value l / 90⌋ = n := floor_div_of_mem hlow hhigh
  rcases lt_trichotomy (value l) 90 with hlt | heq | hgt
  · have hnonneg : 0 ≤ computedRadians (value l) :=
      rounded_nonneg (by rw [value_radian]; positivity)
    obtain ⟨hfinite, hnear⟩ := near_after hl h0 h360 h (j := 0) hnonneg
      (computedRadians_lt_right hg hlt) (by simp)
    rw [hquadrant 0 (by push_cast; linarith) (by push_cast; linarith)] at hnear
    rw [if_neg (by linarith)]
    exact ⟨hfinite, by norm_num at hnear ⊢; exact hnear⟩
  · obtain ⟨hfinite, hnear⟩ := near_right hl h0 h360 h heq
    rw [if_neg (by linarith), add_zero]
    exact ⟨hfinite, hnear.trans (by norm_num)⟩
  rcases lt_trichotomy (value l) 180 with hlt | heq | hgt'
  · have hlow := lt_computedRadians_right hg hgt
    have hhigh := computedRadians_lt_half hg hlt
    obtain ⟨hfinite, hnear⟩ := near_before hl h0 h360 h (j := 1)
      (o := π - computedRadians (value l)) (by linarith) (by linarith) (by push_cast; ring)
    rw [hquadrant 1 (by push_cast; linarith) (by push_cast; linarith)] at hnear
    rw [if_neg (by linarith)]
    exact ⟨hfinite, by norm_num at hnear ⊢; exact hnear⟩
  · obtain ⟨hfinite, hnear⟩ := near_half hl h0 h360 h heq
    rw [if_neg (by linarith), add_zero]
    exact ⟨hfinite, hnear.trans (by norm_num)⟩
  rcases le_or_gt (value l) 270 with hle | hgt''
  · have hlow := lt_computedRadians_half hg hgt'
    have hhigh := computedRadians_three_quarters hle
    obtain ⟨hfinite, hnear⟩ := near_after hl h0 h360 h (j := 1)
      (o := computedRadians (value l) - π) (by linarith) (by linarith) (by push_cast; ring)
    refine ⟨hfinite, ?_⟩
    rcases hle.lt_or_eq with hlt | heq
    · rw [hquadrant 2 (by push_cast; linarith) (by push_cast; linarith)] at hnear
      rw [if_neg hlt.ne]
      norm_num at hnear ⊢
      exact hnear
    · rw [hquadrant 3 (by push_cast; linarith) (by push_cast; linarith)] at hnear
      rw [if_pos heq]
      norm_num at hnear ⊢
      exact hnear
  · have hlow := lt_computedRadians_three_quarters hg hgt''
    have hhigh := computedRadians_lt_turn hg h360
    obtain ⟨hfinite, hnear⟩ := near_before hl h0 h360 h (j := 2)
      (o := 2 * π - computedRadians (value l)) (by linarith) (by linarith) (by push_cast; ring)
    rw [hquadrant 3 (by push_cast; linarith) (by push_cast; linarith)] at hnear
    rw [if_neg (by linarith)]
    exact ⟨hfinite, by norm_num at hnear ⊢; exact hnear⟩

end

/-- In binary64 the right ascension is finite, and within three degrees of the longitude exactly
where the longitude is not 270 degrees. -/
theorem rightAscension_near_iff [Elementary Float] (h : NearestTangents) {l : Float} (h0 : 0.0 ≤ l)
    (h360 : l < 360.0) : (rightAscension l).isFinite = true ∧
      (|15 * value (rightAscension l) - value l| < 3 ↔ l ≠ 270.0) := by
  have hl : l.isFinite = true := isFinite_of_le_of_le rfl rfl h0 (Binary64.le_of_lt h360)
  have hsame : l = 270.0 ↔ value l = 270 :=
    ⟨fun heq => heq ▸ value_three_quarters, fun heq => eq_of_value_eq hl rfl
      (heq.trans value_three_quarters.symm) (heq ▸ by norm_num)⟩
  obtain ⟨hfinite, hnear⟩ := rightAscension_near_longitude hl ((le_iff_value rfl hl).mp h0)
    (value_turn ▸ (lt_iff_value hl rfl).mp h360) h
  refine ⟨hfinite, ?_⟩
  rw [ne_eq, hsame]
  split_ifs at hnear with heq
  · rw [abs_le] at hnear
    simp only [heq, not_true_eq_false, iff_false, not_lt]
    exact le_trans (by norm_num at *; linarith) (le_abs_self _)
  · rw [add_zero] at hnear
    exact ⟨fun _ => heq, fun _ => hnear.trans_lt (by norm_num)⟩

/-- The elementary functions with every value rounded to a nearest double. -/
@[reducible] noncomputable def nearestFunctions : Elementary Float where
  sin x := nearestDouble (Real.sin (value x))
  cos x := nearestDouble (Real.cos (value x))
  tan x := nearestDouble (Real.tan (value x))
  asin x := nearestDouble (Real.arcsin (value x))
  acos x := nearestDouble (Real.arccos (value x))
  atan x := nearestDouble (Real.arctan (value x))
  atan2 y x := nearestDouble (Complex.arg ⟨value x, value y⟩)
  hypot x y := nearestDouble √(value x ^ 2 + value y ^ 2)
  log x := nearestDouble (Real.log (value x))

theorem nearestTangents_nearestFunctions : @NearestTangents nearestFunctions :=
  @NearestTangents.mk nearestFunctions (fun _ _ => nearestDouble_rounds _)
    fun _ _ => nearestDouble_rounds _

/-- A hair before the winter solstice the right ascension is near the longitude. -/
theorem rightAscension_near_iff_before_solstice :
    @NearestTangents nearestFunctions ∧ (0.0 : Float) ≤ 269.99999999999994 ∧
      (269.99999999999994 : Float) < 360.0 ∧
      |15 * value (@rightAscension Float _ nearestFunctions 269.99999999999994) -
        value 269.99999999999994| < 3 := by
  refine ⟨nearestTangents_nearestFunctions, by decide +kernel, by decide +kernel, ?_⟩
  exact (@rightAscension_near_iff nearestFunctions nearestTangents_nearestFunctions _
    (by decide +kernel) (by decide +kernel)).2.mpr (by decide +kernel)

/-- At the winter solstice it is six hours ahead, with the functions rounded to nearest as well. -/
theorem rightAscension_not_near_at_solstice :
    ¬∀ l : Float, 0.0 ≤ l → l < 360.0 →
      |15 * value (@rightAscension Float _ nearestFunctions l) - value l| < 3 := by
  intro hall
  have hnear := (@rightAscension_near_longitude nearestFunctions 270.0 rfl
    (value_three_quarters ▸ by norm_num) (value_three_quarters ▸ by norm_num)
    nearestTangents_nearestFunctions).2
  have hclose := hall 270.0 (by decide +kernel) (by decide +kernel)
  rw [if_pos value_three_quarters, abs_le] at hnear
  have hahead := (abs_lt.mp hclose).2
  norm_num at hnear
  linarith

end GeoAlmanac.Sun
