import Mathlib.Data.Rat.Floor
import GeoAlmanac.Proofs.Sexagesimal.Parts

/-! The sexagesimal parts of an angle in exact arithmetic, where the parts of an angle and the angle
of its parts determine each other. -/

namespace GeoAlmanac.Sexagesimal
open Binary64

/-- Exact arithmetic of quotients. The remainder belongs to the quotient truncated toward zero. -/
instance : Arithmetic ℚ where
  decidableLT := inferInstance
  decidableLE := inferInstance
  ofInt n := n
  abs x := |x|
  floor x := ⌊x⌋
  trunc x := if 0 ≤ x then ⌊x⌋ else ⌈x⌉
  remainder x y := x - y * (if 0 ≤ x / y then ⌊x / y⌋ else ⌈x / y⌉ : ℤ)
  isNegative x := decide (x < 0)
  toUInt32 x := .ofNat (min ⌊x⌋₊ (2 ^ 32 - 1))

theorem trunc_of_nonneg {x : ℚ} (h : 0 ≤ x) : trunc x = ⌊x⌋ := if_pos h

/-- One step of the division takes the whole part away. -/
theorem sixtieths_eq {x : ℚ} (h : 0 ≤ x) : sixtieths x = 60 * Int.fract x := by
  rw [sixtieths, trunc_of_nonneg h, ← Int.fract]
  norm_num
  ring

theorem sixtieths_nonneg {x : ℚ} (h : 0 ≤ x) : 0 ≤ sixtieths x := by
  rw [sixtieths_eq h]
  exact mul_nonneg (by norm_num) (Int.fract_nonneg x)

theorem sixtieths_lt {x : ℚ} (h : 0 ≤ x) : sixtieths x < 60 := by
  have := Int.fract_lt_one x
  rw [sixtieths_eq h]
  linarith

theorem toNat_toUInt32_trunc {x : ℚ} (h0 : 0 ≤ x) (h : x < 2 ^ 32) :
    ((Arithmetic.toUInt32 (trunc x)).toNat : ℤ) = ⌊x⌋ := by
  have hlt : ⌊x⌋ < 2 ^ 32 := Int.floor_lt.mpr (by exact_mod_cast h)
  have hnonneg : 0 ≤ ⌊x⌋ := Int.floor_nonneg.mpr h0
  have hfloor : ⌊(⌊x⌋ : ℚ)⌋₊ = ⌊x⌋.toNat := by
    rw [← Int.floor_toNat, Int.floor_intCast]
  rw [trunc_of_nonneg h0]
  change ((UInt32.ofNat (min ⌊(⌊x⌋ : ℚ)⌋₊ (2 ^ 32 - 1))).toNat : ℤ) = _
  rw [hfloor, UInt32.toNat_ofNat', Nat.mod_eq_of_lt (by omega)]
  omega

theorem ofDegrees_rat (x : ℚ) : ofDegrees x = truncated x := by
  have hfirst := sixtieths_nonneg (abs_nonneg x)
  have hlt := sixtieths_lt (abs_nonneg x)
  have hfloor := Int.floor_le (sixtieths |x|)
  refine ofDegrees_eq_truncated ?_ ?_
  · norm_num
    exact sixtieths_lt hfirst
  · change ¬60.0 ≤ trunc (sixtieths |x|)
    rw [trunc_of_nonneg hfirst]
    norm_num
    linarith

/-- The magnitude that the three parts say. -/
def magnitude (a : Sexagesimal ℚ) : ℚ :=
  a.degrees.toNat + a.minutes.toNat / 60 + a.seconds / 3600

theorem toDegrees_rat (a : Sexagesimal ℚ) :
    toDegrees a = if a.negative then -magnitude a else magnitude a := by
  have hcount (n : UInt32) : (count n : ℚ) = n.toNat := Int.cast_natCast _
  have hsixty : (60.0 : ℚ) = 60 := by norm_num
  have hhour : (3600.0 : ℚ) = 3600 := by norm_num
  simp only [toDegrees, magnitude, hcount, hsixty, hhour]

theorem magnitude_truncated {x : ℚ} (h : |x| < 2 ^ 32) : magnitude (truncated x) = |x| := by
  have hfirst := sixtieths_nonneg (abs_nonneg x)
  have hdegrees : ((truncated x).degrees.toNat : ℚ) = ⌊|x|⌋ := by
    exact_mod_cast toNat_toUInt32_trunc (abs_nonneg x) h
  have hminutes : ((truncated x).minutes.toNat : ℚ) = ⌊sixtieths |x|⌋ := by
    exact_mod_cast toNat_toUInt32_trunc hfirst ((sixtieths_lt (abs_nonneg x)).trans (by norm_num))
  have hseconds : (truncated x).seconds = 60 * Int.fract (sixtieths |x|) := sixtieths_eq hfirst
  calc magnitude (truncated x)
      = ⌊|x|⌋ + (⌊sixtieths |x|⌋ + Int.fract (sixtieths |x|)) / 60 := by
        rw [magnitude, hdegrees, hminutes, hseconds]
        ring
    _ = ⌊|x|⌋ + Int.fract |x| := by
        rw [Int.floor_add_fract, sixtieths_eq (abs_nonneg x)]
        ring
    _ = |x| := Int.floor_add_fract _

theorem negative_truncated (x : ℚ) : (truncated x).negative = true ↔ x < 0 := by
  have hzero : (0.0 : ℚ) = 0 := by norm_num
  change (decide (x < 0) && decide (0.0 < |x|)) = true ↔ x < 0
  rw [Bool.and_eq_true, decide_eq_true_iff, decide_eq_true_iff, hzero, abs_pos]
  exact and_iff_left_of_imp ne_of_lt

theorem toDegrees_ofDegrees {x : ℚ} (h : |x| < 2 ^ 32) : toDegrees (ofDegrees x) = x := by
  rw [ofDegrees_rat, toDegrees_rat, magnitude_truncated h]
  rcases lt_or_ge x 0 with hx | hx
  · rw [if_pos ((negative_truncated x).mpr hx), abs_of_neg hx, neg_neg]
  · rw [if_neg ((negative_truncated x).not.mpr hx.not_gt), abs_of_nonneg hx]

/-- Parts with fewer than sixty minutes and seconds, of which a zero is not negative. -/
structure Normal (a : Sexagesimal ℚ) : Prop where
  minutes : a.minutes < 60
  nonneg : 0 ≤ a.seconds
  seconds : a.seconds < 60
  sign : a.negative = true → ¬(a.degrees = 0 ∧ a.minutes = 0 ∧ a.seconds = 0)

theorem floor_count_add (n : ℕ) {r : ℚ} (h0 : 0 ≤ r) (h1 : r < 1) :
    ⌊(n : ℚ) + r⌋ = n ∧ sixtieths ((n : ℚ) + r) = 60 * r := by
  have hfract : Int.fract r = r := Int.fract_eq_self.mpr ⟨h0, h1⟩
  refine ⟨?_, ?_⟩
  · rw [Int.floor_natCast_add, Int.floor_eq_zero_iff.mpr ⟨h0, h1⟩, add_zero]
  · rw [sixtieths_eq (by positivity), Int.fract_natCast_add, hfract]

theorem toUInt32_trunc_of_floor {n : UInt32} {x : ℚ} (h : ⌊x⌋ = n.toNat) :
    Arithmetic.toUInt32 (trunc x) = n := by
  have h0 : 0 ≤ x := Int.floor_nonneg.mp (h ▸ Int.natCast_nonneg _)
  have hlt : x < 2 ^ 32 := by
    have := n.toNat_lt
    have hfloor : ⌊x⌋ < 2 ^ 32 := by omega
    exact_mod_cast Int.floor_lt.mp hfloor
  refine UInt32.toNat_inj.mp ?_
  exact_mod_cast (toNat_toUInt32_trunc h0 hlt).trans h

theorem magnitude_nonneg {a : Sexagesimal ℚ} (h : 0 ≤ a.seconds) : 0 ≤ magnitude a := by
  unfold magnitude
  positivity

section
variable {a : Sexagesimal ℚ} (h : Normal a)
include h

theorem Normal.magnitude_pos (hneg : a.negative = true) : 0 < magnitude a := by
  refine lt_of_le_of_ne (magnitude_nonneg h.nonneg) fun hzero => h.sign hneg ?_
  have hseconds := h.nonneg
  have hd : (0 : ℚ) ≤ a.degrees.toNat := Nat.cast_nonneg _
  have hm : (0 : ℚ) ≤ a.minutes.toNat := Nat.cast_nonneg _
  unfold magnitude at hzero
  have hd0 : (a.degrees.toNat : ℚ) = 0 := by linarith
  have hm0 : (a.minutes.toNat : ℚ) = 0 := by linarith
  exact ⟨UInt32.toNat_inj.mp (by exact_mod_cast hd0), UInt32.toNat_inj.mp (by exact_mod_cast hm0),
    by linarith⟩

theorem Normal.negative_iff : a.negative = true ↔ toDegrees a < 0 := by
  rw [toDegrees_rat]
  refine ⟨fun hneg => ?_, fun hlt => ?_⟩
  · rw [if_pos hneg]
    exact neg_neg_of_pos (h.magnitude_pos hneg)
  · by_contra hneg
    rw [if_neg hneg] at hlt
    exact (magnitude_nonneg h.nonneg).not_gt hlt

theorem Normal.ofDegrees_toDegrees : ofDegrees (toDegrees a) = a := by
  have habs : |toDegrees a| = magnitude a := by
    have hnonneg := magnitude_nonneg h.nonneg
    rw [toDegrees_rat]
    split_ifs
    · rw [abs_neg, abs_of_nonneg hnonneg]
    · exact abs_of_nonneg hnonneg
  have hm : (a.minutes.toNat : ℚ) ≤ 59 := by
    exact_mod_cast Nat.le_of_lt_succ (UInt32.lt_iff_toNat_lt.mp h.minutes)
  have hm0 : (0 : ℚ) ≤ a.minutes.toNat := Nat.cast_nonneg _
  have hs := h.nonneg
  have hs60 := h.seconds
  have hsplit : magnitude a = a.degrees.toNat + (a.minutes.toNat + a.seconds / 60) / 60 := by
    rw [magnitude]
    ring
  obtain ⟨hdegrees, hfirst⟩ := floor_count_add a.degrees.toNat
    (r := (a.minutes.toNat + a.seconds / 60) / 60) (by positivity) (by linarith)
  obtain ⟨hminutes, hsecond⟩ := floor_count_add a.minutes.toNat (r := a.seconds / 60)
    (by positivity) (by linarith)
  rw [mul_div_cancel₀ _ (by norm_num)] at hfirst hsecond
  have hnegative : (truncated (toDegrees a)).negative = a.negative :=
    Bool.eq_iff_iff.mpr ((negative_truncated _).trans h.negative_iff.symm)
  have habs' : abs (toDegrees a) = a.degrees.toNat + (a.minutes.toNat + a.seconds / 60) / 60 :=
    habs.trans hsplit
  rw [ofDegrees_rat]
  rcases a with ⟨negative, degrees, minutes, seconds⟩
  refine (Sexagesimal.mk.injEq ..).mpr ⟨hnegative, ?_, ?_, ?_⟩
  · rw [habs']
    exact toUInt32_trunc_of_floor hdegrees
  · rw [habs', hfirst]
    exact toUInt32_trunc_of_floor hminutes
  · rw [habs', hfirst, hsecond]

end

/-- An angle and its parts. In binary64 the parts are always normal and say the angle up to
rounding; in exact arithmetic they determine each other. -/
theorem parts_determine_angle :
    (∀ x : Float, x.isFinite = true → NormalParts x) ∧
      (∀ x : Float, Bounded 360.0 x → (toDegrees (ofDegrees x)).isFinite = true ∧
        |value (toDegrees (ofDegrees x)) - value x| ≤ 1e-12 ∧
        ((ofDegrees x).negative = true ↔ x < 0.0)) ∧
      (∀ a : Sexagesimal Float,
        combine a.signedDegrees (count a.minutes) a.seconds = toDegrees a) ∧
      (∀ x : ℚ, |x| < 2 ^ 32 → toDegrees (ofDegrees x) = x) ∧
      ∀ a : Sexagesimal ℚ, Normal a → ofDegrees (toDegrees a) = a := by
  refine ⟨fun x hx => normalParts_of_isFinite hx, fun x hx => ?_, combine_signedDegrees,
    fun x hx => toDegrees_ofDegrees hx, fun a ha => ha.ofDegrees_toDegrees⟩
  obtain ⟨hfinite, hnear⟩ := toDegrees_ofDegrees_near hx
  refine ⟨hfinite, hnear, ?_⟩
  rw [negative_ofDegrees hx.isFinite, lt_iff_value hx.isFinite rfl]
  rfl

/-- A ten millionth below one degree, half a turn west, a negative zero and three quarters of a
degree south. -/
theorem parts_determine_angle_samples :
    NormalParts 0.9999999 ∧ |value (toDegrees (ofDegrees (-180.0))) - value (-180.0)| ≤ 1e-12 ∧
      combine (-0.0 : Float) 45.0 0.0 = -0.75 ∧
      toDegrees (ofDegrees (-1 / 3 : ℚ)) = -1 / 3 ∧
      ofDegrees (toDegrees (⟨true, 0, 45, 0⟩ : Sexagesimal ℚ)) = ⟨true, 0, 45, 0⟩ := by
  obtain ⟨hnormal, hnear, hcombine, hangle, hparts⟩ := parts_determine_angle
  have hwest : Bounded 360.0 (-180.0) := ⟨rfl, rfl, by decide +kernel, by decide +kernel⟩
  refine ⟨hnormal _ rfl, (hnear _ hwest).2.1, ?_, hangle _ (by norm_num [abs_lt]),
    hparts _ ⟨by decide, by decide, by decide, by decide⟩⟩
  exact (hcombine ⟨true, 0, 45, 0.0⟩).trans (by decide +kernel)

end GeoAlmanac.Sexagesimal
