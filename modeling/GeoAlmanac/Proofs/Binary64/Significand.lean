import Mathlib
import GeoAlmanac.Proofs.Binary64.Rounding

/-! The rounding of unpacked doubles. A significand with the accuracy it was computed to stands for
an exact number; shifting it keeps that number, and what it is rounded to at the last place is the
nearest grid point. -/

namespace GeoAlmanac.Binary64
open Float.Model Float.Model.UnpackedFloat

/-- Whether a number lies as far above a whole one as an accuracy says: on it, or between it and the
next one, where it can be nearer to the lower one, in the middle or nearer to the upper one. -/
def Meets (m : ℕ) : Accuracy → ℝ → Prop
  | .exact, x => x = m
  | .inexact .lt, x => m < x ∧ x - m < m + 1 - x
  | .inexact .eq, x => x - m = m + 1 - x
  | .inexact .gt, x => m + 1 - x < x - m ∧ x < m + 1

theorem Meets.bounds {m : ℕ} {a : Accuracy} {x : ℝ} (h : Meets m a x) : m ≤ x ∧ x < m + 1 := by
  rcases a with _ | o
  · subst h
    constructor <;> linarith
  · cases o <;> simp only [Meets] at h <;> constructor <;> linarith

theorem Meets.nearestEven {m : ℕ} {a : Accuracy} {x : ℝ} (h : Meets m a x) :
    (a.roundToNearestEven m : ℤ) = nearestEven x := by
  have hfloor : ⌊x⌋ = (m : ℤ) := Int.floor_eq_iff.mpr (by exact_mod_cast h.bounds)
  unfold Binary64.nearestEven
  rw [hfloor]
  push_cast
  rcases a with _ | o
  · subst h
    simp [Accuracy.roundToNearestEven]
  · cases o <;> simp only [Meets] at h <;> simp only [Accuracy.roundToNearestEven]
    · rw [if_pos (by linarith)]
    · rw [if_neg (by linarith), if_neg (by linarith)]
      push_cast
      rfl
    · rw [if_neg (by linarith), if_pos (by linarith)]
      push_cast
      rfl

theorem Meets.shiftRightOne {em : ExtendedMantissa} {x : ℝ}
    (h : Meets em.mantissa em.accuracy x) :
    Meets em.shiftRightOne.mantissa em.shiftRightOne.accuracy (x / 2) := by
  obtain ⟨m, round, sticky⟩ := em
  have hsplit : ((m % 2 : ℕ) : ℝ) + 2 * (m / 2 : ℕ) = m := by exact_mod_cast Nat.mod_add_div m 2
  rcases Nat.mod_two_eq_zero_or_one m with hm | hm <;> rw [hm] at hsplit <;>
    cases round <;> cases sticky <;>
    simp only [ExtendedMantissa.accuracy, Meets] at h <;>
    simp only [ExtendedMantissa.shiftRightOne, hm, ExtendedMantissa.accuracy, Meets,
      bne_self_eq_false, Bool.or_false, Bool.or_true, Bool.or_self, Nat.cast_zero, Nat.cast_one,
      show ((1 : ℕ) != 0) = true from rfl] at hsplit ⊢ <;>
    first | linarith | (constructor <;> linarith)

theorem Meets.shiftRight {em : ExtendedMantissa} {x : ℝ}
    (h : Meets em.mantissa em.accuracy x) (n : ℕ) :
    Meets (em >>> n).mantissa (em >>> n).accuracy (x / 2 ^ n) := by
  change Meets (n.repeat _ em).mantissa (n.repeat _ em).accuracy _
  induction n with
  | zero => simpa [Nat.repeat] using h
  | succ n ih =>
    rw [pow_succ, ← div_div]
    exact ih.shiftRightOne

theorem meets_ofMantissaAndAccuracy {m : ℕ} {a : Accuracy} {x : ℝ} (h : Meets m a x) :
    Meets (ExtendedMantissa.ofMantissaAndAccuracy m a).mantissa
      (ExtendedMantissa.ofMantissaAndAccuracy m a).accuracy x := by
  rcases a with _ | o
  · exact h
  · cases o <;> exact h

theorem shiftToExponent_meets {m : ℕ} {a : Accuracy} {e : ℤ} {x : ℝ} (h : Meets m a (x / 2 ^ e))
    (t : ℤ) : (shiftToExponent m e a t).2 = max e t ∧
      Meets (shiftToExponent m e a t).1.mantissa (shiftToExponent m e a t).1.accuracy
        (x / 2 ^ max e t) := by
  have hexp : e + (t - e).toNat = max e t := by omega
  have hshift := (meets_ofMantissaAndAccuracy h).shiftRight (t - e).toNat
  rw [div_div, ← zpow_natCast, ← zpow_add₀ (by norm_num), hexp] at hshift
  exact ⟨hexp, hshift⟩

theorem targetExponent_eq (t : ℤ) :
    Format.binary64.targetExponent t = max (t - 53) (-1074) := by
  norm_num [Format.targetExponent, Format.minExponent, Format.mantissaBits]

theorem targetExponent_eq_lastPlace_of_pos {m : ℕ} (hm : 0 < m) {e : ℤ} {x : ℝ}
    (hl : m * 2 ^ e ≤ x) (hu : x < (m + 1) * 2 ^ e) :
    Format.binary64.targetExponent (totalExponent m e) = lastPlace x := by
  have hpos : (0 : ℝ) < 2 ^ e := by positivity
  have hx : 0 < x := lt_of_lt_of_le (by positivity) hl
  have hm1 : (2 : ℝ) ^ (m.log2 : ℤ) ≤ m := by exact_mod_cast Nat.log2_self_le hm.ne'
  have hm2 : (m : ℝ) + 1 ≤ 2 ^ (m.log2 + 1 : ℤ) := by exact_mod_cast Nat.lt_log2_self
  have hlow := (Int.zpow_le_iff_le_log (b := 2) (by norm_num) hx).mp
    (show ((2 : ℕ) : ℝ) ^ (m.log2 + e : ℤ) ≤ x by
      push_cast
      rw [zpow_add₀ (by norm_num)]
      exact (mul_le_mul_of_nonneg_right hm1 hpos.le).trans hl)
  have hhigh := (Int.lt_zpow_iff_log_lt (b := 2) (by norm_num) hx).mp
    (show x < ((2 : ℕ) : ℝ) ^ (m.log2 + 1 + e : ℤ) by
      push_cast
      rw [zpow_add₀ (by norm_num)]
      exact hu.trans_le (mul_le_mul_of_nonneg_right hm2 hpos.le))
  rw [targetExponent_eq]
  unfold totalExponent lastPlace
  rw [abs_of_pos hx]
  omega

theorem targetExponent_eq_lastPlace {m : ℕ} {a : Accuracy} {e : ℤ} {x : ℝ} (hx : 0 < x)
    (h : Meets m a (x / 2 ^ e)) (he : e ≤ lastPlace x) :
    Format.binary64.targetExponent (totalExponent m e) = lastPlace x := by
  have hpos : (0 : ℝ) < 2 ^ e := by positivity
  obtain ⟨hl, hu⟩ := h.bounds
  rw [le_div_iff₀ hpos] at hl
  rw [div_lt_iff₀ hpos] at hu
  rcases Nat.eq_zero_or_pos m with rfl | hm
  · have hlog := (Int.lt_zpow_iff_log_lt (b := 2) (by norm_num) hx).mp
      (show x < ((2 : ℕ) : ℝ) ^ e by push_cast at hu ⊢; linarith)
    rw [targetExponent_eq]
    unfold totalExponent
    unfold lastPlace at he ⊢
    rw [abs_of_pos hx] at he ⊢
    simp only [Nat.log2_zero, Nat.cast_zero]
    omega
  · exact targetExponent_eq_lastPlace_of_pos hm hl hu

/-- The form in which a double is stored: a significand of 53 bits, full unless the exponent is the
least. The exponent has no upper end here. -/
def Canonical : UnpackedFloat → Prop
  | .finite _ m e _ => m < 2 ^ 53 ∧ -1074 ≤ e ∧ (2 ^ 52 ≤ m ∨ e = -1074)
  | _ => True

/-- An unpacked double in canonical form that stands for a number. -/
structure Represents (u : UnpackedFloat) (x : ℝ) : Prop where
  canonical : Canonical u
  finite : u.isFinite = true
  value : unpackedValue u = x

theorem nearestEven_lastPlace_bounds {x : ℝ} (hx : 0 < x) :
    0 ≤ nearestEven (x / 2 ^ lastPlace x) ∧ nearestEven (x / 2 ^ lastPlace x) ≤ 2 ^ 53 ∧
      (2 ^ 52 ≤ nearestEven (x / 2 ^ lastPlace x) ∨ lastPlace x = -1074) := by
  have hpos : (0 : ℝ) < 2 ^ lastPlace x := by positivity
  have hhigh := lt_zpow_of_lastPlace x
  rw [abs_of_pos hx, zpow_add₀ (by norm_num), mul_comm, ← div_lt_iff₀ hpos] at hhigh
  have hle := nearestEven_mono (show x / 2 ^ lastPlace x ≤ ((2 ^ 53 : ℤ) : ℝ) by
    push_cast
    exact_mod_cast hhigh.le)
  have hge := nearestEven_mono (show ((0 : ℤ) : ℝ) ≤ x / 2 ^ lastPlace x by
    rw [Int.cast_zero]
    positivity)
  rw [nearestEven_intCast] at hle hge
  refine ⟨hge, hle, ?_⟩
  by_cases hleast : lastPlace x = -1074
  · exact .inr hleast
  · have hleast' := le_lastPlace x
    have hlow := zpow_le_of_lt_lastPlace hx.ne' (by omega)
    rw [abs_of_pos hx, zpow_add₀ (by norm_num), mul_comm, ← le_div_iff₀ hpos] at hlow
    have hfull := nearestEven_mono (show ((2 ^ 52 : ℤ) : ℝ) ≤ x / 2 ^ lastPlace x by
      push_cast
      exact_mod_cast hlow)
    rw [nearestEven_intCast] at hfull
    exact .inl hfull

/-- A significand that has overflowed into a further bit is shifted once more, which loses
nothing. -/
theorem shiftToTargetExponent_exact {r : ℕ} {t : ℤ} (hr : r ≤ 2 ^ 53) (ht : -1074 ≤ t)
    (hfull : 2 ^ 52 ≤ r ∨ t = -1074) :
    let shifted := shiftToTargetExponent Format.binary64 r t .exact
    (shifted.1.mantissa : ℝ) * 2 ^ shifted.2 = r * 2 ^ t ∧ shifted.1.mantissa < 2 ^ 53 ∧
      -1074 ≤ shifted.2 ∧ (2 ^ 52 ≤ shifted.1.mantissa ∨ shifted.2 = -1074) := by
  obtain ⟨hexp, hmeets⟩ := shiftToExponent_meets (m := r) (a := .exact) (e := t) (x := r * 2 ^ t)
    (mul_div_cancel_right₀ _ (by positivity))
    (Format.binary64.targetExponent (totalExponent r t))
  obtain ⟨hl, hu⟩ := hmeets.bounds
  unfold shiftToTargetExponent
  dsimp only
  generalize hshift : shiftToExponent r t .exact
    (Format.binary64.targetExponent (totalExponent r t)) = shifted at *
  rw [targetExponent_eq] at hexp hl hu
  unfold totalExponent at hexp hl hu
  rcases hr.lt_or_eq with hlt | rfl
  · have hlog : r.log2 ≤ 52 := by
      rcases Nat.eq_zero_or_pos r with rfl | hpos
      · simp
      · have := (Nat.log2_lt hpos.ne').mpr hlt
        omega
    rw [show max t (max (r.log2 + 1 + t - 53) (-1074)) = t by omega] at hexp hl hu
    rw [mul_div_cancel_right₀ _ (by positivity)] at hl hu
    have hr1 : shifted.1.mantissa ≤ r := by exact_mod_cast hl
    have hr2 : r < shifted.1.mantissa + 1 := by exact_mod_cast hu
    have hsame : shifted.1.mantissa = r := by omega
    rw [hsame, hexp]
    exact ⟨rfl, hlt, ht, hfull⟩
  · rw [Nat.log2_two_pow, show max t (max (((53 : ℕ) : ℤ) + 1 + t - 53) (-1074)) = t + 1 by omega]
      at hexp hl hu
    have hhalf : ((2 ^ 53 : ℕ) : ℝ) * 2 ^ t / 2 ^ (t + 1) = (2 ^ 52 : ℕ) := by
      rw [zpow_add_one₀ (by norm_num)]
      field_simp
      norm_num
    rw [hhalf] at hl hu
    have hr1 : shifted.1.mantissa ≤ 2 ^ 52 := by exact_mod_cast hl
    have hr2 : 2 ^ 52 < shifted.1.mantissa + 1 := by exact_mod_cast hu
    have hsame : shifted.1.mantissa = 2 ^ 52 := by omega
    rw [hsame, hexp]
    refine ⟨?_, by norm_num, by omega, .inl le_rfl⟩
    rw [zpow_add_one₀ (by norm_num)]
    push_cast
    ring

theorem roundWithAccuracy_represents (s : Sign) {m : ℕ} {a : Accuracy} {e : ℤ} {x : ℝ} (hx : 0 < x)
    (h : Meets m a (x / 2 ^ e)) (he : e ≤ lastPlace x) :
    Represents (roundWithAccuracy Format.binary64 s m e a) (signFactor s * rounded x) := by
  obtain ⟨hexp, hmeets⟩ := shiftToExponent_meets h (lastPlace x)
  rw [max_eq_right he] at hexp hmeets
  have hround := hmeets.nearestEven
  obtain ⟨hr0, hr53, hr52⟩ := nearestEven_lastPlace_bounds hx
  have hfirst : shiftToTargetExponent Format.binary64 m e a =
      shiftToExponent m e a (lastPlace x) := by
    unfold shiftToTargetExponent
    rw [targetExponent_eq_lastPlace hx h he]
  have hrounded : rounded x = (shiftToExponent m e a (lastPlace x)).1.roundedMantissa *
      2 ^ lastPlace x := by
    unfold rounded
    rw [← hround]
    rfl
  obtain ⟨hval, h53, hleast, hfull⟩ := shiftToTargetExponent_exact
    (r := (shiftToExponent m e a (lastPlace x)).1.roundedMantissa) (t := lastPlace x)
    (by rw [← hround] at hr53; exact_mod_cast hr53) (le_lastPlace x)
    (by rw [← hround] at hr52; exact_mod_cast hr52)
  unfold roundWithAccuracy
  rw [hfirst]
  dsimp only
  rw [hexp, hrounded]
  split_ifs with hzero
  · refine ⟨trivial, rfl, ?_⟩
    rw [hzero, Nat.cast_zero, zero_mul] at hval
    rw [← hval, mul_zero]
    rfl
  · exact ⟨⟨h53, hleast, hfull⟩, rfl, congrArg (signFactor s * ·) hval⟩

end GeoAlmanac.Binary64
