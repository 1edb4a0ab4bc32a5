import GeoAlmanac.Proofs.Binary64.Significand
import Mathlib.Analysis.Real.Sqrt

/-! The operations on unpacked doubles are correctly rounded: on canonical operands that stand for
numbers each yields the grid point nearest to the exact result. -/

namespace GeoAlmanac.Binary64
open Float.Model
open Float.Model.UnpackedFloat (Sign decreaseExponent roundWithAccuracy shiftToTargetExponent)

theorem signFactor_apply (s : Sign) (m : ℕ) : (s.apply m : ℝ) = signFactor s * m := by
  cases s <;> simp [Sign.apply, signFactor]

theorem signFactor_mul : ∀ s t : Sign, signFactor (s * t) = signFactor s * signFactor t
  | .negative, .negative => (neg_one_mul (-1 : ℝ)).trans (neg_neg 1) |>.symm
  | .negative, .positive => (mul_one (-1 : ℝ)).symm
  | .positive, .negative => (one_mul (-1 : ℝ)).symm
  | .positive, .positive => (one_mul (1 : ℝ)).symm

theorem signFactor_div : ∀ s t : Sign, signFactor (s / t) = signFactor s / signFactor t
  | .negative, .negative => (div_self (neg_ne_zero.mpr one_ne_zero)).symm
  | .negative, .positive => (div_one (-1 : ℝ)).symm
  | .positive, .negative => (one_div_neg_one_eq_neg_one (R := ℝ)).symm
  | .positive, .positive => (div_one (1 : ℝ)).symm

theorem signFactor_neg : ∀ s : Sign, signFactor (-s) = -signFactor s
  | .negative => (neg_neg (1 : ℝ)).symm
  | .positive => rfl

theorem rounded_signFactor_mul (s : Sign) (x : ℝ) :
    rounded (signFactor s * x) = signFactor s * rounded x := by
  cases s <;> simp [signFactor, rounded_neg]

theorem Represents.zero (s : Sign) : Represents (.zero s) 0 := ⟨trivial, rfl, rfl⟩

/-- What stands for a number is a zero or a signed significand. -/
theorem Represents.cases {u : UnpackedFloat} {x : ℝ} (h : Represents u x) :
    (∃ s, u = .zero s ∧ x = 0) ∨ ∃ s m e hm, u = .finite s m e hm ∧ x = signFactor s * (m * 2 ^ e) ∧
      m < 2 ^ 53 ∧ -1074 ≤ e ∧ (2 ^ 52 ≤ m ∨ e = -1074) := by
  cases u with
  | infinity s => exact absurd h.finite (by simp [UnpackedFloat.isFinite])
  | notANumber => exact absurd h.finite (by simp [UnpackedFloat.isFinite])
  | zero s => exact .inl ⟨s, rfl, h.value.symm⟩
  | finite s m e hm => exact .inr ⟨s, m, e, hm, rfl, h.value.symm, h.canonical⟩

theorem Represents.rounded_eq {u : UnpackedFloat} {x : ℝ} (h : Represents u x) : rounded x = x := by
  rcases h.cases with ⟨s, rfl, rfl⟩ | ⟨s, m, e, hm, rfl, rfl, h53, hleast, _⟩
  · exact rounded_zero
  · have hgrid := rounded_intCast_mul (n := m) (by rw [Nat.abs_cast]; exact_mod_cast h53) hleast
    rw [rounded_signFactor_mul]
    exact_mod_cast congrArg (signFactor s * ·) hgrid

theorem Represents.congr {u : UnpackedFloat} {x y : ℝ} (h : Represents u x) (hxy : x = y) :
    Represents u y :=
  hxy ▸ h

theorem Represents.neg {u : UnpackedFloat} {x : ℝ} (h : Represents u x) :
    Represents u.neg (-x) := by
  rcases h.cases with ⟨s, rfl, rfl⟩ | ⟨s, m, e, hm, rfl, rfl, hc⟩
  · exact (Represents.zero (-s)).congr neg_zero.symm
  · refine ⟨hc, rfl, ?_⟩
    change signFactor (-s) * _ = _
    rw [signFactor_neg, neg_mul]

theorem Represents.abs {u : UnpackedFloat} {x : ℝ} (h : Represents u x) :
    Represents u.abs |x| := by
  rcases h.cases with ⟨s, rfl, rfl⟩ | ⟨s, m, e, hm, rfl, rfl, hc⟩
  · exact (Represents.zero .positive).congr abs_zero.symm
  · refine ⟨hc, rfl, ?_⟩
    rw [abs_signFactor_mul s (by positivity)]
    exact one_mul _

/-- Places appended to a significand leave its number as it is. -/
theorem shiftLeft_value (m k : ℕ) (e : ℤ) : ((m <<< k : ℕ) : ℝ) * 2 ^ (e - k) = m * 2 ^ e := by
  rw [Nat.shiftLeft_eq]
  push_cast
  rw [mul_assoc, ← zpow_natCast, ← zpow_add₀ (by norm_num), add_sub_cancel]

theorem shiftToTargetExponent_zero (e : ℤ) :
    (shiftToTargetExponent Format.binary64 0 e .exact).1.roundedMantissa = 0 ∧
      (shiftToTargetExponent Format.binary64 0 e .exact).1.mantissa = 0 := by
  have hmeets := (shiftToExponent_meets (m := 0) (a := .exact) (e := e) (x := 0) (by simp [Meets])
    (Format.binary64.targetExponent (totalExponent 0 e))).2
  rw [zero_div] at hmeets
  have hround := hmeets.nearestEven
  rw [← Int.cast_zero, nearestEven_intCast] at hround
  refine ⟨by exact_mod_cast hround, ?_⟩
  have hbound := hmeets.bounds.1
  exact Nat.le_zero.mp (by exact_mod_cast hbound)

theorem round_zero (s : Sign) (e : ℤ) : UnpackedFloat.round Format.binary64 s 0 e = .zero s := by
  unfold UnpackedFloat.round decreaseExponent roundWithAccuracy
  dsimp only
  rw [Nat.zero_shiftLeft, (shiftToTargetExponent_zero _).1]
  exact dif_pos (shiftToTargetExponent_zero _).2

theorem round_represents (s : Sign) (m : ℕ) (e : ℤ) :
    Represents (UnpackedFloat.round Format.binary64 s m e)
      (signFactor s * rounded (m * 2 ^ e)) := by
  rcases Nat.eq_zero_or_pos m with rfl | hm
  · rw [round_zero, Nat.cast_zero, zero_mul, rounded_zero, mul_zero]
    exact .zero s
  · have htarget := targetExponent_eq_lastPlace_of_pos hm (x := m * 2 ^ e) le_rfl
      (mul_lt_mul_of_pos_right (lt_add_one _) (by positivity))
    unfold UnpackedFloat.round
    rw [htarget]
    apply roundWithAccuracy_represents s (by positivity)
    · have hvalue := shiftLeft_value m (e - lastPlace (m * 2 ^ e)).toNat e
      exact (eq_div_of_mul_eq (by positivity) hvalue).symm
    · omega

theorem normalize_represents (m e : ℤ) (s : Sign) :
    Represents (UnpackedFloat.normalize Format.binary64 m e s) (rounded (m * 2 ^ e)) := by
  unfold UnpackedFloat.normalize
  split
  next h =>
    have hneg := Int.compare_eq_lt.mp h
    refine (round_represents .negative (-m).toNat e).congr ?_
    rw [← rounded_signFactor_mul, show ((-m).toNat : ℝ) = -m by
      exact_mod_cast Int.toNat_of_nonneg (show 0 ≤ -m by omega)]
    simp [signFactor]
  next h =>
    rw [Int.compare_eq_eq.mp h, Int.cast_zero, zero_mul, rounded_zero]
    exact .zero s
  next h =>
    have hpos := Int.compare_eq_gt.mp h
    refine (round_represents .positive m.toNat e).congr ?_
    rw [← rounded_signFactor_mul, show (m.toNat : ℝ) = m by
      exact_mod_cast Int.toNat_of_nonneg (show 0 ≤ m by omega)]
    simp [signFactor]

theorem add_represents {u v : UnpackedFloat} {x y : ℝ} (hu : Represents u x)
    (hv : Represents v y) :
    Represents (UnpackedFloat.add Format.binary64 u v) (rounded (x + y)) := by
  have hux := hu.rounded_eq
  have hvy := hv.rounded_eq
  rcases hu.cases with ⟨s, rfl, rfl⟩ | ⟨s, m, e, hm, rfl, rfl, hc⟩ <;>
    rcases hv.cases with ⟨t, rfl, rfl⟩ | ⟨t, n, f, hn, rfl, rfl, hd⟩
  · rw [add_zero, rounded_zero]
    unfold UnpackedFloat.add
    dsimp only
    split <;> exact .zero _
  · rw [zero_add, hvy]
    exact hv
  · rw [add_zero, hux]
    exact hu
  · refine (normalize_represents _ (min e f) .positive).congr (congrArg rounded ?_)
    have hleft := shiftLeft_value m (e - min e f).toNat e
    have hright := shiftLeft_value n (f - min e f).toNat f
    rw [show e - (e - min e f).toNat = min e f by omega] at hleft
    rw [show f - (f - min e f).toNat = min e f by omega] at hright
    rw [Int.cast_add, signFactor_apply, signFactor_apply, add_mul, mul_assoc, mul_assoc, hleft,
      hright]

theorem unpacked_sub_eq_add_neg (u v : UnpackedFloat) :
    UnpackedFloat.sub Format.binary64 u v = UnpackedFloat.add Format.binary64 u v.neg := by
  have happly (s : Sign) (n : ℤ) : (-s).apply n = -s.apply n := by
    cases s
    · exact (neg_neg n).symm
    · rfl
  cases u <;> cases v <;>
    simp only [UnpackedFloat.sub, UnpackedFloat.add, UnpackedFloat.neg, happly, sub_eq_add_neg]

theorem sub_represents {u v : UnpackedFloat} {x y : ℝ} (hu : Represents u x)
    (hv : Represents v y) :
    Represents (UnpackedFloat.sub Format.binary64 u v) (rounded (x - y)) := by
  rw [unpacked_sub_eq_add_neg, sub_eq_add_neg]
  exact add_represents hu hv.neg

theorem add_le_lastPlace_mul {m n : ℕ} {e f : ℤ} (hm : 0 < m) (hn : 0 < n)
    (hm52 : 2 ^ 52 ≤ m ∨ e = -1074) (hn52 : 2 ^ 52 ≤ n ∨ f = -1074) :
    e + f ≤ lastPlace (m * 2 ^ e * (n * 2 ^ f)) := by
  by_cases hfull : 2 ^ 52 ≤ m ∨ 2 ^ 52 ≤ n
  · have hprod : 2 ^ 52 ≤ m * n := by
      rcases hfull with h | h
      · exact h.trans (Nat.le_mul_of_pos_right m hn)
      · exact h.trans (Nat.le_mul_of_pos_left n hm)
    have hreal : (2 : ℝ) ^ (52 : ℤ) ≤ m * n := by exact_mod_cast hprod
    have hlow : (2 : ℝ) ^ (52 + (e + f)) ≤ m * 2 ^ e * (n * 2 ^ f) := by
      rw [zpow_add₀ (by norm_num), zpow_add₀ (by norm_num), mul_mul_mul_comm]
      exact mul_le_mul_of_nonneg_right hreal (by positivity)
    have := lt_lastPlace_of_zpow_le (hlow.trans (le_abs_self _))
    omega
  · have := le_lastPlace (m * 2 ^ e * (n * 2 ^ f))
    omega

theorem mul_finite_represents (s t : Sign) {m n : ℕ} (hm : 0 < m) (hn : 0 < n) {e f : ℤ}
    (he : e + f ≤ lastPlace (m * 2 ^ e * (n * 2 ^ f))) :
    Represents (UnpackedFloat.mul Format.binary64 (.finite s m e hm) (.finite t n f hn))
      (rounded (signFactor s * (m * 2 ^ e) * (signFactor t * (n * 2 ^ f)))) := by
  have hx : (0 : ℝ) < m * 2 ^ e * (n * 2 ^ f) := by positivity
  refine (roundWithAccuracy_represents (s * t) hx (m := m * n) (a := .exact) (e := e + f) ?_
    he).congr ?_
  · change _ = ((m * n : ℕ) : ℝ)
    rw [zpow_add₀ (by norm_num), mul_mul_mul_comm, mul_div_cancel_right₀ _ (by positivity)]
    push_cast
    rfl
  · rw [← rounded_signFactor_mul, signFactor_mul, mul_mul_mul_comm]

theorem mul_represents {u v : UnpackedFloat} {x y : ℝ} (hu : Represents u x)
    (hv : Represents v y) :
    Represents (UnpackedFloat.mul Format.binary64 u v) (rounded (x * y)) := by
  rcases hu.cases with ⟨s, rfl, rfl⟩ | ⟨s, m, e, hm, rfl, rfl, _, _, hm52⟩ <;>
    rcases hv.cases with ⟨t, rfl, rfl⟩ | ⟨t, n, f, hn, rfl, rfl, _, _, hn52⟩
  · rw [zero_mul, rounded_zero]
    exact .zero _
  · rw [zero_mul, rounded_zero]
    exact .zero _
  · rw [mul_zero, rounded_zero]
    exact .zero _
  · exact mul_finite_represents s t hm hn (add_le_lastPlace_mul hm hn hm52 hn52)

theorem meets_div (m : ℕ) {n : ℕ} (hn : 0 < n) :
    Meets (m / n) (UnpackedFloat.accuracyOfFraction (m % n) n) (m / n) := by
  have hpos : (0 : ℝ) < n := by exact_mod_cast hn
  have hsplit : (m : ℝ) / n = (m / n : ℕ) + (m % n : ℕ) / n := by
    have hmod : ((m % n : ℕ) : ℝ) + n * (m / n : ℕ) = m := by exact_mod_cast Nat.mod_add_div m n
    field_simp
    linarith
  have hlt : ((m % n : ℕ) : ℝ) / n < 1 := by
    rw [div_lt_one hpos]
    exact_mod_cast Nat.mod_lt m hn
  rw [hsplit]
  unfold UnpackedFloat.accuracyOfFraction
  split_ifs with hzero
  · rw [hzero]
    simp [Meets]
  · have hrest : (0 : ℝ) < (m % n : ℕ) / n := by
      have : 0 < m % n := Nat.pos_of_ne_zero hzero
      positivity
    cases hcmp : compare (2 * (m % n)) n with
    | lt =>
      have hhalf : ((m % n : ℕ) : ℝ) / n < 1 / 2 := by
        rw [div_lt_div_iff₀ hpos two_pos]
        have : 2 * (m % n) < n := Nat.compare_eq_lt.mp hcmp
        exact_mod_cast (by omega : m % n * 2 < 1 * n)
      exact ⟨by linarith, by linarith⟩
    | eq =>
      have hhalf : ((m % n : ℕ) : ℝ) / n = 1 / 2 := by
        rw [div_eq_div_iff hpos.ne' two_ne_zero]
        have : 2 * (m % n) = n := Nat.compare_eq_eq.mp hcmp
        exact_mod_cast (by omega : m % n * 2 = 1 * n)
      rw [hhalf]
      simp only [Meets]
      ring
    | gt =>
      have hhalf : 1 / 2 < ((m % n : ℕ) : ℝ) / n := by
        rw [div_lt_div_iff₀ two_pos hpos]
        have : n < 2 * (m % n) := Nat.compare_eq_gt.mp hcmp
        exact_mod_cast (by omega : 1 * n < m % n * 2)
      exact ⟨by linarith, by linarith⟩

theorem targetExponent_div_le {m n : ℕ} (hm : 0 < m) (hn : 0 < n) (e f : ℤ) :
    Format.binary64.targetExponent (totalExponent m e - totalExponent n f) ≤
      lastPlace (m * 2 ^ e / (n * 2 ^ f)) := by
  have hm1 : (2 : ℝ) ^ (m.log2 : ℤ) ≤ m := by exact_mod_cast Nat.log2_self_le hm.ne'
  have hn2 : (n : ℝ) ≤ 2 ^ (n.log2 + 1 : ℤ) := by exact_mod_cast Nat.lt_log2_self.le
  have hlow : (2 : ℝ) ^ ((m.log2 + e) - (n.log2 + 1 + f) : ℤ) ≤ m * 2 ^ e / (n * 2 ^ f) := by
    rw [zpow_sub₀ (by norm_num), zpow_add₀ (by norm_num), zpow_add₀ (a := (2 : ℝ)) (by norm_num)
      (n.log2 + 1 : ℤ)]
    gcongr
  have hexp := lt_lastPlace_of_zpow_le (hlow.trans (le_abs_self _))
  have hleast := le_lastPlace (m * 2 ^ e / (n * 2 ^ f))
  rw [targetExponent_eq]
  unfold totalExponent
  omega

theorem div_finite_represents (s t : Sign) {m n : ℕ} (hm : 0 < m) (hn : 0 < n) (e f : ℤ) :
    Represents (UnpackedFloat.div Format.binary64 (.finite s m e hm) (.finite t n f hn))
      (rounded (signFactor s * (m * 2 ^ e) / (signFactor t * (n * 2 ^ f)))) := by
  have hx : (0 : ℝ) < m * 2 ^ e / (n * 2 ^ f) := by positivity
  have htarget := targetExponent_div_le hm hn e f
  unfold UnpackedFloat.div UnpackedFloat.divCore
  dsimp only
  generalize ht : min (e - f) (Format.binary64.targetExponent
    (totalExponent m e - totalExponent n f)) = t'
  refine (roundWithAccuracy_represents (s / t) hx (m := (m <<< (e - f - t').toNat) / n) ?_
    (e := t') (by omega)).congr ?_
  · have hshift := shiftLeft_value m (e - f - t').toNat (e - f)
    rw [show e - f - (e - f - t').toNat = t' by omega, zpow_sub₀ (by norm_num)] at hshift
    have hquot : (m : ℝ) * 2 ^ e / (n * 2 ^ f) / 2 ^ t' =
        ((m <<< (e - f - t').toNat : ℕ) : ℝ) / n := by
      field_simp at hshift ⊢
      linarith
    rw [hquot]
    exact meets_div _ hn
  · rw [← rounded_signFactor_mul, signFactor_div, div_mul_div_comm]

theorem div_represents {u v : UnpackedFloat} {x y : ℝ} (hu : Represents u x)
    (hv : Represents v y) (hy : y ≠ 0) :
    Represents (UnpackedFloat.div Format.binary64 u v) (rounded (x / y)) := by
  rcases hu.cases with ⟨s, rfl, rfl⟩ | ⟨s, m, e, hm, rfl, rfl, _⟩ <;>
    rcases hv.cases with ⟨t, rfl, rfl⟩ | ⟨t, n, f, hn, rfl, rfl, _⟩
  · exact absurd rfl hy
  · rw [zero_div, rounded_zero]
    exact .zero _
  · exact absurd rfl hy
  · exact div_finite_represents s t hm hn e f

/-- What is left over by a whole square root tells how far the exact root lies above it; it is never
half a unit. -/
theorem meets_sqrt (m : ℕ) :
    Meets m.sqrt (if m - m.sqrt * m.sqrt = 0 then .exact
      else .inexact (if m - m.sqrt * m.sqrt ≤ m.sqrt then .lt else .gt)) √(m : ℝ) := by
  have hle := Nat.sqrt_le m
  have hlt := Nat.lt_succ_sqrt m
  generalize m.sqrt = r at *
  have hnext : √(m : ℝ) < r + 1 := by
    rw [Real.sqrt_lt' (by positivity)]
    exact_mod_cast (by nlinarith : m < (r + 1) ^ 2)
  split_ifs with hzero hhalf
  · have hsquare : m = r * r := by omega
    change √(m : ℝ) = r
    rw [hsquare]
    push_cast
    exact Real.sqrt_mul_self (Nat.cast_nonneg r)
  · have habove : (r : ℝ) < √(m : ℝ) := by
      rw [Real.lt_sqrt (by positivity)]
      exact_mod_cast (by rw [pow_two]; omega : r ^ 2 < m)
    have hbelow : √(m : ℝ) < r + 1 / 2 := by
      rw [Real.sqrt_lt' (by positivity)]
      have hm : (m : ℝ) ≤ r * r + r := by exact_mod_cast (by omega : m ≤ r * r + r)
      nlinarith
    exact ⟨habove, by linarith⟩
  · have habove : (r : ℝ) + 1 / 2 < √(m : ℝ) := by
      rw [Real.lt_sqrt (by positivity)]
      have hm : (r * r + r + 1 : ℝ) ≤ m := by exact_mod_cast (by omega : r * r + r + 1 ≤ m)
      nlinarith
    exact ⟨by linarith, hnext⟩

theorem targetExponent_sqrt_le {m : ℕ} (hm : 0 < m) (e : ℤ) :
    Format.binary64.targetExponent ((totalExponent m e + 1).ediv 2) ≤ lastPlace √(m * 2 ^ e) := by
  have hm1 : (2 : ℝ) ^ (m.log2 : ℤ) ≤ m := by exact_mod_cast Nat.log2_self_le hm.ne'
  have hlow : (2 : ℝ) ^ ((m.log2 + e) / 2 : ℤ) ≤ √(m * 2 ^ e) := by
    apply Real.le_sqrt_of_sq_le
    rw [← zpow_natCast, ← zpow_mul]
    calc (2 : ℝ) ^ ((m.log2 + e) / 2 * (2 : ℕ) : ℤ) ≤ 2 ^ (m.log2 + e : ℤ) :=
          zpow_le_zpow_right₀ (by norm_num) (by omega)
      _ = 2 ^ (m.log2 : ℤ) * 2 ^ e := zpow_add₀ (by norm_num) _ _
      _ ≤ m * 2 ^ e := mul_le_mul_of_nonneg_right hm1 (by positivity)
  have hexp := lt_lastPlace_of_zpow_le (hlow.trans (le_abs_self _))
  have hleast := le_lastPlace √(m * 2 ^ e)
  have hdiv : (totalExponent m e + 1).ediv 2 = (m.log2 + e) / 2 + 1 := by
    change (_ : ℤ) / 2 = _
    unfold totalExponent
    omega
  rw [hdiv, targetExponent_eq]
  omega

theorem sqrt_represents {u : UnpackedFloat} {x : ℝ} (hu : Represents u x) (hx : 0 ≤ x) :
    Represents (UnpackedFloat.sqrt Format.binary64 u) (rounded √x) := by
  rcases hu.cases with ⟨s, rfl, rfl⟩ | ⟨s, m, e, hm, rfl, rfl, _⟩
  · rw [Real.sqrt_zero, rounded_zero]
    exact .zero s
  · have hpos : (0 : ℝ) < m * 2 ^ e := by positivity
    cases s with
    | negative =>
      simp only [signFactor] at hx
      linarith
    | positive =>
      have htarget := targetExponent_sqrt_le hm e
      unfold UnpackedFloat.sqrt UnpackedFloat.sqrtCore
      dsimp only
      generalize ht : min (e.ediv 2) (Format.binary64.targetExponent
        ((totalExponent m e + 1).ediv 2)) = t
      have hte : 2 * t ≤ e := by
        have : t ≤ e / 2 := ht ▸ min_le_left _ _
        omega
      have hshift := shiftLeft_value m (e - 2 * t).toNat e
      rw [show e - (e - 2 * t).toNat = t * (2 : ℕ) by push_cast; omega, zpow_mul, zpow_natCast]
        at hshift
      refine (roundWithAccuracy_represents .positive (Real.sqrt_pos.mpr hpos) (e := t) ?_
        (by omega)).congr ?_
      · rw [← hshift, Real.sqrt_mul (by positivity), Real.sqrt_sq (by positivity),
          mul_div_cancel_right₀ _ (by positivity)]
        exact meets_sqrt _
      · simp only [signFactor, one_mul]

end GeoAlmanac.Binary64
