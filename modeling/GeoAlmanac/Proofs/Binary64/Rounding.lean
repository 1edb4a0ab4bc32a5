import Mathlib.Algebra.Order.Archimedean.Real.Basic
import Mathlib.Algebra.Order.Field.Power
import Mathlib.Data.Int.Log
import Mathlib.Tactic.FieldSimp
import Mathlib.Tactic.Linarith
import Mathlib.Tactic.Positivity

/-! Rounding of a real number to the grid of doubles, whose exponents have no upper end here: the
nearest grid point, and of two equally near ones that with the even significand. Rounding keeps the
order, and no grid point moves. The doubles are the grid points below a limit. -/

namespace GeoAlmanac.Binary64
open Float.Model
open Float.Model.UnpackedFloat (Sign)

/-- The nearest whole number; an exact half goes to the even neighbour. -/
noncomputable def nearestEven (x : ℝ) : ℤ :=
  if x - ⌊x⌋ < 1 / 2 then ⌊x⌋
  else if 1 / 2 < x - ⌊x⌋ then ⌊x⌋ + 1
  else ⌊x⌋ + ⌊x⌋ % 2

@[simp] theorem nearestEven_intCast (n : ℤ) : nearestEven n = n := by
  simp [nearestEven]

theorem nearestEven_bounds (x : ℝ) : ⌊x⌋ ≤ nearestEven x ∧ nearestEven x ≤ ⌊x⌋ + 1 := by
  unfold nearestEven
  split_ifs <;> omega

theorem abs_nearestEven_sub_le (x : ℝ) : |(nearestEven x : ℝ) - x| ≤ 1 / 2 := by
  have hlow := Int.floor_le x
  have hhigh := Int.lt_floor_add_one x
  have hparity : ⌊x⌋ % 2 = 0 ∨ ⌊x⌋ % 2 = 1 := by omega
  unfold nearestEven
  split_ifs with hless hmore
  · rw [abs_le]
    constructor <;> linarith
  · push_cast
    rw [abs_le]
    constructor <;> linarith
  · rcases hparity with h | h <;> rw [h] <;> push_cast <;> rw [abs_le] <;> constructor <;> linarith

theorem nearestEven_mono {x y : ℝ} (h : x ≤ y) : nearestEven x ≤ nearestEven y := by
  have hfloor := Int.floor_le_floor h
  obtain ⟨hxl, hxu⟩ := nearestEven_bounds x
  obtain ⟨hyl, hyu⟩ := nearestEven_bounds y
  rcases hfloor.eq_or_lt with heq | hlt
  · unfold nearestEven
    rw [heq]
    split_ifs <;> first | omega | linarith
  · omega

theorem nearestEven_neg (x : ℝ) : nearestEven (-x) = -nearestEven x := by
  rcases (Int.floor_le x).eq_or_lt with hwhole | hlt
  · rw [← hwhole, ← Int.cast_neg, nearestEven_intCast, nearestEven_intCast]
  · have hhigh := Int.lt_floor_add_one x
    have hfloor : ⌊-x⌋ = -⌊x⌋ - 1 := by
      rw [Int.floor_eq_iff]
      push_cast
      constructor <;> linarith
    unfold nearestEven
    rw [hfloor]
    push_cast
    split_ifs <;> first | omega | linarith

theorem zpow_div_zpow {m n : ℤ} (h : m ≤ n) :
    (2 : ℝ) ^ n / 2 ^ m = (2 ^ (n - m).toNat : ℤ) := by
  push_cast
  rw [← zpow_sub₀ (by norm_num), ← zpow_natCast, Int.toNat_of_nonneg (by omega)]

/-- The exponent of the last place of the doubles about a number. -/
noncomputable def lastPlace (x : ℝ) : ℤ :=
  max (Int.log 2 |x| - 52) (-1074)

/-- The grid point nearest to a number. -/
noncomputable def rounded (x : ℝ) : ℝ :=
  nearestEven (x / 2 ^ lastPlace x) * 2 ^ lastPlace x

theorem lastPlace_neg (x : ℝ) : lastPlace (-x) = lastPlace x := by
  simp [lastPlace]

theorem rounded_neg (x : ℝ) : rounded (-x) = -rounded x := by
  unfold rounded
  rw [lastPlace_neg, neg_div, nearestEven_neg]
  push_cast
  ring

theorem le_lastPlace (x : ℝ) : -1074 ≤ lastPlace x :=
  le_max_right _ _

theorem lastPlace_mono {x y : ℝ} (hx : 0 < x) (h : x ≤ y) : lastPlace x ≤ lastPlace y := by
  have hlog := Int.log_mono_right (b := 2) hx h
  unfold lastPlace
  rw [abs_of_pos hx, abs_of_pos (hx.trans_le h)]
  omega

theorem lt_zpow_of_lastPlace (x : ℝ) : |x| < 2 ^ (lastPlace x + 53) := by
  have hlog := Int.lt_zpow_succ_log_self (b := 2) (by norm_num) |x|
  have hexp : Int.log 2 |x| + 1 ≤ lastPlace x + 53 := by
    unfold lastPlace
    omega
  exact (by exact_mod_cast hlog : |x| < 2 ^ (Int.log 2 |x| + 1)).trans_le
    (zpow_le_zpow_right₀ (by norm_num) hexp)

/-- A power of two lies below the places that a number of its size has. -/
theorem lt_lastPlace_of_zpow_le {x : ℝ} {n : ℤ} (h : 2 ^ n ≤ |x|) : n < lastPlace x + 53 :=
  (zpow_lt_zpow_iff_right₀ one_lt_two).mp (h.trans_lt (lt_zpow_of_lastPlace x))

/-- Above the least exponent the leading place is used. -/
theorem zpow_le_of_lt_lastPlace {x : ℝ} (hx : x ≠ 0) (h : -1074 < lastPlace x) :
    2 ^ (lastPlace x + 52) ≤ |x| := by
  have hlog := Int.zpow_log_le_self (b := 2) (by norm_num) (abs_pos.mpr hx)
  have hexp : lastPlace x + 52 = Int.log 2 |x| := by
    unfold lastPlace at h ⊢
    omega
  rw [hexp]
  exact_mod_cast hlog

theorem lastPlace_le {x : ℝ} (hx : x ≠ 0) {n : ℤ} (hn : -1021 ≤ n) (h : |x| < 2 ^ n) :
    lastPlace x ≤ n - 53 := by
  by_contra hlt
  have hle := zpow_le_of_lt_lastPlace hx (by omega)
  have hpow : (2 : ℝ) ^ n ≤ 2 ^ (lastPlace x + 52) := zpow_le_zpow_right₀ (by norm_num) (by omega)
  linarith

@[simp] theorem rounded_zero : rounded 0 = 0 := by
  unfold rounded
  rw [zero_div, ← Int.cast_zero, nearestEven_intCast, Int.cast_zero, zero_mul]

theorem abs_rounded_sub_le (x : ℝ) : |rounded x - x| ≤ 2 ^ lastPlace x / 2 := by
  have hpos : (0 : ℝ) < 2 ^ lastPlace x := by positivity
  have hsplit : rounded x - x =
      (nearestEven (x / 2 ^ lastPlace x) - x / 2 ^ lastPlace x) * 2 ^ lastPlace x := by
    unfold rounded
    rw [sub_mul, div_mul_cancel₀ _ hpos.ne']
  rw [hsplit, abs_mul, abs_of_pos hpos]
  have := abs_nearestEven_sub_le (x / 2 ^ lastPlace x)
  nlinarith

theorem abs_rounded_sub_le_of_lt {x : ℝ} {n : ℤ} (hn : -1021 ≤ n) (h : |x| < 2 ^ n) :
    |rounded x - x| ≤ 2 ^ (n - 54) := by
  rcases eq_or_ne x 0 with rfl | hx
  · rw [rounded_zero, sub_zero, abs_zero]
    positivity
  · have hpow : (2 : ℝ) ^ lastPlace x ≤ 2 ^ (n - 53) :=
      zpow_le_zpow_right₀ (by norm_num) (lastPlace_le hx hn h)
    have hhalf : (2 : ℝ) ^ (n - 53) = 2 ^ (n - 54) * 2 := by
      rw [← zpow_add_one₀ (by norm_num)]
      congr 1
      omega
    have := abs_rounded_sub_le x
    linarith

theorem rounded_eq_self_of_lastPlace_le {n e : ℤ} (h : lastPlace (n * 2 ^ e) ≤ e) :
    rounded (n * 2 ^ e) = n * 2 ^ e := by
  generalize hx : (n * 2 ^ e : ℝ) = x at h ⊢
  have hwhole : x / 2 ^ lastPlace x = (n * 2 ^ (e - lastPlace x).toNat : ℤ) := by
    rw [Int.cast_mul, ← zpow_div_zpow h, ← mul_div_assoc, hx]
  unfold rounded
  rw [hwhole, nearestEven_intCast, ← hwhole, div_mul_cancel₀ _ (by positivity)]

/-- The grid holds the significands of 53 bits at every exponent. -/
theorem rounded_intCast_mul {n e : ℤ} (hn : |n| < 2 ^ 53) (he : -1074 ≤ e) :
    rounded (n * 2 ^ e) = n * 2 ^ e := by
  rcases eq_or_ne n 0 with rfl | hne
  · rw [Int.cast_zero, zero_mul, rounded_zero]
  apply rounded_eq_self_of_lastPlace_le
  by_contra hlt
  have hreal : (|n| : ℝ) < 2 ^ (53 : ℤ) := by exact_mod_cast hn
  have hle := zpow_le_of_lt_lastPlace (x := n * 2 ^ e) (by positivity) (by omega)
  have hpow : (2 : ℝ) ^ (53 : ℤ) * 2 ^ e ≤ 2 ^ (lastPlace (n * 2 ^ e) + 52) := by
    rw [← zpow_add₀ (by norm_num)]
    exact zpow_le_zpow_right₀ (by norm_num) (by omega)
  rw [abs_mul, abs_of_pos (show (0 : ℝ) < 2 ^ e by positivity)] at hle
  have := mul_lt_mul_of_pos_right hreal (show (0 : ℝ) < 2 ^ e by positivity)
  linarith

theorem rounded_zpow {n : ℤ} (h : -1074 ≤ n) : rounded (2 ^ n) = 2 ^ n := by
  simpa using rounded_intCast_mul (n := 1) (by norm_num) h

theorem rounded_intCast {n : ℤ} (h : |n| < 2 ^ 53) : rounded n = n := by
  simpa using rounded_intCast_mul h (show -1074 ≤ (0 : ℤ) by norm_num)

theorem rounded_le_zpow {x : ℝ} {n : ℤ} (hn : lastPlace x ≤ n) (h : x ≤ 2 ^ n) :
    rounded x ≤ 2 ^ n := by
  have hpos : (0 : ℝ) < 2 ^ lastPlace x := by positivity
  have hwhole := zpow_div_zpow hn
  have hle : nearestEven (x / 2 ^ lastPlace x) ≤ 2 ^ (n - lastPlace x).toNat := by
    rw [← nearestEven_intCast (2 ^ (n - lastPlace x).toNat), ← hwhole]
    exact nearestEven_mono (div_le_div_of_nonneg_right h hpos.le)
  have hle : (nearestEven (x / 2 ^ lastPlace x) : ℝ) ≤ 2 ^ n / 2 ^ lastPlace x := by
    rw [hwhole]
    exact_mod_cast hle
  exact (le_div_iff₀ hpos).mp hle

theorem zpow_le_rounded {x : ℝ} {n : ℤ} (hn : lastPlace x ≤ n) (h : 2 ^ n ≤ x) :
    2 ^ n ≤ rounded x := by
  have hpos : (0 : ℝ) < 2 ^ lastPlace x := by positivity
  have hwhole := zpow_div_zpow hn
  have hle : 2 ^ (n - lastPlace x).toNat ≤ nearestEven (x / 2 ^ lastPlace x) := by
    rw [← nearestEven_intCast (2 ^ (n - lastPlace x).toNat), ← hwhole]
    exact nearestEven_mono (div_le_div_of_nonneg_right h hpos.le)
  have hle : (2 : ℝ) ^ n / 2 ^ lastPlace x ≤ nearestEven (x / 2 ^ lastPlace x) := by
    rw [hwhole]
    exact_mod_cast hle
  exact (div_le_iff₀ hpos).mp hle

theorem rounded_nonneg {x : ℝ} (h : 0 ≤ x) : 0 ≤ rounded x := by
  have hle := nearestEven_mono (show ((0 : ℤ) : ℝ) ≤ x / 2 ^ lastPlace x by
    rw [Int.cast_zero]
    positivity)
  rw [nearestEven_intCast] at hle
  have hle : (0 : ℝ) ≤ nearestEven (x / 2 ^ lastPlace x) := by exact_mod_cast hle
  unfold rounded
  positivity

theorem rounded_le_rounded_of_pos {x y : ℝ} (hx : 0 < x) (h : x ≤ y) : rounded x ≤ rounded y := by
  rcases (lastPlace_mono hx h).eq_or_lt with heq | hlt
  · have hle := nearestEven_mono (div_le_div_of_nonneg_right h
      (show (0 : ℝ) ≤ 2 ^ lastPlace y by positivity))
    unfold rounded
    rw [heq]
    exact mul_le_mul_of_nonneg_right (by exact_mod_cast hle) (by positivity)
  · have hpos := hx.trans_le h
    have hleast := le_lastPlace x
    have hlow := zpow_le_of_lt_lastPlace hpos.ne' (by omega)
    have hhigh := lt_zpow_of_lastPlace x
    rw [abs_of_pos hpos] at hlow
    rw [abs_of_pos hx] at hhigh
    have hgap : (2 : ℝ) ^ (lastPlace x + 53) ≤ 2 ^ (lastPlace y + 52) :=
      zpow_le_zpow_right₀ (by norm_num) (by omega)
    exact (rounded_le_zpow (by omega) (hhigh.le.trans hgap)).trans
      (zpow_le_rounded (by omega) hlow)

/-- Rounding keeps the order. -/
theorem rounded_mono : Monotone rounded := by
  intro x y h
  rcases lt_trichotomy 0 x with hx | rfl | hx
  · exact rounded_le_rounded_of_pos hx h
  · rw [rounded_zero]
    exact rounded_nonneg h
  · rcases lt_or_ge y 0 with hy | hy
    · have hle := rounded_le_rounded_of_pos (neg_pos.mpr hy) (neg_le_neg h)
      rw [rounded_neg, rounded_neg] at hle
      linarith
    · have hle := rounded_nonneg (neg_nonneg.mpr hx.le)
      rw [rounded_neg] at hle
      linarith [rounded_nonneg hy]

theorem abs_rounded_le {x g : ℝ} (hg : rounded g = g) (h : |x| ≤ g) : |rounded x| ≤ g := by
  obtain ⟨hl, hu⟩ := abs_le.mp h
  have hl := rounded_mono hl
  have hu := rounded_mono hu
  rw [rounded_neg, hg] at hl
  rw [hg] at hu
  exact abs_le.mpr ⟨hl, hu⟩

theorem abs_rounded_le_zpow {x : ℝ} {n : ℤ} (hn : -1074 ≤ n) (h : |x| ≤ 2 ^ n) :
    |rounded x| ≤ 2 ^ n :=
  abs_rounded_le (rounded_zpow hn) h

theorem exists_eq_intCast_mul {g : ℝ} (hg : rounded g = g) {n : ℤ} (h : 2 ^ n ≤ |g|) :
    ∃ k : ℤ, g = k * 2 ^ (n - 52) := by
  have hexp := lt_lastPlace_of_zpow_le h
  refine ⟨nearestEven (g / 2 ^ lastPlace g) * 2 ^ (lastPlace g - (n - 52)).toNat, ?_⟩
  rw [Int.cast_mul, ← zpow_div_zpow (by omega), mul_assoc, div_mul_cancel₀ _ (by positivity)]
  exact hg.symm

/-- The first power of two beyond the doubles. -/
noncomputable def overflowLimit : ℝ :=
  2 ^ (1024 : ℤ)

theorem overflowLimit_pos : 0 < overflowLimit := by
  unfold overflowLimit
  positivity

/-- The factor of a sign. -/
def signFactor : Sign → ℝ
  | .negative => -1
  | .positive => 1

theorem abs_signFactor_mul (s : Sign) {x : ℝ} (hx : 0 ≤ x) : |signFactor s * x| = x := by
  cases s <;> simp [signFactor, abs_of_nonneg hx]

/-- The number an unpacked double stands for; zero where it stands for none. -/
noncomputable def unpackedValue : UnpackedFloat → ℝ
  | .finite s m e _ => signFactor s * (m * 2 ^ e)
  | _ => 0

end GeoAlmanac.Binary64
