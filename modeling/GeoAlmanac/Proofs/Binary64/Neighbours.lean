import GeoAlmanac.Proofs.Binary64.Value

/-! Neighbours on the grid of doubles. Between two powers of two the grid points lie one unit apart,
so a double that misses a point of the units misses it by a whole one, and a sum that stays among
them is exact. Every real number has a nearest double. -/

namespace GeoAlmanac.Binary64
open Float.Model
open Float.Model.UnpackedFloat (Sign)

theorem abs_rounded_sub_le_mul (x : ℝ) :
    |rounded x - x| ≤ 2 ^ (-53 : ℤ) * |x| + 2 ^ (-1075 : ℤ) := by
  have hhalf := abs_rounded_sub_le x
  rcases eq_or_ne x 0 with rfl | hx
  · rw [rounded_zero, sub_zero, abs_zero, mul_zero, zero_add]
    positivity
  rcases (le_lastPlace x).lt_or_eq with hlt | hleast
  · have hleading := zpow_le_of_lt_lastPlace hx hlt
    have hunit : (2 : ℝ) ^ lastPlace x / 2 = 2 ^ (-53 : ℤ) * 2 ^ (lastPlace x + 52) := by
      rw [← zpow_add₀ (by norm_num), div_eq_mul_inv, ← zpow_sub_one₀ (by norm_num)]
      congr 1
      omega
    have htiny : (0 : ℝ) < 2 ^ (-1075 : ℤ) := by positivity
    calc |rounded x - x| ≤ 2 ^ (-53 : ℤ) * 2 ^ (lastPlace x + 52) := hunit ▸ hhalf
      _ ≤ 2 ^ (-53 : ℤ) * |x| := mul_le_mul_of_nonneg_left hleading (by positivity)
      _ ≤ _ := (lt_add_of_pos_right _ htiny).le
  · have hunit : (2 : ℝ) ^ lastPlace x / 2 = 2 ^ (-1075 : ℤ) := by
      rw [← hleast, div_eq_mul_inv, ← zpow_sub_one₀ (by norm_num)]
      norm_num
    have hpart : 0 ≤ 2 ^ (-53 : ℤ) * |x| := by positivity
    rw [hunit] at hhalf
    linarith

theorem rounded_pos {x : ℝ} (h : 2 ^ (-1075 : ℤ) < x) : 0 < rounded x := by
  have hx : 0 < x := lt_trans (by positivity) h
  have hhalf : (2 : ℝ) ^ lastPlace x / 2 < x := by
    rw [div_eq_mul_inv, ← zpow_sub_one₀ two_ne_zero]
    rcases (le_lastPlace x).eq_or_lt with hleast | hlt
    · rw [← hleast]
      exact h
    · have hleading := zpow_le_of_lt_lastPlace hx.ne' hlt
      rw [abs_of_pos hx] at hleading
      exact (zpow_lt_zpow_right₀ one_lt_two (by omega)).trans_le hleading
  have hnear := (abs_sub_le_iff.mp (abs_rounded_sub_le x)).2
  linarith

/-- A result below a power of two is a half of its last place away from the exact one. -/
theorem Rounds.near {x : Float} {r : ℝ} (h : Rounds x r) {n : ℤ} (hlow : -1021 ≤ n)
    (hhigh : n < 1024) (hr : |r| < 2 ^ n) :
    x.isFinite = true ∧ |value x - r| ≤ 2 ^ (n - 54) := by
  obtain ⟨hfinite, hvalue⟩ := h.of_abs_lt
    ((abs_rounded_le_zpow (by omega) hr.le).trans_lt (zpow_lt_zpow_right₀ (by norm_num) hhigh))
  exact ⟨hfinite, hvalue ▸ abs_rounded_sub_le_of_lt hlow hr⟩

/-- Whole multiples of a power of two are doubles while they are small. -/
theorem rounded_of_eq {r : ℝ} (n e : ℤ) (h : r = n * 2 ^ e) (hn : |n| < 2 ^ 53)
    (he : -1074 ≤ e) : rounded r = r := by
  rw [h]
  exact rounded_intCast_mul hn he

/-- A result between two numbers that are doubles is a double between them. -/
theorem Rounds.mem_Icc {x : Float} {r l u : ℝ} (h : Rounds x r) (hr : r ∈ Set.Icc l u)
    (hl : rounded l = l) (hu : rounded u = u) (hlow : -1024 < l) (hhigh : u < 1024) :
    x.isFinite = true ∧ value x ∈ Set.Icc l u := by
  have hsmall : |r| < 2 ^ (10 : ℤ) := by
    rw [abs_lt]
    norm_num
    exact ⟨hlow.trans_le hr.1, hr.2.trans_lt hhigh⟩
  obtain ⟨hx, -⟩ := h.near (by norm_num) (by norm_num) hsmall
  have hle := rounded_mono hr.1
  have hge := rounded_mono hr.2
  rw [hl] at hle
  rw [hu] at hge
  rw [h.value_eq hx]
  exact ⟨hx, hle, hge⟩

/-- A result that is a double is exact. -/
theorem Rounds.exact {x : Float} {r : ℝ} (h : Rounds x r) (hr : rounded r = r)
    (hsmall : |r| < 2 ^ (10 : ℤ)) : x.isFinite = true ∧ value x = r := by
  obtain ⟨hx, -⟩ := h.near (by norm_num) (by norm_num) hsmall
  exact ⟨hx, (h.value_eq hx).trans hr⟩

/-- A sum of a grid point and whole units of its last place is exact while it stays below twice the
power of two under the grid point. -/
theorem rounded_add_of_lt {g : ℝ} (hg : rounded g = g) {n : ℤ} (hleast : -1022 ≤ n)
    (hlow : 2 ^ n ≤ |g|) (j : ℤ) (hsum : |g + j * 2 ^ (n - 52)| < 2 ^ (n + 1)) :
    rounded (g + j * 2 ^ (n - 52)) = g + j * 2 ^ (n - 52) := by
  obtain ⟨k, hk⟩ := exists_eq_intCast_mul hg hlow
  have hunit : (0 : ℝ) < 2 ^ (n - 52) := by positivity
  have htotal : g + j * 2 ^ (n - 52) = (k + j : ℤ) * 2 ^ (n - 52) := by
    rw [hk]
    push_cast
    ring
  have hlimit : (2 : ℝ) ^ (n + 1) = (2 ^ 53 : ℤ) * 2 ^ (n - 52) := by
    rw [show n + 1 = 53 + (n - 52) by omega, zpow_add₀ (by norm_num)]
    norm_num
  rw [htotal, abs_mul, abs_of_pos hunit, hlimit] at hsum
  have hsmall : |k + j| < 2 ^ 53 := by exact_mod_cast lt_of_mul_lt_mul_right hsum hunit.le
  rw [htotal]
  exact rounded_intCast_mul hsmall (by omega)

theorem zpow_eq_units (n : ℤ) : (2 : ℝ) ^ n = (2 ^ 52 : ℤ) * 2 ^ (n - 52) := by
  rw [show n = 52 + (n - 52) by omega, zpow_add₀ (by norm_num), add_sub_cancel_left]
  norm_num

/-- Below a point of the units a grid point stays a whole unit below it. -/
theorem le_sub_of_lt_units {g : ℝ} (hg : rounded g = g) {n k : ℤ}
    (hn : (2 : ℝ) ^ n < k * 2 ^ (n - 52)) (h : g < k * 2 ^ (n - 52)) :
    g ≤ (k - 1 : ℤ) * 2 ^ (n - 52) := by
  have hunit : (0 : ℝ) < 2 ^ (n - 52) := by positivity
  rw [zpow_eq_units] at hn
  have hk : 2 ^ 52 < k := by exact_mod_cast lt_of_mul_lt_mul_right hn hunit.le
  by_cases hlow : 2 ^ n ≤ g
  · obtain ⟨m, hm⟩ := exists_eq_intCast_mul hg (hlow.trans (le_abs_self g))
    rw [hm] at h ⊢
    have hlt : m < k := by exact_mod_cast lt_of_mul_lt_mul_right h hunit.le
    exact mul_le_mul_of_nonneg_right (by exact_mod_cast Int.le_sub_one_of_lt hlt) hunit.le
  · rw [not_le, zpow_eq_units] at hlow
    have hle : ((2 ^ 52 : ℤ) : ℝ) ≤ (k - 1 : ℤ) := by exact_mod_cast Int.le_sub_one_of_lt hk
    exact hlow.le.trans (mul_le_mul_of_nonneg_right hle hunit.le)

theorem add_le_of_units_lt {g : ℝ} (hg : rounded g = g) {n k : ℤ}
    (hn : (2 : ℝ) ^ n ≤ k * 2 ^ (n - 52)) (h : k * 2 ^ (n - 52) < g) :
    (k + 1 : ℤ) * 2 ^ (n - 52) ≤ g := by
  have hunit : (0 : ℝ) < 2 ^ (n - 52) := by positivity
  obtain ⟨m, hm⟩ := exists_eq_intCast_mul hg ((hn.trans h.le).trans (le_abs_self g))
  rw [hm] at h ⊢
  have hlt : k < m := by exact_mod_cast lt_of_mul_lt_mul_right h hunit.le
  exact mul_le_mul_of_nonneg_right (by exact_mod_cast hlt) hunit.le

/-- What a number is rounded to is a grid point. -/
theorem rounded_rounded (x : ℝ) : rounded (rounded x) = rounded x := by
  rcases lt_trichotomy 0 x with hx | rfl | hx
  · exact rounded_rounded_of_pos hx
  · rw [rounded_zero, rounded_zero]
  · have h := rounded_rounded_of_pos (neg_pos.mpr hx)
    rwa [rounded_neg, rounded_neg, neg_inj] at h
where
  rounded_rounded_of_pos {x : ℝ} (hx : 0 < x) : rounded (rounded x) = rounded x := by
    obtain ⟨h0, hle, -⟩ := nearestEven_lastPlace_bounds hx
    change rounded (nearestEven (x / 2 ^ lastPlace x) * 2 ^ lastPlace x) = _ * _
    rcases hle.lt_or_eq with hlt | heq
    · exact rounded_intCast_mul (abs_lt.mpr ⟨by omega, hlt⟩) (le_lastPlace x)
    · have hpow : ((2 ^ 53 : ℤ) : ℝ) * 2 ^ lastPlace x = 2 ^ (53 + lastPlace x) := by
        rw [zpow_add₀ (by norm_num)]
        norm_num
      have := le_lastPlace x
      rw [heq, hpow]
      exact rounded_zpow (by omega)

theorem abs_rounded_sub_le_half_unit {x : ℝ} {n : ℤ} (hn : -1022 ≤ n) (h : |x| < 2 ^ (n + 1)) :
    |rounded x - x| ≤ 2 ^ (n - 52) / 2 := by
  have hhalf : (2 : ℝ) ^ (n + 1 - 54) = 2 ^ (n - 52) / 2 := by
    rw [show n + 1 - 54 = n - 52 - 1 by omega, zpow_sub_one₀ (by norm_num), div_eq_mul_inv]
  exact hhalf ▸ abs_rounded_sub_le_of_lt (by omega) h

section
variable {x : ℝ} {n k : ℤ} (hn : -1022 ≤ n) (hk : 2 ^ 52 ≤ k) (hk' : k < 2 ^ 53)
include hn hk hk'

/-- What lies less than half a unit above a point of the units is not rounded beyond it. -/
theorem rounded_le_of_lt_units (h : x < (k + 1 / 2) * 2 ^ (n - 52)) :
    rounded x ≤ k * 2 ^ (n - 52) := by
  have hunit : (0 : ℝ) < 2 ^ (n - 52) := by positivity
  have hlow : ((2 ^ 52 : ℤ) : ℝ) ≤ k := by exact_mod_cast hk
  have hhigh : (k : ℝ) + 1 ≤ (2 ^ 53 : ℤ) := by exact_mod_cast hk'
  by_contra hnot
  rw [not_le] at hnot
  have hpos : 0 ≤ x := by
    by_contra hneg
    have hrounded := rounded_nonneg (neg_nonneg.mpr (not_le.mp hneg).le)
    have hpoint : 0 ≤ (k : ℝ) * 2 ^ (n - 52) := by positivity
    rw [rounded_neg] at hrounded
    linarith
  have hnext := add_le_of_units_lt (rounded_rounded x)
    (zpow_eq_units n ▸ mul_le_mul_of_nonneg_right hlow hunit.le) hnot
  have hsmall : |x| < 2 ^ (n + 1) := by
    rw [abs_of_nonneg hpos, zpow_add_one₀ (by norm_num), zpow_eq_units]
    push_cast at hhigh ⊢
    nlinarith
  have hnear := (abs_le.mp (abs_rounded_sub_le_half_unit hn hsmall)).2
  push_cast at hnext
  linarith

theorem units_le_rounded_of_lt (hne : k ≠ 2 ^ 52) (h : (k - 1 / 2) * 2 ^ (n - 52) < x) :
    k * 2 ^ (n - 52) ≤ rounded x := by
  have hunit : (0 : ℝ) < 2 ^ (n - 52) := by positivity
  have hlow : ((2 ^ 52 : ℤ) : ℝ) < k := by exact_mod_cast lt_of_le_of_ne hk hne.symm
  have hhigh : (k : ℝ) + 1 ≤ (2 ^ 53 : ℤ) := by exact_mod_cast hk'
  have hpos : 0 < x := by
    push_cast at hlow
    nlinarith
  by_contra hnot
  rw [not_le] at hnot
  have hprevious := le_sub_of_lt_units (rounded_rounded x)
    (zpow_eq_units n ▸ mul_lt_mul_of_pos_right hlow hunit) hnot
  push_cast at hprevious
  rcases lt_or_ge x (2 ^ (n + 1)) with hsmall | hlarge
  · rw [← abs_of_pos hpos] at hsmall
    have hnear := (abs_le.mp (abs_rounded_sub_le_half_unit hn hsmall)).1
    linarith
  · have hmono := rounded_mono hlarge
    rw [rounded_zpow (by omega), zpow_add_one₀ (by norm_num), zpow_eq_units] at hmono
    push_cast at hhigh hmono
    nlinarith

end

/-- A whole number is what the numbers less than half a unit away are rounded to; an even one also
those half a unit away. -/
theorem nearestEven_eq {x : ℝ} {n : ℤ} (h : |x - n| < 1 / 2 ∨ |x - n| ≤ 1 / 2 ∧ n % 2 = 0) :
    nearestEven x = n := by
  have hhalf : |x - n| ≤ 1 / 2 := h.elim le_of_lt And.left
  obtain ⟨hlow, hhigh⟩ := abs_le.mp hhalf
  have hodd (heq : |x - n| = 1 / 2) : n % 2 = 0 :=
    h.elim (fun hlt => absurd heq hlt.ne) And.right
  unfold nearestEven
  rcases le_or_gt (n : ℝ) x with hle | hlt
  · have hfloor : ⌊x⌋ = n := Int.floor_eq_iff.mpr ⟨hle, by linarith⟩
    rw [hfloor]
    split_ifs with hless hmore
    · rfl
    · linarith
    · rw [hodd (by rw [abs_of_nonneg (by linarith)]; linarith), add_zero]
  · have hfloor : ⌊x⌋ = n - 1 := by
      rw [Int.floor_eq_iff]
      push_cast
      constructor <;> linarith
    rw [hfloor]
    push_cast
    split_ifs with hless hmore
    · linarith
    · exact sub_add_cancel n 1
    · have := hodd (by rw [abs_of_neg (by linarith)]; linarith)
      omega

theorem lastPlace_eq {x : ℝ} {e : ℤ} (hx : x ≠ 0) (he : -1074 ≤ e) (hhigh : |x| < 2 ^ (e + 53))
    (hlow : 2 ^ (e + 52) ≤ |x| ∨ e = -1074) : lastPlace x = e := by
  have hle := lastPlace_le hx (by omega) hhigh
  have hleast := le_lastPlace x
  rcases hlow with hlow | rfl
  · have := lt_lastPlace_of_zpow_le hlow
    omega
  · omega

theorem rounded_eq_of_lastPlace {x : ℝ} {n e : ℤ} (he : lastPlace x = e)
    (h : |x / 2 ^ e - n| < 1 / 2 ∨ |x / 2 ^ e - n| ≤ 1 / 2 ∧ n % 2 = 0) :
    rounded x = n * 2 ^ e := by
  unfold rounded
  rw [he, nearestEven_eq h]

theorem rounded_eq_zero {x : ℝ} (h : |x| < 2 ^ (-1075 : ℤ)) : rounded x = 0 := by
  rcases eq_or_ne x 0 with rfl | hx
  · exact rounded_zero
  have hplace : lastPlace x = -1074 :=
    lastPlace_eq hx le_rfl (h.trans (zpow_lt_zpow_right₀ one_lt_two (by norm_num))) (.inr rfl)
  have hhalf : (2 : ℝ) ^ (-1075 : ℤ) = 1 / 2 * 2 ^ (-1074 : ℤ) := by
    rw [show (-1075 : ℤ) = -1074 - 1 by norm_num, zpow_sub_one₀ two_ne_zero]
    ring
  have hunit : (0 : ℝ) < 2 ^ (-1074 : ℤ) := by positivity
  rw [rounded_eq_of_lastPlace (n := 0) hplace, Int.cast_zero, zero_mul]
  left
  rw [Int.cast_zero, sub_zero, abs_div, abs_of_pos hunit, div_lt_iff₀ hunit, ← hhalf]
  exact h

theorem exists_rounds (x : ℝ) : ∃ y : Float, Rounds y x := by
  let n := nearestEven (x / 2 ^ lastPlace x)
  have hsign : ∃ s : Sign, (n : ℝ) = signFactor s * n.natAbs := by
    rcases le_total 0 n with h | h
    · refine ⟨.positive, ?_⟩
      rw [signFactor, one_mul, Nat.cast_natAbs, abs_of_nonneg h]
    · refine ⟨.negative, ?_⟩
      rw [signFactor, neg_one_mul, Nat.cast_natAbs, abs_of_nonpos h]
      push_cast
      ring
  obtain ⟨s, hs⟩ := hsign
  have hrounds := ofScaled_rounds s n.natAbs (lastPlace x)
  rw [← mul_assoc, ← hs] at hrounds
  refine ⟨ofScaled s n.natAbs (lastPlace x), ?_⟩
  rcases hrounds with ⟨hy, hvalue⟩ | ⟨t, hy, hlarge⟩
  · exact .finite hy (hvalue.trans (rounded_rounded x))
  · exact .overflow t hy (rounded_rounded x ▸ hlarge)

/-- A double nearest to a number. -/
noncomputable def nearestDouble (x : ℝ) : Float :=
  (exists_rounds x).choose

theorem nearestDouble_rounds (x : ℝ) : Rounds (nearestDouble x) x :=
  (exists_rounds x).choose_spec

end GeoAlmanac.Binary64
