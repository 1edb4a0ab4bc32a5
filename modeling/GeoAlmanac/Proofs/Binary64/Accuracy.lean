import GeoAlmanac.Proofs.Decimal.Nearest

/-! Doubles that stand for a number nearby. Below a thousand an operation adds its own rounding,
less than 6e-14, to what the tolerances of its operands come to. -/

namespace GeoAlmanac.Binary64
open Float.Model

/-- A finite double no further from a number than a tolerance. -/
structure Near (x : Float) (r tolerance : ℝ) : Prop where
  finite : x.isFinite = true
  close : |value x - r| ≤ tolerance

theorem near_value {x : Float} (hx : x.isFinite = true) : Near x (value x) 0 :=
  ⟨hx, by rw [sub_self, abs_zero]⟩

theorem Rounds.near_of_close {x : Float} {r t ε δ : ℝ} (h : Rounds x t) (ht : |t - r| ≤ ε)
    (hr : |r| ≤ 1000) (hδ : ε + 6e-14 ≤ δ) (hδ1 : δ ≤ 1) : Near x r δ := by
  obtain ⟨hl, hu⟩ := abs_le.mp ht
  obtain ⟨hrl, hru⟩ := abs_le.mp hr
  have hsmall : |t| < 2 ^ (10 : ℤ) := by
    rw [abs_lt]
    norm_num at *
    constructor <;> linarith
  obtain ⟨hfinite, hnear⟩ := h.near (by norm_num) (by norm_num) hsmall
  obtain ⟨hl', hu'⟩ := abs_le.mp hnear
  have hunit : (2 : ℝ) ^ (10 - 54 : ℤ) ≤ 6e-14 := by norm_num
  exact ⟨hfinite, (abs_sub_le _ t _).trans ((add_le_add (hnear.trans hunit) ht).trans
    ((add_comm _ _).trans_le hδ))⟩

theorem abs_mul_sub_le {x y r t a b ε η : ℝ} (hx : |x - r| ≤ ε) (hy : |y - t| ≤ η) (hr : |r| ≤ a)
    (ht : |t| ≤ b) : |x * y - r * t| ≤ (a + ε) * η + b * ε := by
  have hsplit : x * y - r * t = x * (y - t) + t * (x - r) := by ring
  have hxa : |x| ≤ a + ε := by
    have h := abs_add_le r (x - r)
    rw [add_sub_cancel] at h
    linarith
  rw [hsplit]
  refine (abs_add_le _ _).trans ?_
  rw [abs_mul, abs_mul]
  exact add_le_add (mul_le_mul hxa hy (abs_nonneg _) ((abs_nonneg _).trans hxa))
    (mul_le_mul ht hx (abs_nonneg _) ((abs_nonneg _).trans ht))

section
variable {x y : Float} {r t ε η δ : ℝ} (hx : Near x r ε)
include hx

theorem Near.weaken (h : ε ≤ δ) : Near x r δ :=
  ⟨hx.finite, hx.close.trans h⟩

theorem Near.of_close (h : |r - t| ≤ η) (hδ : ε + η ≤ δ) : Near x t δ :=
  ⟨hx.finite, (abs_sub_le _ r _).trans ((add_le_add hx.close h).trans hδ)⟩

theorem Near.div_const {k : ℝ} (hy : y.isFinite = true) (hk : value y = k) (h1 : 1 ≤ k)
    (hsize : |r / k| ≤ 1000) (hδ : ε + 6e-14 ≤ δ) (hδ1 : δ ≤ 1) : Near (x / y) (r / k) δ := by
  have hpos : 0 < k := by linarith
  have hrounds := div_rounds hx.finite hy (hk ▸ hpos.ne')
  rw [hk] at hrounds
  refine hrounds.near_of_close ?_ hsize hδ hδ1
  rw [← sub_div, abs_div, abs_of_pos hpos]
  exact (div_le_self (abs_nonneg _) h1).trans hx.close

variable (hy : Near y t η)
include hy

theorem Near.add (hsize : |r + t| ≤ 1000) (hδ : ε + η + 6e-14 ≤ δ) (hδ1 : δ ≤ 1) :
    Near (x + y) (r + t) δ := by
  refine (add_rounds hx.finite hy.finite).near_of_close ?_ hsize hδ hδ1
  rw [add_sub_add_comm]
  exact (abs_add_le _ _).trans (add_le_add hx.close hy.close)

theorem Near.sub (hsize : |r - t| ≤ 1000) (hδ : ε + η + 6e-14 ≤ δ) (hδ1 : δ ≤ 1) :
    Near (x - y) (r - t) δ := by
  refine (sub_rounds hx.finite hy.finite).near_of_close ?_ hsize hδ hδ1
  rw [sub_sub_sub_comm]
  exact (abs_sub _ _).trans (add_le_add hx.close hy.close)

theorem Near.mul {a b : ℝ} (hr : |r| ≤ a) (ht : |t| ≤ b) (hsize : a * b ≤ 1000)
    (hδ : (a + ε) * η + b * ε + 6e-14 ≤ δ) (hδ1 : δ ≤ 1) : Near (x * y) (r * t) δ := by
  refine (mul_rounds hx.finite hy.finite).near_of_close
    (abs_mul_sub_le hx.close hy.close hr ht) ?_ hδ hδ1
  rw [abs_mul]
  exact (mul_le_mul hr ht (abs_nonneg _) ((abs_nonneg _).trans hr)).trans hsize

end

theorem near_decimal {r : ℝ} (m e : ℕ) (h : r = m / 10 ^ e) (hr : |r| ≤ 1000) :
    Near (Float.ofScientific m true e) r 6e-14 := by
  have hrounds := (Decimal.ofScientific_isNearest m e true).rounds
  have hexact : signFactor .positive * (m * 10 ^ Decimal.signedExponent true e) = r := by
    rw [signFactor, one_mul, Decimal.signedExponent, if_pos rfl, zpow_neg, zpow_natCast, h,
      div_eq_mul_inv]
  exact hrounds.near_of_close (ε := 0) (by rw [hexact, sub_self, abs_zero]) hr (by norm_num)
    (by norm_num)

end GeoAlmanac.Binary64
