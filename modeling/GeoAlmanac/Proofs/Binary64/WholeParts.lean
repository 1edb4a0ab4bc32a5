import GeoAlmanac.Proofs.Binary64.Intervals
import GeoAlmanac.Proofs.Binary64.Neighbours

/-! Whole parts of doubles that are not negative. Taking the whole part, counting it in 32 bits and
taking it away are all exact; only what is made of the rest can be rounded. -/

namespace GeoAlmanac.Binary64
open Float.Model Float.Model.UnpackedFloat

/-- A double that is not negative is a zero or a significand with a plus sign. -/
theorem unpack_of_nonneg {x : Float} (hx : x.isFinite = true) (h0 : 0 ≤ value x) :
    (∃ s, x.toModel.unpack = .zero s ∧ value x = 0) ∨
      ∃ m e hm, x.toModel.unpack = .finite .positive m e hm ∧ value x = m * 2 ^ e ∧
        m < 2 ^ 53 ∧ -1074 ≤ e := by
  rcases (represents hx).cases with ⟨s, hu, hvalue⟩ | ⟨s, m, e, hm, hu, hvalue, h53, he, _⟩
  · exact .inl ⟨s, hu, hvalue⟩
  · cases s with
    | positive => exact .inr ⟨m, e, hm, hu, hvalue.trans (one_mul _), h53, he⟩
    | negative =>
      have hpos : (0 : ℝ) < m * 2 ^ e := by positivity
      rw [hvalue] at h0
      simp only [signFactor] at h0
      linarith

theorem floor_scaled_up (m : ℕ) {e : ℤ} (he : 0 ≤ e) :
    (⌊(m : ℝ) * 2 ^ e⌋ : ℝ) = m * 2 ^ e := by
  have hwhole := shiftLeft_value m e.toNat e
  rw [Int.toNat_of_nonneg he, sub_self, zpow_zero, mul_one] at hwhole
  rw [← hwhole, Int.floor_natCast, Int.cast_natCast]

theorem floor_scaled_down (m k : ℕ) : ⌊(m : ℝ) * 2 ^ (-(k : ℤ))⌋ = (m >>> k : ℕ) := by
  have hdiv : (m : ℝ) * 2 ^ (-(k : ℤ)) = (m : ℝ) / (2 ^ k : ℕ) := by
    rw [zpow_neg, zpow_natCast, ← div_eq_mul_inv]
    push_cast
    rfl
  rw [hdiv, Int.floor_div_natCast, Int.floor_natCast, Nat.shiftRight_eq_div_pow]
  rfl

theorem ofScaled_whole {n : ℕ} (hn : n < 2 ^ 53) :
    (ofScaled .positive n 0).isFinite = true ∧ value (ofScaled .positive n 0) = n := by
  have hrounded : rounded (n : ℝ) = n := by
    exact_mod_cast rounded_intCast (n := n) (by rw [Nat.abs_cast]; exact_mod_cast hn)
  have hrounds := ofScaled_rounds .positive n 0
  rw [zpow_zero, mul_one, signFactor, one_mul] at hrounds
  have hsmall : |rounded (n : ℝ)| < overflowLimit := by
    rw [hrounded, Nat.abs_cast]
    calc (n : ℝ) < 2 ^ (53 : ℤ) := by exact_mod_cast hn
      _ ≤ overflowLimit := zpow_le_zpow_right₀ (by norm_num) (by norm_num)
  rw [← hrounded]
  exact hrounded.symm ▸ hrounds.of_abs_lt hsmall

theorem floorOf_value {x : Float} (hx : x.isFinite = true) (h0 : 0 ≤ value x) :
    (floorOf x).isFinite = true ∧ value (floorOf x) = ⌊value x⌋ := by
  rcases unpack_of_nonneg hx h0 with ⟨s, hu, hvalue⟩ | ⟨m, e, hm, hu, hvalue, h53, he⟩
  · have hfloor : floorOf x = x := by simp only [floorOf, hu]
    rw [hfloor, hvalue, Int.floor_zero, Int.cast_zero]
    exact ⟨hx, rfl⟩
  · by_cases hwhole : 0 ≤ e
    · have hfloor : floorOf x = x := by simp only [floorOf, hu, if_pos hwhole]
      rw [hfloor, hvalue, floor_scaled_up m hwhole]
      exact ⟨hx, rfl⟩
    · have hfloor : floorOf x = ofScaled .positive (m >>> (-e).toNat) 0 := by
        simp only [floorOf, hu, if_neg hwhole]
      have hneg : e = -((-e).toNat : ℤ) := by omega
      have hdown := floor_scaled_down m (-e).toNat
      rw [← hneg] at hdown
      rw [hfloor, hvalue, hdown, Int.cast_natCast]
      exact ofScaled_whole ((Nat.shiftRight_le m _).trans_lt h53)

theorem roundToInt_eq_floor (m : ℕ) (e : ℤ) :
    roundToInt .positive m e = ⌊(m : ℝ) * 2 ^ e⌋ := by
  have hexact : Meets (m <<< (e - 0).toNat) .exact
      ((m : ℝ) * 2 ^ e / 2 ^ (e - (e - 0).toNat)) := by
    rw [← shiftLeft_value m (e - 0).toNat e]
    exact mul_div_cancel_right₀ _ (by positivity)
  obtain ⟨hexp, hmeets⟩ := shiftToExponent_meets hexact 0
  rw [show max (e - (e - 0).toNat) 0 = 0 by omega, zpow_zero, div_one] at hmeets
  exact (Int.floor_eq_iff.mpr (by exact_mod_cast hmeets.bounds)).symm

theorem toNat_toUInt32_float {x : Float} (hx : x.isFinite = true) (h0 : 0 ≤ value x)
    (h : value x < 2 ^ 32) : (x.toUInt32.toNat : ℤ) = ⌊value x⌋ := by
  have hcount : x.toModel.unpack.toInt 0 (UInt32.size - 1) = ⌊value x⌋ := by
    rcases unpack_of_nonneg hx h0 with ⟨s, hu, hvalue⟩ | ⟨m, e, hm, hu, hvalue, _⟩
    · rw [hu, hvalue, Int.floor_zero]
      rfl
    · rw [hu, hvalue]
      exact roundToInt_eq_floor m e
  have hnonneg : 0 ≤ ⌊value x⌋ := Int.floor_nonneg.mpr h0
  have hlt : ⌊value x⌋ < 2 ^ 32 := Int.floor_lt.mpr (by exact_mod_cast h)
  change ((UInt32.ofNatClamp (x.toModel.unpack.toInt 0 (UInt32.size - 1)).toNat).toNat : ℤ) = _
  rw [hcount]
  unfold UInt32.ofNatClamp
  have hsize : (⌊value x⌋).toNat < UInt32.size := by
    change _ < 2 ^ 32
    omega
  rw [dif_pos hsize]
  change ((⌊value x⌋).toNat : ℤ) = _
  omega

theorem sub_floorOf_value {x : Float} (hx : x.isFinite = true) (h0 : 0 ≤ value x) :
    (x - floorOf x).isFinite = true ∧ value (x - floorOf x) = Int.fract (value x) := by
  obtain ⟨hfinite, hfloor⟩ := floorOf_value hx h0
  have hrounds := sub_rounds hx hfinite
  have hrest : value x - value (floorOf x) = Int.fract (value x) := by rw [hfloor]; rfl
  have hgrid : rounded (Int.fract (value x)) = Int.fract (value x) := by
    rcases unpack_of_nonneg hx h0 with ⟨s, hu, hvalue⟩ | ⟨m, e, hm, hu, hvalue, h53, he⟩
    · rw [hvalue, Int.fract_zero, rounded_zero]
    · by_cases hwhole : 0 ≤ e
      · rw [hvalue, Int.fract, floor_scaled_up m hwhole, sub_self, rounded_zero]
      · have hneg : e = -((-e).toNat : ℤ) := by omega
        have hdown := floor_scaled_down m (-e).toNat
        have hshift := shiftLeft_value (m >>> (-e).toNat) (-e).toNat 0
        rw [← hneg] at hdown
        rw [zero_sub, ← hneg, zpow_zero, mul_one] at hshift
        have hle : (m >>> (-e).toNat) <<< (-e).toNat ≤ m := by
          rw [Nat.shiftRight_eq_div_pow, Nat.shiftLeft_eq]
          exact Nat.div_mul_le_self m _
        have hsplit : Int.fract (value x) =
            ((m - (m >>> (-e).toNat) <<< (-e).toNat : ℕ) : ℤ) * 2 ^ e := by
          rw [hvalue, Int.fract, hdown, Int.cast_natCast, Int.cast_natCast, ← hshift,
            Nat.cast_sub hle]
          ring
        rw [hsplit]
        refine rounded_intCast_mul ?_ he
        rw [Nat.abs_cast]
        exact_mod_cast (Nat.sub_le m _).trans_lt h53
  rw [hrest] at hrounds
  have hsmall : |rounded (Int.fract (value x))| < overflowLimit := by
    rw [hgrid, abs_of_nonneg (Int.fract_nonneg _)]
    calc Int.fract (value x) < 2 ^ (0 : ℤ) := by simpa using Int.fract_lt_one (value x)
      _ ≤ overflowLimit := zpow_le_zpow_right₀ (by norm_num) (by norm_num)
  exact hgrid ▸ hrounds.of_abs_lt hsmall

/-- Rounding carries no number past a whole one: the whole part of a rounded number is that of the
number, or the next whole number where this is nearer than the grid resolves. -/
theorem floor_rounded_bounds {x : ℝ} (h0 : 0 ≤ x) {n : ℤ} (hlow : -1021 ≤ n) (hhigh : n ≤ 53)
    (h : x < 2 ^ n) : x - 1 < ⌊rounded x⌋ ∧ (⌊rounded x⌋ : ℝ) ≤ x + 2 ^ (n - 54) := by
  constructor
  · by_contra hnot
    have hnext : ((⌊rounded x⌋ + 1 : ℤ) : ℝ) ≤ x := by
      push_cast
      linarith
    have hpos : 0 ≤ ⌊rounded x⌋ := Int.floor_nonneg.mpr (rounded_nonneg h0)
    have hsmall : ((⌊rounded x⌋ + 1 : ℤ) : ℝ) < (2 ^ 53 : ℤ) := by
      calc ((⌊rounded x⌋ + 1 : ℤ) : ℝ) ≤ x := hnext
        _ < 2 ^ n := h
        _ ≤ 2 ^ (53 : ℤ) := zpow_le_zpow_right₀ (by norm_num) hhigh
        _ = (2 ^ 53 : ℤ) := by norm_num
    have hgrid : rounded ((⌊rounded x⌋ + 1 : ℤ) : ℝ) = (⌊rounded x⌋ + 1 : ℤ) :=
      rounded_intCast (abs_lt.mpr ⟨by omega, by exact_mod_cast hsmall⟩)
    have hle := rounded_mono hnext
    rw [hgrid] at hle
    push_cast at hle
    linarith [Int.lt_floor_add_one (rounded x)]
  · have hnear := abs_rounded_sub_le_of_lt hlow (show |x| < 2 ^ n by rwa [abs_of_nonneg h0])
    have hle := Int.floor_le (rounded x)
    linarith [(abs_le.mp hnear).2]

/-- The largest double below one; its significand is all ones. -/
def belowOne : Float := ofScaled .positive (2 ^ 53 - 1) (-53)

theorem value_belowOne : belowOne.isFinite = true ∧ value belowOne = 1 - 2 ^ (-53 : ℤ) := by
  have hexact : ((2 ^ 53 - 1 : ℕ) : ℝ) * 2 ^ (-53 : ℤ) = 1 - 2 ^ (-53 : ℤ) := by norm_num
  have hgrid : rounded (1 - 2 ^ (-53 : ℤ)) = 1 - 2 ^ (-53 : ℤ) := by
    rw [← hexact]
    exact_mod_cast rounded_intCast_mul (n := (2 ^ 53 - 1 : ℕ)) (e := -53) (by decide) (by decide)
  have hrounds := ofScaled_rounds .positive (2 ^ 53 - 1) (-53)
  rw [signFactor, one_mul, hexact] at hrounds
  have hsmall : |rounded (1 - 2 ^ (-53 : ℤ))| < overflowLimit := by
    rw [hgrid, abs_of_nonneg (by norm_num)]
    calc (1 : ℝ) - 2 ^ (-53 : ℤ) < 2 ^ (0 : ℤ) := by norm_num
      _ ≤ overflowLimit := zpow_le_zpow_right₀ (by norm_num) (by norm_num)
  exact hgrid ▸ hrounds.of_abs_lt hsmall

theorem le_belowOne {x : Float} (hx : x.isFinite = true) (h : value x < 1) :
    value x ≤ value belowOne := by
  have hone : ((2 ^ 53 : ℤ) : ℝ) * 2 ^ (-1 - 52 : ℤ) = 1 := by norm_num
  have hbelow := le_sub_of_lt_units (rounded_value hx) (n := -1) (k := 2 ^ 53)
    (by rw [hone]; norm_num) (by rwa [hone])
  calc value x ≤ (2 ^ 53 - 1 : ℤ) * 2 ^ (-1 - 52 : ℤ) := hbelow
    _ = 1 - 2 ^ (-53 : ℤ) := by norm_num
    _ = value belowOne := value_belowOne.2.symm

/-- Sixty times what is left by the whole part is rounded, and less than sixty even for the largest
double below one. -/
theorem sixty_fract_value {x : Float} (hx : x.isFinite = true) (h0 : 0 ≤ value x) :
    ((x - floorOf x) * 60.0).isFinite = true ∧
      value ((x - floorOf x) * 60.0) = rounded (Int.fract (value x) * 60) ∧
      rounded (Int.fract (value x) * 60) < 60 := by
  obtain ⟨hrest, hfract⟩ := sub_floorOf_value hx h0
  have hinterval : Between 0.0 belowOne (x - floorOf x) :=
    ⟨rfl, value_belowOne.1, (le_iff_value rfl hrest).mpr (hfract ▸ Int.fract_nonneg _),
      (le_iff_value hrest value_belowOne.1).mpr
        (le_belowOne hrest (hfract ▸ Int.fract_lt_one _))⟩
  have hminutes : Between (0.0 * 60.0) (belowOne * 60.0) ((x - floorOf x) * 60.0) :=
    hinterval.mul_const rfl (by decide) (by decide +kernel) (by decide +kernel)
  have hvalue : value ((x - floorOf x) * 60.0) = rounded (Int.fract (value x) * 60) := by
    rw [(mul_rounds hrest rfl).value_eq hminutes.isFinite, hfract, value_sixty]
  have hlt : value (belowOne * 60.0) < value 60.0 :=
    (lt_iff_value hminutes.finite_right rfl).mp (by decide +kernel)
  exact ⟨hminutes.isFinite, hvalue, hvalue ▸ hminutes.value_right.trans_lt (value_sixty ▸ hlt)⟩

theorem truncate_eq_floorOf {x : Float} (hx : x.isFinite = true) (h0 : 0 ≤ value x) :
    truncate x = floorOf x := by
  rcases unpack_of_nonneg hx h0 with ⟨s, hu, -⟩ | ⟨m, e, hm, hu, -⟩ <;>
    simp only [truncate, floorOf, hu]

end GeoAlmanac.Binary64
