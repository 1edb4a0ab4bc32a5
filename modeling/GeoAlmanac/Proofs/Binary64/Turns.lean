import GeoAlmanac.Proofs.Binary64.Angles
import GeoAlmanac.Proofs.Binary64.Neighbours

/-! What the representatives of an angle are in binary64 degrees. The remainder is exact, so whole
turns are taken away exactly and only the shift of a negative remainder is rounded. The signed
representative is shifted to and fro, and the way back meets no rounding: both representatives stay
as they are when they are taken again. -/

namespace GeoAlmanac.Binary64
open Float.Model
open Float.Model.UnpackedFloat (Sign)

/-- What is left of an angle when the whole turns below it are taken away. -/
noncomputable def residue (turn x : ℝ) : ℝ :=
  x - turn * ⌊x / turn⌋

section
variable {turn x : ℝ} (hturn : 0 < turn)
include hturn

theorem residue_nonneg : 0 ≤ residue turn x :=
  sub_nonneg.mpr ((le_div_iff₀' hturn).mp (Int.floor_le (x / turn)))

theorem residue_lt : residue turn x < turn := by
  have h := (div_lt_iff₀' hturn).mp (Int.lt_floor_add_one (x / turn))
  unfold residue
  linarith

theorem residue_of_mem (h0 : 0 ≤ x) (h : x < turn) : residue turn x = x := by
  have hfloor : ⌊x / turn⌋ = 0 :=
    Int.floor_eq_zero_iff.mpr ⟨div_nonneg h0 hturn.le, (div_lt_one hturn).mpr h⟩
  rw [residue, hfloor, Int.cast_zero, mul_zero, sub_zero]

theorem residue_neg_of_eq_zero (h : residue turn x = 0) : residue turn (-x) = 0 := by
  have hwhole : -x / turn = (-⌊x / turn⌋ : ℤ) := by
    rw [div_eq_iff hturn.ne', Int.cast_neg]
    unfold residue at h
    linarith
  rw [residue, hwhole, Int.floor_intCast, Int.cast_neg]
  unfold residue at h
  linarith

theorem residue_neg_of_pos (h : 0 < residue turn x) :
    residue turn (-x) = turn - residue turn x := by
  have hlt := residue_lt hturn (x := x)
  have hfloor : ⌊-x / turn⌋ = -⌊x / turn⌋ - 1 := by
    rw [Int.floor_eq_iff, le_div_iff₀ hturn, div_lt_iff₀ hturn]
    unfold residue at h hlt
    push_cast
    constructor <;> linarith
  rw [residue, residue, hfloor]
  push_cast
  ring

end

theorem mod_shiftLeft_lt {m n : ℕ} {e f : ℤ} (hm : m < 2 ^ 53) (hn : n < 2 ^ 53) (hpos : 0 < n) :
    (m <<< (e - min e f).toNat) % (n <<< (f - min e f).toNat) < 2 ^ 53 := by
  have hdivisor : 0 < n <<< (f - min e f).toNat := by
    rw [Nat.shiftLeft_eq]
    positivity
  rcases le_total e f with h | h
  · rw [min_eq_left h, sub_self, Int.toNat_zero, Nat.shiftLeft_zero]
    exact (Nat.mod_le m _).trans_lt hm
  · rw [min_eq_right h, sub_self, Int.toNat_zero, Nat.shiftLeft_zero]
    exact (Nat.mod_lt _ hpos).trans hn

theorem mod_value (m n : ℕ) {u : ℝ} (hu : 0 < u) :
    ((m % n : ℕ) : ℝ) * u = residue (n * u) (m * u) := by
  have hfloor : ⌊m * u / (n * u)⌋ = (m / n : ℕ) := by
    rw [mul_div_mul_right _ _ hu.ne', Int.floor_div_natCast, Int.floor_natCast]
    rfl
  have hsplit : ((m % n : ℕ) : ℝ) + n * (m / n : ℕ) = m := by exact_mod_cast Nat.mod_add_div m n
  rw [residue, hfloor, Int.cast_natCast, ← hsplit]
  ring

section
variable {x y : Float} (hx : x.isFinite = true) (hy : y.isFinite = true) (hpos : 0 < value y)
include hx hy hpos

theorem remainderOf_value : (remainderOf x y).isFinite = true ∧
    (0 ≤ value x → value (remainderOf x y) = residue (value y) (value x)) ∧
    (value x ≤ 0 → value (remainderOf x y) = -residue (value y) (-value x)) := by
  have hfinite : (remainderOf x y).isFinite = true :=
    (remainderOf_bounded hx hy ((lt_iff_value rfl hy).mpr hpos)).isFinite
  refine ⟨hfinite, ?_⟩
  rcases (represents hy).cases with ⟨t, hv, hzero⟩ | ⟨t, n, f, hn, hv, hyv, hn53, hf, _⟩
  · exact absurd hzero hpos.ne'
  have hdivisor : value y = n * 2 ^ f := by
    rw [← abs_of_pos hpos, hyv, abs_signFactor_mul t (by positivity)]
  rcases (represents hx).cases with ⟨s, hu, hxv⟩ | ⟨s, m, e, hm, hu, hxv, hm53, he, _⟩
  · have hrest : remainderOf x y = x := by
      unfold remainderOf
      rw [hu, hv]
    have hnone := residue_of_mem hpos (le_refl 0) hpos
    simp [hrest, hxv, hnone]
  · let unit := min e f
    have hrest : remainderOf x y = ofScaled s
        ((m <<< (e - unit).toNat) % (n <<< (f - unit).toNat)) unit := by
      unfold remainderOf
      rw [hu, hv]
    have hleft := shiftLeft_value m (e - unit).toNat e
    have hright := shiftLeft_value n (f - unit).toNat f
    rw [show e - (e - unit).toNat = unit by omega] at hleft
    rw [show f - (f - unit).toNat = unit by omega] at hright
    have hmod := mod_value (m <<< (e - unit).toNat) (n <<< (f - unit).toNat)
      (show (0 : ℝ) < 2 ^ unit by positivity)
    rw [hleft, hright, ← hdivisor] at hmod
    have hsmall := mod_shiftLeft_lt (e := e) (f := f) hm53 hn53 hn
    have hgrid := rounded_intCast_mul
      (n := ((m <<< (e - unit).toNat) % (n <<< (f - unit).toNat) : ℕ)) (e := unit)
      (by rw [Nat.abs_cast]; exact_mod_cast hsmall) (by omega)
    have hvalue := (hrest ▸ ofScaled_rounds s _ unit).value_eq hfinite
    rw [rounded_signFactor_mul, ← Int.cast_natCast, hgrid, Int.cast_natCast, hmod] at hvalue
    have hmagnitude : (0 : ℝ) < m * 2 ^ e := by positivity
    cases s with
    | positive =>
      rw [signFactor, one_mul] at hxv hvalue
      rw [hxv]
      exact ⟨fun _ => hvalue, fun h => absurd h hmagnitude.not_ge⟩
    | negative =>
      rw [signFactor, neg_one_mul] at hxv hvalue
      rw [hxv, neg_neg]
      exact ⟨fun h => absurd h (by linarith), fun _ => hvalue⟩

theorem remainderOf_of_lt (h : |value x| < value y) : remainderOf x y = x := by
  obtain ⟨hfinite, hnonneg, hnonpos⟩ := remainderOf_value hx hy hpos
  obtain ⟨hl, hu⟩ := abs_lt.mp h
  by_cases hzero : value x = 0
  · rcases (represents hx).cases with ⟨s, hu, _⟩ | ⟨s, m, e, hm, _, hvalue, _⟩
    · rcases (represents hy).cases with ⟨t, _, hy0⟩ | ⟨t, n, f, hn, hv, _⟩
      · exact absurd hy0 hpos.ne'
      · unfold remainderOf
        rw [hu, hv]
    · have hmagnitude : (0 : ℝ) < m * 2 ^ e := by positivity
      have habs := abs_signFactor_mul s hmagnitude.le
      rw [← hvalue, hzero, abs_zero] at habs
      exact absurd habs hmagnitude.ne
  · have hsame : value (remainderOf x y) = value x := by
      rcases le_total 0 (value x) with h0 | h0
      · rw [hnonneg h0, residue_of_mem hpos h0 hu]
      · rw [hnonpos h0, residue_of_mem hpos (neg_nonneg.mpr h0) (neg_lt.mp hl), neg_neg]
    exact eq_of_value_eq hfinite hx hsame (hsame ▸ hzero)

end

theorem rounded_turn : rounded 360 = 360 := by
  exact_mod_cast rounded_intCast (n := 360) (by norm_num)

section
variable {x : Float} (hx : x.isFinite = true)
include hx

theorem remainder_turn_of_nonneg (h0 : 0 ≤ value x) :
    (Arithmetic.remainder x 360.0).isFinite = true ∧
      value (Arithmetic.remainder x 360.0) = residue 360 (value x) := by
  obtain ⟨hfinite, hnonneg, -⟩ :=
    remainderOf_value hx (y := 360.0) rfl (value_turn ▸ by norm_num)
  exact ⟨hfinite, value_turn ▸ hnonneg h0⟩

theorem remainder_turn_of_nonpos (h0 : value x ≤ 0) :
    (Arithmetic.remainder x 360.0).isFinite = true ∧
      value (Arithmetic.remainder x 360.0) = -residue 360 (-value x) := by
  obtain ⟨hfinite, -, hnonpos⟩ :=
    remainderOf_value hx (y := 360.0) rfl (value_turn ▸ by norm_num)
  exact ⟨hfinite, value_turn ▸ hnonpos h0⟩

theorem wrap_value_of_nonneg (h0 : 0 ≤ value x) :
    value (Angle.wrap x) = residue 360 (value x) := by
  obtain ⟨hfinite, hrest⟩ := remainder_turn_of_nonneg hx h0
  unfold Angle.wrap
  dsimp only
  generalize Arithmetic.remainder x 360.0 = rest at *
  have hneg : ¬rest < 0.0 := by
    rw [lt_iff_value hfinite rfl, hrest]
    exact (residue_nonneg (by norm_num)).not_gt
  have hturn : ¬360.0 ≤ rest := by
    rw [le_iff_value rfl hfinite, hrest, value_turn]
    exact (residue_lt (by norm_num)).not_ge
  rw [if_neg hneg, if_neg hturn, hrest]

theorem wrap_value_of_neg (hneg : value x < 0) :
    value (Angle.wrap x) = if rounded (residue 360 (value x)) = 360 then 0
      else rounded (residue 360 (value x)) := by
  obtain ⟨hfinite, hrest⟩ := remainder_turn_of_nonpos hx hneg.le
  have hturn : (0 : ℝ) < 360 := by norm_num
  have hle : rounded (residue 360 (value x)) ≤ 360 :=
    (rounded_mono (residue_lt hturn).le).trans_eq rounded_turn
  unfold Angle.wrap
  dsimp only
  generalize Arithmetic.remainder x 360.0 = rest at *
  rcases (residue_nonneg hturn (x := -value x)).eq_or_lt with hwhole | hpart
  · have hzero : residue 360 (value x) = 0 :=
      neg_neg (value x) ▸ residue_neg_of_eq_zero hturn hwhole.symm
    rw [← hwhole, neg_zero] at hrest
    have hnone : ¬rest < 0.0 := by
      rw [lt_iff_value hfinite rfl, hrest]
      exact lt_irrefl 0
    have hbelow : ¬360.0 ≤ rest := by
      rw [le_iff_value rfl hfinite, hrest, value_turn]
      norm_num
    rw [if_neg hnone, if_neg hbelow, hrest, hzero, rounded_zero, if_neg (by norm_num)]
  · have hresidue : residue 360 (value x) = 360 - residue 360 (-value x) := by
      rw [← residue_neg_of_pos hturn hpart, neg_neg]
    have hnegative : rest < 0.0 := by
      rw [lt_iff_value hfinite rfl, hrest]
      exact neg_lt_zero.mpr hpart
    have hrounds := add_rounds hfinite (y := 360.0) rfl
    rw [hrest, value_turn, neg_add_eq_sub, ← hresidue] at hrounds
    have hsmall : |rounded (residue 360 (value x))| < overflowLimit := by
      rw [abs_of_nonneg (rounded_nonneg (residue_nonneg hturn))]
      calc rounded (residue 360 (value x)) ≤ 360 := hle
        _ < 2 ^ (9 : ℤ) := by norm_num
        _ ≤ overflowLimit := zpow_le_zpow_right₀ (by norm_num) (by norm_num)
    obtain ⟨hshifted, hvalue⟩ := hrounds.of_abs_lt hsmall
    rw [if_pos hnegative]
    by_cases hfull : rounded (residue 360 (value x)) = 360
    · have hreached : 360.0 ≤ rest + 360.0 := by
        rw [le_iff_value rfl hshifted, hvalue, value_turn, hfull]
      rw [if_pos hreached, if_pos hfull]
      rfl
    · have hbelow : ¬360.0 ≤ rest + 360.0 := by
        rw [le_iff_value rfl hshifted, hvalue, value_turn]
        exact fun h => hfull (le_antisymm hle h)
      rw [if_neg hbelow, if_neg hfull, hvalue]

/-- A least representative is its own. -/
theorem wrap_of_mem (h0 : 0 ≤ value x) (h360 : value x < 360) : Angle.wrap x = x := by
  have hrest : Arithmetic.remainder x 360.0 = x :=
    remainderOf_of_lt hx rfl (value_turn ▸ by norm_num)
      (by rwa [value_turn, abs_of_nonneg h0])
  have hneg : ¬x < 0.0 := by
    rw [lt_iff_value hx rfl]
    exact h0.not_gt
  have hturn : ¬360.0 ≤ x := by
    rw [le_iff_value rfl hx, value_turn]
    exact h360.not_ge
  unfold Angle.wrap
  dsimp only
  rw [hrest, if_neg hneg, if_neg hturn]

theorem wrap_range : (Angle.wrap x).isFinite = true ∧ 0 ≤ value (Angle.wrap x) ∧
    value (Angle.wrap x) < 360 := by
  obtain ⟨hlow, hhigh⟩ := wrap_mem hx
  have hfinite : (Angle.wrap x).isFinite = true :=
    isFinite_of_le_of_le rfl rfl hlow (Binary64.le_of_lt hhigh)
  exact ⟨hfinite, (le_iff_value rfl hfinite).mp hlow,
    value_turn ▸ (lt_iff_value hfinite rfl).mp hhigh⟩

theorem wrap_wrap : Angle.wrap (Angle.wrap x) = Angle.wrap x := by
  obtain ⟨hfinite, h0, h360⟩ := wrap_range hx
  exact wrap_of_mem hfinite h0 h360

theorem wrap_near : ∃ n : ℤ, |value (Angle.wrap x) - (value x + 360 * n)| ≤ 2 ^ (-45 : ℤ) := by
  have hsmall : |residue 360 (value x)| < 2 ^ (9 : ℤ) := by
    rw [abs_of_nonneg (residue_nonneg (by norm_num))]
    exact (residue_lt (by norm_num)).trans (by norm_num)
  have hnear : |rounded (residue 360 (value x)) - residue 360 (value x)| ≤ 2 ^ (-45 : ℤ) :=
    abs_rounded_sub_le_of_lt (by norm_num) hsmall
  have hresidue : residue 360 (value x) = value x + 360 * (-⌊value x / 360⌋ : ℤ) := by
    rw [residue]
    push_cast
    ring
  rcases le_or_gt 0 (value x) with h0 | hneg
  · refine ⟨-⌊value x / 360⌋, ?_⟩
    rw [wrap_value_of_nonneg hx h0, ← hresidue, sub_self, abs_zero]
    positivity
  · rw [wrap_value_of_neg hx hneg]
    split_ifs with hfull
    · refine ⟨-⌊value x / 360⌋ - 1, ?_⟩
      rw [hfull, hresidue] at hnear
      convert hnear using 2
      push_cast
      ring
    · refine ⟨-⌊value x / 360⌋, ?_⟩
      rw [← hresidue]
      exact hnear

end

/-- Half a turn is taken from a least representative exactly, or what is left is rounded among the
doubles west of the 116th meridian. -/
theorem rounded_sub_half_turn {g : ℝ} (hg : rounded g = g) (h0 : 0 ≤ g) (h360 : g < 360) :
    rounded (g - 180) = g - 180 ∨ -180 ≤ rounded (g - 180) ∧ rounded (g - 180) ≤ -116 := by
  have hint (n : ℤ) (hn : |n| < 2 ^ 53) : rounded n = n := rounded_intCast hn
  rcases lt_or_ge g 64 with h64 | h64
  · right
    have hlow := rounded_mono (show ((-180 : ℤ) : ℝ) ≤ g - 180 by push_cast; linarith)
    have hhigh := rounded_mono (show g - 180 ≤ ((-116 : ℤ) : ℝ) by push_cast; linarith)
    rw [hint _ (by norm_num)] at hlow hhigh
    exact_mod_cast And.intro hlow hhigh
  · left
    have habs : |g| = g := abs_of_nonneg h0
    rcases lt_or_ge g 128 with h128 | h128
    · have h := rounded_add_of_lt hg (n := 6) (by norm_num) (by rw [habs]; norm_num; exact h64)
        (-180 * 2 ^ 46) (by rw [abs_lt]; norm_num; constructor <;> linarith)
      norm_num at h
      exact h
    · have h := rounded_add_of_lt hg (n := 7) (by norm_num) (by rw [habs]; norm_num; exact h128)
        (-180 * 2 ^ 45) (by rw [abs_lt]; norm_num; constructor <;> linarith)
      norm_num at h
      exact h

theorem rounded_sub_add_half_turn {g : ℝ} (hg : rounded g = g) (h0 : 0 ≤ g) (h360 : g < 360) :
    rounded (rounded (g - 180) + 180) = rounded (g - 180) + 180 := by
  rcases rounded_sub_half_turn hg h0 h360 with hexact | ⟨hlow, hhigh⟩
  · rw [hexact, sub_add_cancel, hg]
  · have h := rounded_add_of_lt (rounded_rounded (g - 180)) (n := 6) (by norm_num)
      (by rw [abs_of_nonpos (by linarith)]; norm_num; linarith) (180 * 2 ^ 46)
      (by rw [abs_lt]; norm_num; constructor <;> linarith)
    norm_num at h
    exact h

theorem rounded_half_turn : rounded 180 = 180 := by
  exact_mod_cast rounded_intCast (n := 180) (by norm_num)

/-- The largest double; its significand is all ones. -/
def largest : Float := ofScaled .positive (2 ^ 53 - 1) 971

theorem value_largest :
    largest.isFinite = true ∧ value largest = (2 ^ 53 - 1 : ℤ) * 2 ^ (971 : ℤ) := by
  have hfinite : largest.isFinite = true := by decide +kernel
  have hvalue := (ofScaled_rounds .positive (2 ^ 53 - 1) 971).value_eq hfinite
  have hgrid := rounded_intCast_mul (n := 2 ^ 53 - 1) (e := 971) (by norm_num) (by norm_num)
  have hones : ((2 ^ 53 - 1 : ℕ) : ℝ) = (2 ^ 53 - 1 : ℤ) := by norm_num
  rw [signFactor, one_mul, hones, hgrid] at hvalue
  exact ⟨hfinite, hvalue⟩

theorem bounded_largest {x : Float} (hx : x.isFinite = true) : Bounded largest x := by
  obtain ⟨habs, hvalue⟩ := isFinite_abs hx
  have hlimit : ((2 ^ 53 : ℤ) : ℝ) * 2 ^ (1023 - 52 : ℤ) = overflowLimit := by
    rw [overflowLimit, show (1024 : ℤ) = 53 + (1023 - 52) by norm_num, zpow_add₀ (by norm_num)]
    norm_num
  have hle := le_sub_of_lt_units (rounded_value habs) (n := 1023) (k := 2 ^ 53)
    (by rw [hlimit]; exact zpow_lt_zpow_right₀ (by norm_num) (by norm_num))
    (by rw [hlimit, hvalue]; exact abs_value_lt x)
  rw [hvalue, show (1023 - 52 : ℤ) = 971 by norm_num, ← value_largest.2] at hle
  exact (bounded_iff value_largest.1).mpr ⟨hx, hle⟩

theorem isFinite_add_half_turn {x : Float} (hx : x.isFinite = true) :
    (x + 180.0).isFinite = true :=
  (Between.add (bounded_largest hx) (between_self (x := 180.0) rfl) (by decide +kernel)
    (by decide +kernel)).isFinite

section
variable {t : Float} (ht : t.isFinite = true) (h0 : 0 ≤ value t) (h360 : value t < 360)
include ht h0 h360

theorem sub_half_turn_value : (t - 180.0).isFinite = true ∧
    value (t - 180.0) = rounded (value t - 180) ∧ |value (t - 180.0)| ≤ 180 := by
  have hrounds := sub_rounds ht (y := 180.0) rfl
  rw [value_half_turn] at hrounds
  have hle : |rounded (value t - 180)| ≤ 180 :=
    abs_rounded_le rounded_half_turn (abs_le.mpr ⟨by linarith, by linarith⟩)
  have hlimit : (180 : ℝ) < overflowLimit :=
    calc (180 : ℝ) < 2 ^ (8 : ℤ) := by norm_num
      _ ≤ overflowLimit := zpow_le_zpow_right₀ (by norm_num) (by norm_num)
  obtain ⟨hfinite, hvalue⟩ := hrounds.of_abs_lt (hle.trans_lt hlimit)
  exact ⟨hfinite, hvalue, hvalue ▸ hle⟩

theorem sub_half_turn_eq_zero (h : value (t - 180.0) = 0) : t - 180.0 = 0.0 := by
  have hvalue := (sub_half_turn_value ht h0 h360).2.1
  rw [h] at hvalue
  rcases rounded_sub_half_turn (rounded_value ht) h0 h360 with hexact | ⟨-, hhigh⟩
  · have hhalf : value t = value 180.0 := by
      rw [value_half_turn]
      linarith
    rw [eq_of_value_eq ht rfl hhalf (hhalf ▸ value_half_turn ▸ by norm_num)]
    rfl
  · linarith

/-- Where half a turn is taken away and lies east of the antimeridian, it is added again and taken
away again without a change. -/
theorem wrapSigned_sub_half_turn (hwest : -180 < value (t - 180.0)) :
    Angle.wrapSigned (t - 180.0) = t - 180.0 := by
  obtain ⟨hfinite, hvalue, hle⟩ := sub_half_turn_value ht h0 h360
  have hback := rounded_sub_add_half_turn (rounded_value ht) h0 h360
  rw [← hvalue] at hback
  have hzero := sub_half_turn_eq_zero ht h0 h360
  generalize t - 180.0 = east at *
  rcases ((abs_le.mp hle).2).eq_or_lt with hhalf | hlt
  · have heast : east = 180.0 :=
      eq_of_value_eq hfinite rfl (hhalf.trans value_half_turn.symm) (hhalf ▸ by norm_num)
    rw [heast]
    decide +kernel
  · have hrounds := add_rounds hfinite (y := 180.0) rfl
    have hturned := isFinite_add_half_turn hfinite
    have hturnedValue : value (east + 180.0) = value east + 180 := by
      rw [hrounds.value_eq hturned, value_half_turn, hback]
    have hturned0 : 0 ≤ value (east + 180.0) := by linarith
    have hturned360 : value (east + 180.0) < 360 := by linarith
    obtain ⟨hfinite', hvalue', -⟩ := sub_half_turn_value hturned hturned0 hturned360
    rw [hturnedValue, add_sub_cancel_right, rounded_value hfinite] at hvalue'
    have hsame : east + 180.0 - 180.0 = east := by
      by_cases hnone : value east = 0
      · rw [sub_half_turn_eq_zero hturned hturned0 hturned360 (hvalue'.trans hnone), hzero hnone]
      · exact eq_of_value_eq hfinite' hfinite hvalue' (hvalue' ▸ hnone)
    have hinside : ¬east ≤ -180.0 := by
      rw [le_iff_value hfinite rfl, (isFinite_neg (x := 180.0) rfl).2, value_half_turn]
      exact hwest.not_ge
    unfold Angle.wrapSigned
    dsimp only
    rw [wrap_of_mem hturned hturned0 hturned360, hsame, if_neg hinside]

end

section
variable {x : Float} (hx : x.isFinite = true)
include hx

theorem wrapSigned_wrapSigned : Angle.wrapSigned (Angle.wrapSigned x) = Angle.wrapSigned x := by
  obtain ⟨hfinite, h0, h360⟩ := wrap_range (isFinite_add_half_turn hx)
  have heast := (sub_half_turn_value hfinite h0 h360).1
  have hkept := wrapSigned_sub_half_turn hfinite h0 h360
  rw [show Angle.wrapSigned x = if Angle.wrap (x + 180.0) - 180.0 ≤ -180.0 then 180.0
    else Angle.wrap (x + 180.0) - 180.0 from rfl]
  split_ifs with hwest
  · decide +kernel
  · rw [le_iff_value heast rfl, (isFinite_neg (x := 180.0) rfl).2, value_half_turn, not_le] at hwest
    exact hkept hwest

theorem wrapSigned_near (h : |value x| ≤ 540) :
    ∃ n : ℤ, |value (Angle.wrapSigned x) - (value x + 360 * n)| ≤ 1e-12 := by
  obtain ⟨hl, hu⟩ := abs_le.mp h
  have hshifted := isFinite_add_half_turn hx
  obtain ⟨hfinite, h0, h360⟩ := wrap_range hshifted
  obtain ⟨heast, hvalue, -⟩ := sub_half_turn_value hfinite h0 h360
  have hfirst : |value (x + 180.0) - (value x + 180)| ≤ 2 ^ (-44 : ℤ) := by
    rw [(add_rounds hx rfl).value_eq hshifted, value_half_turn]
    refine abs_rounded_sub_le_of_lt (n := 10) (by norm_num) ?_
    rw [abs_lt]
    norm_num
    constructor <;> linarith
  obtain ⟨n, hsecond⟩ := wrap_near hshifted
  have hthird : |value (Angle.wrap (x + 180.0) - 180.0) -
      (value (Angle.wrap (x + 180.0)) - 180)| ≤ 2 ^ (-46 : ℤ) := by
    rw [hvalue]
    refine abs_rounded_sub_le_of_lt (n := 8) (by norm_num) ?_
    rw [abs_lt]
    norm_num
    constructor <;> linarith
  rw [abs_le] at hfirst hsecond hthird
  have hsum : (2 : ℝ) ^ (-44 : ℤ) + 2 ^ (-45 : ℤ) + 2 ^ (-46 : ℤ) ≤ 1e-12 := by norm_num
  rw [show Angle.wrapSigned x = if Angle.wrap (x + 180.0) - 180.0 ≤ -180.0 then 180.0
    else Angle.wrap (x + 180.0) - 180.0 from rfl]
  split_ifs with hwest
  · rw [le_iff_value heast rfl, (isFinite_neg (x := 180.0) rfl).2, value_half_turn] at hwest
    have hwestmost := (abs_le.mp (sub_half_turn_value hfinite h0 h360).2.2).1
    refine ⟨n + 1, abs_le.mpr ?_⟩
    rw [value_half_turn]
    push_cast
    constructor <;> linarith
  · refine ⟨n, abs_le.mpr ?_⟩
    constructor <;> linarith

end

/-- What both representatives of an angle are in binary64. -/
structure Representatives (x : Float) : Prop where
  wrap_mem : 0.0 ≤ Angle.wrap x ∧ Angle.wrap x < 360.0
  wrap_of_nonneg : 0 ≤ value x → value (Angle.wrap x) = residue 360 (value x)
  wrap_of_neg : value x < 0 → value (Angle.wrap x) =
    if rounded (residue 360 (value x)) = 360 then 0 else rounded (residue 360 (value x))
  wrap_wrap : Angle.wrap (Angle.wrap x) = Angle.wrap x
  wrapSigned_mem : -180.0 < Angle.wrapSigned x ∧ Angle.wrapSigned x ≤ 180.0
  wrapSigned_wrapSigned : Angle.wrapSigned (Angle.wrapSigned x) = Angle.wrapSigned x
  wrapSigned_near : |value x| ≤ 540 →
    ∃ n : ℤ, |value (Angle.wrapSigned x) - (value x + 360 * n)| ≤ 1e-12

/-- Every finite angle has both representatives. -/
theorem representatives_of_isFinite {x : Float} (hx : x.isFinite = true) : Representatives x where
  wrap_mem := wrap_mem hx
  wrap_of_nonneg := wrap_value_of_nonneg hx
  wrap_of_neg := wrap_value_of_neg hx
  wrap_wrap := wrap_wrap hx
  wrapSigned_mem := wrapSigned_mem (isFinite_add_half_turn hx)
  wrapSigned_wrapSigned := wrapSigned_wrapSigned hx
  wrapSigned_near := wrapSigned_near hx

/-- A hair below zero a full turn counts as nothing, and a hair beyond the antimeridian is on it. -/
theorem representatives_of_hair :
    (-1e-15 : Float).isFinite = true ∧ Representatives (-1e-15) ∧
      Angle.wrap (-1e-15 : Float) = 0.0 ∧ Representatives (-180.00000000000003) ∧
      Angle.wrapSigned (-180.00000000000003 : Float) = 180.0 :=
  ⟨rfl, representatives_of_isFinite rfl, by decide +kernel, representatives_of_isFinite rfl,
    by decide +kernel⟩

end GeoAlmanac.Binary64
