import GeoAlmanac.Binary64
import GeoAlmanac.Proofs.Binary64.Operations
import GeoAlmanac.Proofs.Binary64.Storage

/-! Doubles as real numbers. An operation answers the double nearest to the exact result, and an
infinity where that lies beyond the largest double; comparisons are those of the numbers. -/

namespace GeoAlmanac.Binary64
open Float.Model
open Float.Model.UnpackedFloat (Sign)

/-- The number a double stands for; zero for an infinity and for a NaN. -/
noncomputable def value (x : Float) : ℝ :=
  unpackedValue x.toModel.unpack

theorem represents {x : Float} (h : x.isFinite = true) :
    Represents x.toModel.unpack (value x) :=
  ⟨(unpack_canonical x.toModel).1, h, rfl⟩

theorem isNaN_of_isFinite {x : Float} (h : x.isFinite = true) : x.isNaN = false := by
  change x.toModel.unpack.isFinite = true at h
  change x.toModel.unpack.isNaN = false
  cases hu : x.toModel.unpack with
  | notANumber => exact absurd h (by simp [hu, UnpackedFloat.isFinite])
  | _ => rfl

theorem rounded_value {x : Float} (h : x.isFinite = true) : rounded (value x) = value x :=
  (represents h).rounded_eq

theorem eq_of_unpack_eq {x y : Float} (h : x.toModel.unpack = y.toModel.unpack) : x = y := by
  have hbits := (UnpackedFloat.unpack_inj_of_valid x.toModel.valid y.toModel.valid).mp h
  exact Float.toBits_inj.mp (UInt64.toBitVec_inj.mp hbits)

theorem magnitude_lt {m n : ℕ} {e f : ℤ} (hm : m < 2 ^ 53) (he : -1074 ≤ e)
    (hn : 2 ^ 52 ≤ n ∨ f = -1074) (h : e < f) : (m : ℝ) * 2 ^ e < n * 2 ^ f := by
  have hm : (m : ℝ) < 2 ^ (53 : ℤ) := by exact_mod_cast hm
  have hn : (2 : ℝ) ^ (52 : ℤ) ≤ n := by exact_mod_cast hn.resolve_right (by omega)
  calc (m : ℝ) * 2 ^ e < 2 ^ (53 : ℤ) * 2 ^ e := mul_lt_mul_of_pos_right hm (by positivity)
    _ = 2 ^ (53 + e) := (zpow_add₀ (by norm_num) _ _).symm
    _ ≤ 2 ^ (52 + f) := zpow_le_zpow_right₀ (by norm_num) (by omega)
    _ = 2 ^ (52 : ℤ) * 2 ^ f := zpow_add₀ (by norm_num) _ _
    _ ≤ n * 2 ^ f := mul_le_mul_of_nonneg_right hn (by positivity)

theorem compare_magnitude {m n : ℕ} {e f : ℤ} (hm : m < 2 ^ 53) (hn : n < 2 ^ 53)
    (he : -1074 ≤ e) (hf : -1074 ≤ f) (hm52 : 2 ^ 52 ≤ m ∨ e = -1074)
    (hn52 : 2 ^ 52 ≤ n ∨ f = -1074) :
    (compare e f).then (compare m n) = compare ((m : ℝ) * 2 ^ e) (n * 2 ^ f) := by
  rcases lt_trichotomy e f with h | rfl | h
  · rw [compare_lt_iff_lt.mpr h, compare_lt_iff_lt.mpr (magnitude_lt hm he hn52 h)]
    rfl
  · have hpos : (0 : ℝ) < 2 ^ e := by positivity
    rw [compare_eq_iff_eq.mpr rfl, Ordering.eq_then]
    rcases lt_trichotomy m n with h | rfl | h
    · rw [compare_lt_iff_lt.mpr h, compare_lt_iff_lt.mpr]
      exact mul_lt_mul_of_pos_right (by exact_mod_cast h) hpos
    · rw [compare_eq_iff_eq.mpr rfl, compare_eq_iff_eq.mpr rfl]
    · rw [compare_gt_iff_gt.mpr h, compare_gt_iff_gt.mpr]
      exact mul_lt_mul_of_pos_right (by exact_mod_cast h) hpos
  · rw [compare_gt_iff_gt.mpr h, compare_gt_iff_gt.mpr (magnitude_lt hn hf hm52 h)]
    rfl

theorem compare_neg (x y : ℝ) : compare (-x) (-y) = (compare x y).swap := by
  rcases lt_trichotomy x y with h | rfl | h
  · rw [compare_lt_iff_lt.mpr h, compare_gt_iff_gt.mpr (neg_lt_neg h)]
    rfl
  · rw [compare_eq_iff_eq.mpr rfl, compare_eq_iff_eq.mpr rfl]
    rfl
  · rw [compare_gt_iff_gt.mpr h, compare_lt_iff_lt.mpr (neg_lt_neg h)]
    rfl

theorem compare_represents {u v : UnpackedFloat} {x y : ℝ} (hu : Represents u x)
    (hv : Represents v y) : u.compare v = some (compare x y) := by
  rcases hu.cases with ⟨s, rfl, rfl⟩ | ⟨s, m, e, hm, rfl, rfl, hm53, he, hm52⟩ <;>
    rcases hv.cases with ⟨t, rfl, rfl⟩ | ⟨t, n, f, hn, rfl, rfl, hn53, hf, hn52⟩
  · rw [compare_eq_iff_eq.mpr rfl]
    rfl
  · have hpos : (0 : ℝ) < n * 2 ^ f := by positivity
    cases t
    · rw [compare_gt_iff_gt.mpr (by simp only [signFactor]; linarith)]
      rfl
    · rw [compare_lt_iff_lt.mpr (by simp only [signFactor]; linarith)]
      rfl
  · have hpos : (0 : ℝ) < m * 2 ^ e := by positivity
    cases s
    · rw [compare_lt_iff_lt.mpr (by simp only [signFactor]; linarith)]
      rfl
    · rw [compare_gt_iff_gt.mpr (by simp only [signFactor]; linarith)]
      rfl
  · have hmpos : (0 : ℝ) < m * 2 ^ e := by positivity
    have hnpos : (0 : ℝ) < n * 2 ^ f := by positivity
    have hmagnitude := compare_magnitude hm53 hn53 he hf hm52 hn52
    cases s <;> cases t <;> simp only [UnpackedFloat.compare, signFactor]
    · rw [hmagnitude, neg_one_mul, neg_one_mul, compare_neg]
    · rw [compare_lt_iff_lt.mpr (by linarith)]
    · rw [compare_gt_iff_gt.mpr (by linarith)]
    · rw [hmagnitude, one_mul, one_mul]

theorem lt_iff_unpack {x y : Float} :
    x < y ↔ x.toModel.unpack.compare y.toModel.unpack = some .lt :=
  decide_eq_true_iff.trans beq_iff_eq

theorem le_iff_unpack {x y : Float} :
    x ≤ y ↔ (x.toModel.unpack.compare y.toModel.unpack).any (·.isLE) = true :=
  decide_eq_true_iff

theorem beq_iff_unpack {x y : Float} :
    (x == y) = true ↔ x.toModel.unpack.compare y.toModel.unpack = some .eq := by
  change x.toModel.unpack.beq y.toModel.unpack = true ↔ _
  exact beq_iff_eq

protected theorem le_of_lt {x y : Float} (h : x < y) : x ≤ y := by
  rw [le_iff_unpack, lt_iff_unpack.mp h]
  rfl

theorem compare_notANumber (u : UnpackedFloat) : u.compare .notANumber = none := by
  cases u with
  | infinity s => cases s <;> rfl
  | finite s m e hm => cases s <;> rfl
  | _ => rfl

section
variable {x y : Float} (hx : x.isFinite = true) (hy : y.isFinite = true)
include hx hy

theorem compare_value :
    x.toModel.unpack.compare y.toModel.unpack = some (compare (value x) (value y)) :=
  compare_represents (represents hx) (represents hy)

theorem lt_iff_value : x < y ↔ value x < value y := by
  rw [lt_iff_unpack, compare_value hx hy, Option.some_inj, compare_lt_iff_lt]

theorem le_iff_value : x ≤ y ↔ value x ≤ value y := by
  rw [le_iff_unpack, compare_value hx hy, ← compare_le_iff_le, Option.any_some,
    Ordering.isLE_iff_ne_gt]

theorem beq_iff_value : (x == y) = true ↔ value x = value y := by
  rw [beq_iff_unpack, compare_value hx hy, Option.some_inj, compare_eq_iff_eq]

end

/-- A number other than zero is held by one double only. -/
theorem eq_of_value_eq {x y : Float} (hx : x.isFinite = true) (hy : y.isFinite = true)
    (h : value x = value y) (hne : value x ≠ 0) : x = y := by
  have hcompare := compare_value hx hy
  rw [h, compare_eq_iff_eq.mpr rfl] at hcompare
  apply eq_of_unpack_eq
  rcases (represents hx).cases with ⟨s, hu, hzero⟩ | ⟨s, m, e, hm, hu, _⟩
  · exact absurd hzero hne
  rcases (represents hy).cases with ⟨t, hv, hzero⟩ | ⟨t, n, f, hn, hv, _⟩
  · exact absurd (h.trans hzero) hne
  rw [hu, hv] at hcompare ⊢
  cases s <;> cases t <;> simp [UnpackedFloat.compare, Ordering.then_eq_eq] at hcompare <;>
    obtain ⟨rfl, rfl⟩ := hcompare <;> rfl

/-- Zero is held by two doubles. -/
def IsZero (x : Float) : Prop :=
  x = 0.0 ∨ x = -0.0

theorem IsZero.isFinite {x : Float} (h : IsZero x) : x.isFinite = true ∧ value x = 0 := by
  rcases h with rfl | rfl <;> exact ⟨rfl, rfl⟩

theorem isZero_of_value {x : Float} (hx : x.isFinite = true) (h : value x = 0) : IsZero x := by
  rcases (represents hx).cases with ⟨s, hu, _⟩ | ⟨s, m, e, hm, _, hvalue, _⟩
  · cases s
    · exact .inr (eq_of_unpack_eq hu)
    · exact .inl (eq_of_unpack_eq hu)
  · have hpos : (0 : ℝ) < m * 2 ^ e := by positivity
    have habs := abs_signFactor_mul s hpos.le
    rw [← hvalue, h, abs_zero] at habs
    exact absurd habs hpos.ne

theorem abs_value_lt (x : Float) : |value x| < overflowLimit := by
  obtain ⟨hcanonical, hfits⟩ := unpack_canonical x.toModel
  unfold value
  cases hu : x.toModel.unpack with
  | finite s m e hm =>
    rw [hu] at hcanonical hfits
    have h53 : (m : ℝ) < 2 ^ (53 : ℤ) := by exact_mod_cast hcanonical.1
    have hexp : (2 : ℝ) ^ e ≤ 2 ^ (971 : ℤ) := zpow_le_zpow_right₀ (by norm_num) hfits
    rw [unpackedValue, abs_signFactor_mul s (by positivity)]
    calc (m : ℝ) * 2 ^ e < 2 ^ (53 : ℤ) * 2 ^ e := mul_lt_mul_of_pos_right h53 (by positivity)
      _ ≤ 2 ^ (53 : ℤ) * 2 ^ (971 : ℤ) := mul_le_mul_of_nonneg_left hexp (by positivity)
      _ = overflowLimit := (zpow_add₀ (by norm_num) (53 : ℤ) 971).symm
  | _ => simp [unpackedValue, overflowLimit_pos]

/-- `x` is what an operation answers whose exact result is `r`. -/
inductive Rounds (x : Float) (r : ℝ) : Prop where
  | finite (hx : x.isFinite = true) (hvalue : value x = rounded r)
  | overflow (s : Sign) (hx : x.toModel.unpack = .infinity s)
      (hlarge : overflowLimit ≤ signFactor s * rounded r)

theorem Rounds.value_eq {x : Float} {r : ℝ} (h : Rounds x r) (hx : x.isFinite = true) :
    value x = rounded r := by
  rcases h with ⟨_, hvalue⟩ | ⟨s, hinf, _⟩
  · exact hvalue
  · change x.toModel.unpack.isFinite = true at hx
    rw [hinf] at hx
    exact absurd hx (by simp [UnpackedFloat.isFinite])

theorem Rounds.of_abs_lt {x : Float} {r : ℝ} (h : Rounds x r) (hr : |rounded r| < overflowLimit) :
    x.isFinite = true ∧ value x = rounded r := by
  rcases h with ⟨hx, hvalue⟩ | ⟨_ | _, _, hlarge⟩
  · exact ⟨hx, hvalue⟩
  · simp only [signFactor] at hlarge
    linarith [(abs_lt.mp hr).1]
  · simp only [signFactor] at hlarge
    linarith [(abs_lt.mp hr).2]

theorem Rounds.isZero {x : Float} (h : Rounds x 0) : IsZero x := by
  obtain ⟨hx, hvalue⟩ := h.of_abs_lt (by rw [rounded_zero, abs_zero]; exact overflowLimit_pos)
  rw [rounded_zero] at hvalue
  exact isZero_of_value hx hvalue

theorem rounds_value {x : Float} (h : x.isFinite = true) : Rounds x (value x) :=
  .finite h (rounded_value h).symm

/-- What is stored of a correctly rounded result. -/
theorem rounds_pack {u : UnpackedFloat} {r : ℝ} (h : Represents u (rounded r)) :
    Rounds (.ofModel (pack u)) r := by
  have hunpack := unpack_pack h.canonical
  rcases h.cases with ⟨s, rfl, hr⟩ | ⟨s, m, e, hm, rfl, hr, h53, hleast, hfull⟩
  · exact .finite (congrArg UnpackedFloat.isFinite hunpack)
      ((congrArg unpackedValue hunpack).trans hr.symm)
  · by_cases he : e ≤ 971
    · rw [show saturated (.finite s m e hm) = _ from if_pos he] at hunpack
      exact .finite (congrArg UnpackedFloat.isFinite hunpack)
        ((congrArg unpackedValue hunpack).trans hr.symm)
    · refine .overflow s (hunpack.trans (if_neg he)) ?_
      have h52 : (2 : ℝ) ^ (52 : ℤ) ≤ m := by exact_mod_cast hfull.resolve_right (by omega)
      have hsign : signFactor s * signFactor s = 1 := by cases s <;> simp [signFactor]
      rw [hr, ← mul_assoc, hsign, one_mul]
      calc overflowLimit ≤ 2 ^ (52 + e) := zpow_le_zpow_right₀ (by norm_num) (by omega)
        _ = 2 ^ (52 : ℤ) * 2 ^ e := zpow_add₀ (by norm_num) _ _
        _ ≤ m * 2 ^ e := mul_le_mul_of_nonneg_right h52 (by positivity)

theorem Rounds.not_nan {x : Float} {r : ℝ} (h : Rounds x r) :
    x.toModel.unpack ≠ .notANumber := by
  rintro hnan
  rcases h with ⟨hx, _⟩ | ⟨s, hx, _⟩
  · change x.toModel.unpack.isFinite = true at hx
    simp [hnan, UnpackedFloat.isFinite] at hx
  · simp [hnan] at hx

theorem le_of_unpack_eq_infinity {x y : Float} (hx : x.toModel.unpack ≠ .notANumber)
    (hy : y.toModel.unpack = .infinity .positive) : x ≤ y := by
  rw [le_iff_unpack, hy]
  cases hu : x.toModel.unpack with
  | notANumber => exact absurd hu hx
  | infinity s => cases s <;> rfl
  | zero s => rfl
  | finite s m e hm => cases s <;> rfl

theorem le_of_unpack_eq_neg_infinity {x y : Float} (hx : x.toModel.unpack = .infinity .negative)
    (hy : y.toModel.unpack ≠ .notANumber) : x ≤ y := by
  rw [le_iff_unpack, hx]
  cases hu : y.toModel.unpack with
  | notANumber => exact absurd hu hy
  | infinity s => cases s <;> rfl
  | zero s => rfl
  | finite s m e hm => cases s <;> rfl

/-- Operations keep the order of the exact results, also where they leave the range. -/
theorem Rounds.mono {x y : Float} {r t : ℝ} (hx : Rounds x r) (hy : Rounds y t) (h : r ≤ t) :
    x ≤ y := by
  have hle := rounded_mono h
  have hxnan := hx.not_nan
  have hynan := hy.not_nan
  have hfinite := (abs_lt.mp (abs_value_lt x)).1
  have hfinite' := (abs_lt.mp (abs_value_lt y)).2
  have hpos := overflowLimit_pos
  rcases hx with ⟨hx, hxv⟩ | ⟨_ | _, hx, hxl⟩
  · rcases hy with ⟨hy, hyv⟩ | ⟨_ | _, hy, hyl⟩
    · rw [le_iff_value hx hy, hxv, hyv]
      exact hle
    · simp only [signFactor] at hyl
      linarith
    · exact le_of_unpack_eq_infinity hxnan hy
  · exact le_of_unpack_eq_neg_infinity hx hynan
  · rcases hy with ⟨hy, hyv⟩ | ⟨_ | _, hy, hyl⟩
    · simp only [signFactor] at hxl
      linarith
    · simp only [signFactor] at hxl hyl
      linarith
    · exact le_of_unpack_eq_infinity hxnan hy

/-- What lies between two finite doubles is finite. -/
theorem isFinite_of_le_of_le {a x b : Float} (ha : a.isFinite = true) (hb : b.isFinite = true)
    (hax : a ≤ x) (hxb : x ≤ b) : x.isFinite = true := by
  rw [le_iff_unpack] at hax hxb
  change x.toModel.unpack.isFinite = true
  cases hx : x.toModel.unpack with
  | zero s => rfl
  | finite s m e hm => rfl
  | notANumber =>
    rw [hx, compare_notANumber] at hax
    exact absurd hax (by simp)
  | infinity s =>
    rw [hx] at hax hxb
    cases s with
    | negative =>
      rcases (represents ha).cases with ⟨t, hu, _⟩ | ⟨t, m, e, hm, hu, _⟩ <;> rw [hu] at hax <;>
        exact absurd hax (by simp [UnpackedFloat.compare])
    | positive =>
      rcases (represents hb).cases with ⟨t, hu, _⟩ | ⟨t, m, e, hm, hu, _⟩ <;> rw [hu] at hxb <;>
        exact absurd hxb (by simp [UnpackedFloat.compare])

section
variable {x y : Float} (hx : x.isFinite = true) (hy : y.isFinite = true)
include hx

theorem neg_rounds : Rounds (-x) (-value x) := by
  refine rounds_pack ((represents hx).neg.congr ?_)
  rw [rounded_neg, rounded_value hx]

theorem isFinite_neg : (-x).isFinite = true ∧ value (-x) = -value x := by
  have hgrid : rounded (-value x) = -value x := by rw [rounded_neg, rounded_value hx]
  have hlarge : |rounded (-value x)| < overflowLimit := by
    rw [hgrid, abs_neg]
    exact abs_value_lt x
  exact hgrid ▸ (neg_rounds hx).of_abs_lt hlarge

theorem isFinite_abs : x.abs.isFinite = true ∧ value x.abs = |value x| := by
  have hgrid : rounded (|value x|) = |value x| := (represents hx).abs.rounded_eq
  have hlarge : |rounded (|value x|)| < overflowLimit := by
    rw [hgrid, abs_abs]
    exact abs_value_lt x
  have hrounds : Rounds x.abs |value x| := rounds_pack ((represents hx).abs.congr hgrid.symm)
  exact hgrid ▸ hrounds.of_abs_lt hlarge

theorem sqrt_rounds (h : 0 ≤ value x) : Rounds x.sqrt √(value x) :=
  rounds_pack (sqrt_represents (represents hx) h)

include hy

theorem add_rounds : Rounds (x + y) (value x + value y) :=
  rounds_pack (add_represents (represents hx) (represents hy))

theorem sub_rounds : Rounds (x - y) (value x - value y) :=
  rounds_pack (sub_represents (represents hx) (represents hy))

theorem mul_rounds : Rounds (x * y) (value x * value y) :=
  rounds_pack (mul_represents (represents hx) (represents hy))

theorem div_rounds (h : value y ≠ 0) : Rounds (x / y) (value x / value y) :=
  rounds_pack (div_represents (represents hx) (represents hy) h)

end

theorem IsZero.mul {x y : Float} (hx : x.isFinite = true) (hy : IsZero y) : IsZero (x * y) := by
  have h := mul_rounds hx hy.isFinite.1
  rw [hy.isFinite.2, mul_zero] at h
  exact h.isZero

theorem value_one : value 1.0 = 1 := by
  change signFactor .positive * ((2 ^ 52 : ℕ) * 2 ^ (-52 : ℤ)) = (1 : ℝ)
  norm_num [signFactor]

theorem toFloat_natCast {n : ℕ} (h : n < 2 ^ 53) :
    n.toUInt64.toFloat.isFinite = true ∧ value n.toUInt64.toFloat = n := by
  have hword : n.toUInt64.toFloat = .ofModel (.ofNat n) := by
    change Float.ofModel (.ofNat n.toUInt64.toNat) = _
    rw [Nat.toUInt64_eq, UInt64.toNat_ofNat', Nat.mod_eq_of_lt (by omega)]
  have hgrid : rounded n = n := by
    exact_mod_cast rounded_intCast (n := n) (by rw [Nat.abs_cast]; exact_mod_cast h)
  have hlarge : |rounded n| < overflowLimit := by
    rw [hgrid, Nat.abs_cast]
    calc (n : ℝ) < 2 ^ (53 : ℤ) := by exact_mod_cast h
      _ ≤ overflowLimit := zpow_le_zpow_right₀ (by norm_num) (by norm_num)
  have hnormal := normalize_represents n 0 .positive
  rw [zpow_zero, mul_one, Int.cast_natCast] at hnormal
  rw [hword, ← hgrid]
  exact hgrid.symm ▸ (rounds_pack hnormal).of_abs_lt hlarge

theorem ofInt_natCast {n : ℕ} (h : n < 2 ^ 53) :
    (Float.ofInt n).isFinite = true ∧ value (Float.ofInt n) = n := by
  obtain ⟨hfinite, hvalue⟩ := toFloat_natCast h
  have hgrid : rounded n = n := hvalue ▸ rounded_value hfinite
  have hlarge : |rounded n| < overflowLimit := by
    rw [hgrid, ← hvalue]
    exact abs_value_lt _
  have hproduct := mul_rounds hfinite (y := 1.0) rfl
  rw [hvalue, value_one, mul_one] at hproduct
  have hint : Float.ofInt n = n.toUInt64.toFloat * 1.0 := by
    change Float.ofScientific n false 0 = _
    unfold Float.ofScientific
    rw [dif_pos ⟨h, by norm_num⟩]
    simp only [Bool.false_eq_true, if_false]
    rfl
  rw [hint]
  exact hgrid ▸ hproduct.of_abs_lt hlarge

theorem value_sixty : value 60.0 = 60 := (ofInt_natCast (n := 60) (by decide)).2

theorem value_half_turn : value 180.0 = 180 := (ofInt_natCast (n := 180) (by decide)).2

theorem value_turn : value 360.0 = 360 := (ofInt_natCast (n := 360) (by decide)).2

theorem ofInt_div_near {a b : ℕ} (ha : a < 2 ^ 53) (hb : b < 2 ^ 53) (hpos : 0 < b) {n : ℤ}
    (hlow : -1021 ≤ n) (hhigh : n < 1024) (h : (a : ℝ) / b < 2 ^ n) :
    (Float.ofInt a / Float.ofInt b).isFinite = true ∧
      |value (Float.ofInt a / Float.ofInt b) - a / b| ≤ 2 ^ (n - 54) := by
  obtain ⟨hfinite, hvalue⟩ := ofInt_natCast ha
  obtain ⟨hfinite', hvalue'⟩ := ofInt_natCast hb
  have hquotient := div_rounds hfinite hfinite' (by rw [hvalue']; exact_mod_cast hpos.ne')
  rw [hvalue, hvalue'] at hquotient
  have hsmall : |(a : ℝ) / b| < 2 ^ n := by rwa [abs_of_nonneg (by positivity)]
  obtain ⟨hx, hxvalue⟩ := hquotient.of_abs_lt
    ((abs_rounded_le_zpow (by omega) hsmall.le).trans_lt
      (zpow_lt_zpow_right₀ (by norm_num) hhigh))
  exact ⟨hx, by rw [hxvalue]; exact abs_rounded_sub_le_of_lt hlow hsmall⟩

theorem ofScaled_rounds (s : Sign) (m : ℕ) (e : ℤ) :
    Rounds (ofScaled s m e) (signFactor s * (m * 2 ^ e)) := by
  refine rounds_pack ?_
  rw [rounded_signFactor_mul]
  exact round_represents s m e

end GeoAlmanac.Binary64
