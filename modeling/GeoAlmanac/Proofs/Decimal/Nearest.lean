import GeoAlmanac.Decimal.Reader
import GeoAlmanac.Proofs.Binary64.Neighbours
import GeoAlmanac.Proofs.Binary64.Signs

/-! A whole number scaled by a power of ten is read as the double nearest to it, as a zero where it
is too small and as an infinity where it is too large. -/

namespace GeoAlmanac
open Float.Model
open Float.Model.UnpackedFloat (Sign)

namespace Binary64

/-- The double nearest to a number that is given by its sign and its magnitude. The sign is kept
where the double is a zero. -/
structure IsNearest (s : Sign) (r : ℝ) (x : Float) : Prop where
  rounds : Rounds x (signFactor s * r)
  signBit_iff : signBit x = true ↔ s = .negative

theorem Rounds.neg {x : Float} {r : ℝ} (h : Rounds x r) : Rounds (-x) (-r) := by
  rcases h with ⟨hx, hvalue⟩ | ⟨s, hx, hlarge⟩
  · obtain ⟨hneg, hvalue'⟩ := isFinite_neg hx
    exact .finite hneg (by rw [hvalue', hvalue, rounded_neg])
  · refine .overflow (-s) (by rw [unpack_neg, hx]; rfl) ?_
    rwa [rounded_neg, signFactor_neg, neg_mul_neg]

theorem IsNearest.neg {r : ℝ} {x : Float} (h : IsNearest .positive r x) :
    IsNearest .negative r (-x) := by
  constructor
  · have hneg := h.rounds.neg
    rwa [← neg_mul, ← signFactor_neg] at hneg
  · have hplus : ¬signBit x = true := h.signBit_iff.not.mpr (nomatch ·)
    simp [signBit_neg h.rounds.not_nan, hplus]

theorem isNearest_pack {u : UnpackedFloat} {s : Sign} {r : ℝ}
    (h : Represents u (rounded (signFactor s * r))) (hs : HasSign s u) :
    IsNearest s r (.ofModel (pack u)) :=
  ⟨rounds_pack h, signBit_ofModel_pack h.canonical hs⟩

theorem Rounds.isNearest {x : Float} {r : ℝ} (h : Rounds x r) (hpos : 0 < rounded r) :
    IsNearest .positive r x := by
  have hlimit := overflowLimit_pos
  refine ⟨by rwa [signFactor, one_mul], ?_⟩
  rcases h with ⟨hx, hvalue⟩ | ⟨_ | _, hx, hlarge⟩
  · rw [← hvalue] at hpos
    simp [signBit_of_value_ne_zero hx hpos.ne', hpos.le]
  · simp only [signFactor] at hlarge
    linarith
  · exact signBit_of_hasSign (hx ▸ rfl)

theorem Rounds.abs_lt_of_isFinite {x : Float} {r : ℝ} (h : Rounds x r) (hx : x.isFinite = true) :
    |rounded r| < overflowLimit := by
  rw [← h.value_eq hx]
  exact abs_value_lt x

/-- No two doubles are nearest to a number. -/
theorem IsNearest.unique {s : Sign} {r : ℝ} {x y : Float} (hx : IsNearest s r x)
    (hy : IsNearest s r y) : x = y := by
  have hsign : signBit x = signBit y := by
    rw [Bool.eq_iff_iff, hx.signBit_iff, hy.signBit_iff]
  rcases hx.rounds with ⟨hfx, hvx⟩ | ⟨t, hux, hlx⟩
  · obtain ⟨hfy, hvy⟩ := hy.rounds.of_abs_lt (hx.rounds.abs_lt_of_isFinite hfx)
    rcases eq_or_ne (value x) 0 with hzero | hne
    · have hzero' : value y = 0 := by rw [hvy, ← hvx, hzero]
      rcases isZero_of_value hfx hzero with rfl | rfl <;>
        rcases isZero_of_value hfy hzero' with rfl | rfl <;>
        first | rfl | exact absurd hsign (by decide)
    · exact eq_of_value_eq hfx hfy (hvx.trans hvy.symm) hne
  · rcases hy.rounds with ⟨hfy, -⟩ | ⟨t', huy, hly⟩
    · obtain ⟨hfx, -⟩ := hx.rounds.of_abs_lt (hy.rounds.abs_lt_of_isFinite hfy)
      change x.toModel.unpack.isFinite = true at hfx
      rw [hux] at hfx
      exact absurd hfx Bool.false_ne_true
    · have hlimit := overflowLimit_pos
      have hsame : t = t' := by
        cases t <;> cases t' <;> first | rfl | (simp only [signFactor] at hlx hly; linarith)
      exact eq_of_unpack_eq (hux.trans (hsame ▸ huy.symm))

end Binary64

namespace Decimal
open Binary64

/-- A power of ten that is a double. -/
def powerOfTen (e : ℕ) : Float :=
  ofScaled .positive (5 ^ e) e

theorem powerOfTen_value {e : ℕ} (he : e ≤ 22) :
    (powerOfTen e).isFinite = true ∧ value (powerOfTen e) = 10 ^ e := by
  have hscaled : (((5 ^ e : ℕ) : ℤ) : ℝ) * 2 ^ (e : ℤ) = 10 ^ e := by
    push_cast
    rw [zpow_natCast, ← mul_pow]
    norm_num
  have hsmall : |((5 ^ e : ℕ) : ℤ)| < 2 ^ 53 := by
    rw [Nat.abs_cast]
    have hle : 5 ^ e ≤ 5 ^ 22 := Nat.pow_le_pow_right (by norm_num) he
    exact_mod_cast hle.trans_lt (by norm_num)
  have hgrid : rounded (10 ^ e) = 10 ^ e := by
    rw [← hscaled]
    exact rounded_intCast_mul hsmall (by omega)
  have hrounds : Rounds (powerOfTen e) (10 ^ e) := by
    have h := ofScaled_rounds .positive (5 ^ e) e
    rwa [signFactor, one_mul, ← Int.cast_natCast (5 ^ e), hscaled] at h
  have hlimit : |rounded (10 ^ e)| < overflowLimit := by
    rw [hgrid, abs_of_pos (by positivity)]
    calc (10 : ℝ) ^ e ≤ 10 ^ 22 := pow_le_pow_right₀ (by norm_num) he
      _ < 2 ^ (74 : ℤ) := by norm_num
      _ ≤ overflowLimit := zpow_le_zpow_right₀ one_le_two (by norm_num)
  rw [← hgrid]
  exact hgrid.symm ▸ hrounds.of_abs_lt hlimit

theorem exactlyRepresentable_eq : ∀ e : Fin 23,
    ∃ h : e.val < Float.exactlyRepresentablePowersOfTen.size,
      Float.exactlyRepresentablePowersOfTen[e.val] = powerOfTen e := by
  decide +kernel

theorem ofScientific_short {m e : ℕ} (hm : m < 2 ^ 53) (he : e ≤ 22) (negative : Bool) :
    Float.ofScientific m negative e =
      if negative then m.toUInt64.toFloat / powerOfTen e
      else m.toUInt64.toFloat * powerOfTen e := by
  obtain ⟨h, hpower⟩ := exactlyRepresentable_eq ⟨e, by omega⟩
  unfold Float.ofScientific
  rw [dif_pos ⟨hm, he⟩, ← hpower]

theorem ofScientific_zero : ∀ (e : Fin 23) (negative : Bool),
    Float.ofScientific 0 negative e = 0.0 := by
  decide +kernel

/-- The power of ten after a sign and a number of places. -/
def signedExponent (negative : Bool) (e : ℕ) : ℤ :=
  if negative then -e else e

theorem ofScientific_short_isNearest {m e : ℕ} (hm : m < 2 ^ 53) (he : e ≤ 22) (negative : Bool) :
    IsNearest .positive (m * 10 ^ signedExponent negative e) (Float.ofScientific m negative e) := by
  rcases Nat.eq_zero_or_pos m with rfl | hpos
  · rw [ofScientific_zero ⟨e, by omega⟩ negative, Nat.cast_zero, zero_mul]
    refine ⟨?_, iff_of_false (by decide) (nomatch ·)⟩
    rw [mul_zero]
    exact .finite rfl rounded_zero.symm
  obtain ⟨hfinite, hvalue⟩ := toFloat_natCast hm
  obtain ⟨hpower, hten⟩ := powerOfTen_value he
  have hne : (10 : ℝ) ^ e ≠ 0 := by positivity
  have hone : (1 : ℝ) ≤ m := by exact_mod_cast hpos
  have hleast : (10 : ℝ) ^ (-22 : ℤ) ≤ m * 10 ^ signedExponent negative e := by
    have hexp : (-22 : ℤ) ≤ signedExponent negative e := by
      unfold signedExponent
      split_ifs <;> omega
    calc (10 : ℝ) ^ (-22 : ℤ) ≤ 10 ^ signedExponent negative e :=
          zpow_le_zpow_right₀ (by norm_num) hexp
      _ ≤ m * 10 ^ signedExponent negative e := le_mul_of_one_le_left (by positivity) hone
  have hlarge : (2 : ℝ) ^ (-1075 : ℤ) < m * 10 ^ signedExponent negative e :=
    calc (2 : ℝ) ^ (-1075 : ℤ) ≤ 2 ^ (-74 : ℤ) := zpow_le_zpow_right₀ one_le_two (by norm_num)
      _ < 10 ^ (-22 : ℤ) := by norm_num
      _ ≤ _ := hleast
  refine Rounds.isNearest ?_ (rounded_pos hlarge)
  rw [ofScientific_short hm he]
  cases negative with
  | true =>
    have hquotient := div_rounds hfinite hpower (hten ▸ hne)
    rw [hvalue, hten, div_eq_mul_inv, ← zpow_natCast, ← zpow_neg] at hquotient
    exact hquotient
  | false =>
    have hproduct := mul_rounds hfinite hpower
    rw [hvalue, hten, ← zpow_natCast] at hproduct
    exact hproduct

theorem isNearest_infinity {r : ℝ} (h : overflowLimit ≤ r) :
    IsNearest .positive r (.ofModel (pack (.infinity .positive))) := by
  have hgrid : rounded overflowLimit = overflowLimit := rounded_zpow (by norm_num)
  refine ⟨.overflow .positive rfl ?_, iff_of_false (by decide) (nomatch ·)⟩
  rw [signFactor, one_mul, one_mul, ← hgrid]
  exact rounded_mono h

theorem isNearest_zero {r : ℝ} (h : |r| < 2 ^ (-1075 : ℤ)) :
    IsNearest .positive r (.ofModel (pack (.zero .positive))) := by
  refine isNearest_pack ((Represents.zero .positive).congr ?_) rfl
  rw [signFactor, one_mul, rounded_eq_zero h]

theorem scaled_lt_least {m : ℕ} {e : ℤ} (he : e < -(2048 + m.log2 : ℤ)) :
    (m : ℝ) * 10 ^ e < 2 ^ (-1075 : ℤ) := by
  have hlog : (m : ℝ) < 2 ^ (m.log2 + 1 : ℤ) := by exact_mod_cast Nat.lt_log2_self
  have hten : (10 : ℝ) ^ e ≤ 2 ^ e := by
    rw [← neg_neg e, zpow_neg, zpow_neg _ (-e)]
    exact inv_anti₀ (by positivity) (zpow_le_zpow_left₀ (by omega) (by norm_num) (by norm_num))
  calc (m : ℝ) * 10 ^ e < 2 ^ (m.log2 + 1 : ℤ) * 10 ^ e :=
        mul_lt_mul_of_pos_right hlog (by positivity)
    _ ≤ 2 ^ (m.log2 + 1 : ℤ) * 2 ^ e := mul_le_mul_of_nonneg_left hten (by positivity)
    _ = 2 ^ (m.log2 + 1 + e : ℤ) := (zpow_add₀ two_ne_zero _ _).symm
    _ ≤ 2 ^ (-1075 : ℤ) := zpow_le_zpow_right₀ one_le_two (by omega)

section
variable {m : ℕ} (hm : 0 < m) {e : ℤ}
include hm

theorem unpacked_mul_ten (he : 0 ≤ e) :
    Represents (UnpackedFloat.mul Format.binary64
      (.finite .positive (m <<< Format.binary64.mantissaBits) (-Format.binary64.mantissaBits)
        (by simpa [Nat.pos_iff_ne_zero] using hm.ne'))
      (.finite .positive (10 ^ e.toNat) 0 (Nat.pow_pos (by decide)))) (rounded (m * 10 ^ e)) := by
  have hshift : ((m <<< Format.binary64.mantissaBits : ℕ) : ℝ) *
      2 ^ (-Format.binary64.mantissaBits : ℤ) = m := by
    have h := shiftLeft_value m Format.binary64.mantissaBits 0
    rwa [zero_sub, zpow_zero, mul_one] at h
  have hten : ((10 ^ e.toNat : ℕ) : ℝ) * 2 ^ (0 : ℤ) = 10 ^ e := by
    rw [zpow_zero, mul_one, Nat.cast_pow, ← zpow_natCast, Int.toNat_of_nonneg he]
    norm_num
  have hone : (2 : ℝ) ^ (0 : ℤ) ≤ m * 10 ^ e := by
    have h1 : (1 : ℝ) ≤ m := by exact_mod_cast hm
    have h2 : (1 : ℝ) ≤ 10 ^ e := one_le_zpow₀ (by norm_num) he
    rw [zpow_zero]
    exact one_le_mul_of_one_le_of_one_le h1 h2
  have hplace : -52 ≤ lastPlace (m * 10 ^ e) := by
    have := lt_lastPlace_of_zpow_le (hone.trans (le_abs_self _))
    omega
  refine (mul_finite_represents .positive .positive _ _ ?_).congr ?_
  · rw [hshift, hten]
    change -(53 : ℤ) + 0 ≤ _
    omega
  · rw [hshift, hten, signFactor, one_mul, one_mul]

theorem unpacked_div_ten (he : ¬0 ≤ e) :
    Represents (UnpackedFloat.div Format.binary64 (.finite .positive m 0 hm)
      (.finite .positive (10 ^ (-e).toNat) 0 (Nat.pow_pos (by decide))))
      (rounded (m * 10 ^ e)) := by
  have hten : ((10 ^ (-e).toNat : ℕ) : ℝ) = (10 ^ e)⁻¹ := by
    rw [Nat.cast_pow, ← zpow_natCast, Int.toNat_of_nonneg (by omega), zpow_neg]
    norm_num
  refine (div_finite_represents .positive .positive hm _ 0 0).congr ?_
  rw [zpow_zero, mul_one, mul_one, signFactor, one_mul, one_mul, hten, div_inv_eq_mul]

theorem overflowLimit_le_scaled (he : 2048 < e) : overflowLimit ≤ m * 10 ^ e := by
  have hone : (1 : ℝ) ≤ m := by exact_mod_cast hm
  calc overflowLimit ≤ 2 ^ e := zpow_le_zpow_right₀ one_le_two (by omega)
    _ ≤ 10 ^ e := zpow_le_zpow_left₀ (by omega) (by norm_num) (by norm_num)
    _ ≤ m * 10 ^ e := le_mul_of_one_le_left (by positivity) hone

end

theorem model_ofScientific_isNearest (m : ℕ) (e : ℤ) :
    IsNearest .positive (m * 10 ^ e) (.ofModel (.ofScientific m e)) := by
  change IsNearest _ _ (.ofModel (pack (UnpackedFloat.ofScientific Format.binary64 m e)))
  unfold UnpackedFloat.ofScientific
  split_ifs with hzero hlarge hsmall hexp
  · apply isNearest_zero
    rw [hzero, Nat.cast_zero, zero_mul, abs_zero]
    positivity
  · exact isNearest_infinity (overflowLimit_le_scaled (Nat.pos_of_ne_zero hzero) hlarge)
  · apply isNearest_zero
    rw [abs_of_nonneg (by positivity)]
    exact scaled_lt_least hsmall
  · refine isNearest_pack ?_ (hasSign_roundWithAccuracy _ _ _ _)
    rw [signFactor, one_mul]
    exact unpacked_mul_ten (Nat.pos_of_ne_zero hzero) hexp
  · refine isNearest_pack ?_ (hasSign_roundWithAccuracy _ _ _ _)
    rw [signFactor, one_mul]
    exact unpacked_div_ten (Nat.pos_of_ne_zero hzero) hexp

theorem ofScientific_isNearest (m e : ℕ) (negative : Bool) :
    IsNearest .positive (m * 10 ^ signedExponent negative e) (Float.ofScientific m negative e) := by
  by_cases hshort : m < 2 ^ 53 ∧ e ≤ 22
  · exact ofScientific_short_isNearest hshort.1 hshort.2 negative
  · have hlong : Float.ofScientific m negative e =
        .ofModel (.ofScientific m (signedExponent negative e)) := by
      unfold Float.ofScientific
      rw [dif_neg hshort]
      cases negative
      · rfl
      · exact congrArg (fun k => Float.ofModel (.ofScientific m k)) Int.negOfNat_eq
    rw [hlong]
    exact model_ofScientific_isNearest m _

theorem nearest_isNearest (m : ℕ) (e : ℤ) : IsNearest .positive (m * 10 ^ e) (nearest m e) := by
  unfold nearest
  split_ifs with hneg
  · have h := ofScientific_isNearest m (-e).toNat true
    rwa [show signedExponent true (-e).toNat = e by simp only [signedExponent, if_true]; omega] at h
  · have h := ofScientific_isNearest m e.toNat false
    rwa [show signedExponent false e.toNat = e by
      simp only [signedExponent, Bool.false_eq_true, if_false]; omega] at h

end Decimal
end GeoAlmanac
