import GeoAlmanac.Decimal.Shortest
import GeoAlmanac.Proofs.Decimal.Fixed
import GeoAlmanac.Proofs.Decimal.Numerals

/-! The shortest text of a double is read as that double. All numbers of its neighbourhood are
rounded to it, among the grids of one to seventeen digits one has a point there, and the text says
that point. -/

namespace GeoAlmanac.Decimal
open Binary64
open Float.Model
open Float.Model.UnpackedFloat (Sign)

theorem Neighbourhood.holds_bounds {b : Neighbourhood} {num den : ℕ} (hden : 0 < den)
    (h : b.holds num den = true) : (b.low : ℝ) ≤ num / den ∧ (num : ℝ) / den ≤ b.high ∧
      (b.closed = false → (b.low : ℝ) < num / den ∧ (num : ℝ) / den < b.high) := by
  have hpos : (0 : ℝ) < den := by exact_mod_cast hden
  simp only [le_div_iff₀ hpos, div_le_iff₀ hpos, lt_div_iff₀ hpos, div_lt_iff₀ hpos]
  unfold holds at h
  split_ifs at h with hclosed
  · rw [Bool.and_eq_true, decide_eq_true_eq, decide_eq_true_eq] at h
    exact ⟨by exact_mod_cast h.1, by exact_mod_cast h.2, by simp [hclosed]⟩
  · rw [Bool.and_eq_true, decide_eq_true_eq, decide_eq_true_eq] at h
    have hlow : (b.low * den : ℝ) < num := by exact_mod_cast h.1
    have hhigh : (num : ℝ) < b.high * den := by exact_mod_cast h.2
    exact ⟨hlow.le, hhigh.le, fun _ => ⟨hlow, hhigh⟩⟩

/-- Below a power of two the units are half as wide, and a quarter of the unit above is half of
one. -/
theorem rounded_below_power {e : ℤ} (he : -1074 < e) {q : ℝ} (hlow : 4 * 2 ^ 52 - 1 ≤ q)
    (hhigh : q < 4 * 2 ^ 52) : rounded (q / 4 * 2 ^ e) = 2 ^ 52 * 2 ^ e := by
  have hunit : (0 : ℝ) < 2 ^ e := by positivity
  have hpos : 0 < q / 4 * 2 ^ e := mul_pos (by linarith) hunit
  have hstep : (2 : ℝ) ^ e = 2 * 2 ^ (e - 1) := by
    rw [zpow_sub_one₀ two_ne_zero]
    ring
  have hplace : lastPlace (q / 4 * 2 ^ e) = e - 1 := by
    apply lastPlace_eq hpos.ne' (by omega)
    · rw [abs_of_pos hpos, show e - 1 + 53 = 52 + e by ring, zpow_add₀ two_ne_zero]
      exact mul_lt_mul_of_pos_right (by norm_num at hhigh ⊢; linarith) hunit
    · left
      rw [abs_of_pos hpos, show e - 1 + 52 = 51 + e by ring, zpow_add₀ two_ne_zero]
      exact mul_le_mul_of_nonneg_right (by norm_num at hlow ⊢; linarith) hunit.le
  have hquotient : q / 4 * 2 ^ e / 2 ^ (e - 1) = q / 2 := by
    rw [hstep]
    field_simp
    ring
  rw [rounded_eq_of_lastPlace (n := 2 ^ 53) hplace (.inr ⟨?_, by norm_num⟩), hstep]
  · push_cast
    ring
  · rw [hquotient, abs_le]
    push_cast
    constructor <;> linarith

/-- A number in quarters of the unit of a double is rounded to the double if it is at most half a
unit away, from an odd double less; but below a power of two it must be half as near. -/
theorem rounded_quarters {m : ℕ} {e : ℤ} {hm : 0 < m} (hc : Canonical (.finite .positive m e hm))
    {q : ℝ} (hlow : 4 * m - 2 ≤ q) (hhigh : q ≤ 4 * m + 2)
    (hodd : m % 2 = 1 → 4 * m - 2 < q ∧ q < 4 * m + 2)
    (hbelow : m = 2 ^ 52 → -1074 < e → 4 * m - 1 ≤ q) :
    rounded (q / 4 * 2 ^ e) = m * 2 ^ e := by
  obtain ⟨h53, he, hfull⟩ := hc
  have hunit : (0 : ℝ) < 2 ^ e := by positivity
  have hone : (1 : ℝ) ≤ m := by exact_mod_cast hm
  have hlimit : (m : ℝ) + 1 ≤ 2 ^ 53 := by exact_mod_cast h53
  have hpos : 0 < q / 4 * 2 ^ e := mul_pos (by linarith) hunit
  by_cases hsame : 2 ^ 52 ≤ q / 4 ∨ e = -1074
  · have hplace : lastPlace (q / 4 * 2 ^ e) = e := by
      apply lastPlace_eq hpos.ne' he
      · rw [abs_of_pos hpos, add_comm, zpow_add₀ two_ne_zero]
        exact mul_lt_mul_of_pos_right (by norm_num at hlimit ⊢; linarith) hunit
      · refine hsame.imp_left fun hq => ?_
        rw [abs_of_pos hpos, add_comm, zpow_add₀ two_ne_zero]
        exact mul_le_mul_of_nonneg_right (by exact_mod_cast hq) hunit.le
    rw [rounded_eq_of_lastPlace (n := m) hplace ?_, Int.cast_natCast]
    rw [mul_div_cancel_right₀ _ hunit.ne', Int.cast_natCast]
    rcases Nat.mod_two_eq_zero_or_one m with heven | h
    · refine .inr ⟨abs_le.mpr ?_, by exact_mod_cast heven⟩
      constructor <;> linarith
    · obtain ⟨hl, hu⟩ := hodd h
      refine .inl (abs_lt.mpr ?_)
      constructor <;> linarith
  · obtain ⟨hq, hleast⟩ := not_or.mp hsame
    have h52 := hfull.resolve_right hleast
    have hpower : m = 2 ^ 52 := by
      by_contra hne
      have hnext : (2 : ℝ) ^ 52 + 1 ≤ m := by exact_mod_cast lt_of_le_of_ne h52 (Ne.symm hne)
      linarith
    have hnear := hbelow hpower (by omega)
    rw [hpower, Nat.cast_pow, Nat.cast_ofNat] at hnear ⊢
    exact rounded_below_power (by omega) hnear (by linarith)

theorem ofScaled_low (m : ℕ) (e : ℤ) : 4 * m ≤ (Neighbourhood.ofScaled m e).low + 2 ∧
    (m = 2 ^ 52 → -1074 < e → 4 * m ≤ (Neighbourhood.ofScaled m e).low + 1) := by
  simp only [Neighbourhood.ofScaled]
  split_ifs with hpower
  · omega
  · exact ⟨by omega, fun hm he => absurd ⟨hm, he⟩ hpower⟩

theorem rounded_of_holds {m : ℕ} {e : ℤ} {hm : 0 < m} (hc : Canonical (.finite .positive m e hm))
    {num den : ℕ} (hden : 0 < den) (h : (Neighbourhood.ofScaled m e).holds num den = true) :
    rounded (num / den / 4 * 2 ^ e) = m * 2 ^ e := by
  obtain ⟨hlow, hhigh, hstrict⟩ := Neighbourhood.holds_bounds hden h
  obtain ⟨hfar, hnear⟩ := ofScaled_low m e
  have hcast : ((Neighbourhood.ofScaled m e).high : ℝ) = 4 * m + 2 := by
    simp [Neighbourhood.ofScaled]
  have hfar : (4 * m : ℝ) ≤ (Neighbourhood.ofScaled m e).low + 2 := by exact_mod_cast hfar
  rw [hcast] at hhigh hstrict
  refine rounded_quarters hc (by linarith) hhigh (fun hodd => ?_) (fun hpower hleast => ?_)
  · obtain ⟨hl, hu⟩ := hstrict (by simp [Neighbourhood.ofScaled, hodd])
    exact ⟨by linarith, hu⟩
  · have hnear : (4 * m : ℝ) ≤ (Neighbourhood.ofScaled m e).low + 1 := by
      exact_mod_cast hnear hpower hleast
    linarith

/-- A step of a decimal grid as so many parts of a quarter unit of a double; `gridUnit` is how many
parts a quarter unit has. -/
def gridStep (e exponent : ℤ) : ℕ :=
  tenTo exponent.toNat <<< (2 - e).toNat

def gridUnit (e exponent : ℤ) : ℕ :=
  tenTo (-exponent).toNat <<< (e - 2).toNat

theorem gridUnit_pos (e exponent : ℤ) : 0 < gridUnit e exponent := by
  rw [gridUnit, Nat.shiftLeft_eq]
  exact Nat.mul_pos (Nat.pow_pos (by norm_num)) (Nat.pow_pos (by norm_num))

theorem gridStep_pos (e exponent : ℤ) : 0 < gridStep e exponent := by
  rw [gridStep, Nat.shiftLeft_eq]
  exact Nat.mul_pos (Nat.pow_pos (by norm_num)) (Nat.pow_pos (by norm_num))

theorem pow_toNat_div_pow_toNat {b : ℝ} (hb : b ≠ 0) (k : ℤ) :
    b ^ k.toNat / b ^ (-k).toNat = b ^ k := by
  rw [← zpow_natCast, ← zpow_natCast, ← zpow_sub₀ hb]
  congr 1
  omega

theorem grid_value (e exponent : ℤ) :
    (gridStep e exponent : ℝ) / gridUnit e exponent / 4 * 2 ^ e = 10 ^ exponent := by
  have hten := pow_toNat_div_pow_toNat (b := 10) (by norm_num) exponent
  have htwo := pow_toNat_div_pow_toNat (b := 2) (by norm_num) (2 - e)
  rw [neg_sub] at htwo
  simp only [gridStep, gridUnit, Nat.shiftLeft_eq, tenTo, Nat.pow_eq]
  push_cast
  rw [mul_div_mul_comm, hten, htwo, zpow_sub₀ two_ne_zero]
  field_simp
  norm_num

theorem roundDiv_mem (tie : Tie) (num den : ℕ) :
    roundDiv tie num den = num / den ∨ roundDiv tie num den = num / den + 1 := by
  unfold roundDiv
  dsimp only
  split_ifs
  · exact .inl rfl
  · exact .inr rfl
  · cases tie with
    | up => exact .inr rfl
    | toEven => rcases Nat.mod_two_eq_zero_or_one (num / den) with h | h <;> simp [h]

section
variable {tie : Tie} {m : ℕ} {e exponent : ℤ}

theorem holds_of_gridPoint {d : Digits} (h : gridPoint? tie m e exponent = some d) :
    d.exponent = exponent ∧ (Neighbourhood.ofScaled m e).holds
      (d.digits * gridStep e exponent) (gridUnit e exponent) = true := by
  unfold gridPoint? at h
  dsimp only at h
  split_ifs at h with hboth hlower hupper <;> obtain rfl := Option.some_inj.mp h
  · obtain ⟨hlower, hupper⟩ := (Bool.and_eq_true _ _).mp hboth
    refine ⟨rfl, ?_⟩
    dsimp only
    rcases roundDiv_mem tie _ _ with hpoint | hpoint <;> rw [hpoint]
    · exact hlower
    · exact hupper
  · exact ⟨rfl, hlower⟩
  · exact ⟨rfl, hupper⟩

theorem gridPoint?_isSome
    (h : gridStep e exponent + (Neighbourhood.ofScaled m e).low * gridUnit e exponent <
      (Neighbourhood.ofScaled m e).high * gridUnit e exponent) :
    (gridPoint? tie m e exponent).isSome = true := by
  have hunit := gridUnit_pos e exponent
  have hfloor := Nat.div_mul_le_self (4 * m * gridUnit e exponent) (gridStep e exponent)
  have hnext := Nat.lt_div_mul_add (a := 4 * m * gridUnit e exponent) (gridStep_pos e exponent)
  have hlow : (Neighbourhood.ofScaled m e).low * gridUnit e exponent ≤
      4 * m * gridUnit e exponent := by
    refine Nat.mul_le_mul_right _ ?_
    simp only [Neighbourhood.ofScaled]
    split_ifs <;> omega
  have hhigh : 4 * m * gridUnit e exponent <
      (Neighbourhood.ofScaled m e).high * gridUnit e exponent :=
    Nat.mul_lt_mul_of_pos_right (Nat.lt_add_of_pos_right two_pos) hunit
  by_contra hnone
  unfold gridPoint? at hnone
  dsimp only at hnone
  split_ifs at hnone with hboth hlower hupper <;> try exact hnone rfl
  change ¬(Neighbourhood.ofScaled m e).holds
    (4 * m * gridUnit e exponent / gridStep e exponent * gridStep e exponent)
    (gridUnit e exponent) = true at hlower
  change ¬(Neighbourhood.ofScaled m e).holds
    ((4 * m * gridUnit e exponent / gridStep e exponent + 1) * gridStep e exponent)
    (gridUnit e exponent) = true at hupper
  rw [add_mul, one_mul] at hupper
  simp only [Neighbourhood.holds] at hlower hupper
  generalize 4 * m * gridUnit e exponent / gridStep e exponent * gridStep e exponent = below at *
  split_ifs at hlower hupper <;>
    simp only [Bool.and_eq_true, decide_eq_true_eq] at hlower hupper <;> omega

end

theorem gridStep_lt_of_seventeen {m : ℕ} {e exponent : ℤ} (hm : 0 < m) (h53 : m < 2 ^ 53)
    (h : (10 : ℝ) ^ (exponent + 16) ≤ m * 2 ^ e) :
    gridStep e exponent + (Neighbourhood.ofScaled m e).low * gridUnit e exponent <
      (Neighbourhood.ofScaled m e).high * gridUnit e exponent := by
  have hunit : (0 : ℝ) < gridUnit e exponent := by exact_mod_cast gridUnit_pos e exponent
  have htwo : (0 : ℝ) < 2 ^ e := by positivity
  have hstep : (gridStep e exponent : ℝ) / gridUnit e exponent ≤ 4 * m / 10 ^ 16 := by
    have hvalue := grid_value e exponent
    rw [zpow_add₀ (by norm_num), ← hvalue, mul_right_comm] at h
    have hle := le_of_mul_le_mul_right h htwo
    rw [le_div_iff₀ (by norm_num)]
    norm_num at hle ⊢
    linarith
  have hwidth : 4 * (m : ℝ) / 10 ^ 16 + (Neighbourhood.ofScaled m e).low <
      (Neighbourhood.ofScaled m e).high := by
    have hlimit : (m : ℝ) < 2 ^ 53 := by exact_mod_cast h53
    simp only [Neighbourhood.ofScaled]
    split_ifs with hpower
    · rw [hpower.1]
      norm_num
    · have hpart : 4 * (m : ℝ) / 10 ^ 16 < 4 := by
        rw [div_lt_iff₀ (by norm_num)]
        linarith
      rw [Nat.cast_sub (by omega)]
      push_cast
      linarith
  have hsum : ((gridStep e exponent : ℝ) + (Neighbourhood.ofScaled m e).low * gridUnit e exponent) <
      (Neighbourhood.ofScaled m e).high * gridUnit e exponent := by
    have hstep := (div_le_iff₀ hunit).mp hstep
    nlinarith
  exact_mod_cast hsum

theorem pow_digitCount_le {n : ℕ} (hn : 0 < n) : 10 ^ (digitCount n - 1) ≤ n := by
  by_contra hlt
  rcases Nat.eq_zero_or_pos (digitCount n - 1) with hzero | hpos
  · rw [hzero] at hlt
    omega
  · have hle : digitCount n ≤ digitCount n - 1 :=
      (Nat.length_toDigits_le_iff (by norm_num) hpos).mpr (not_le.mp hlt)
    omega

theorem lt_pow_digitCount (n : ℕ) : n < 10 ^ digitCount n :=
  (Nat.length_toDigits_le_iff (by norm_num) (List.length_pos_of_ne_nil Nat.toDigits_ne_nil)).mp
    le_rfl

theorem digitCount_pos (n : ℕ) : 0 < digitCount n :=
  List.length_pos_of_ne_nil Nat.toDigits_ne_nil

theorem zpow_magnitude_le {r : Fraction} (hnum : 0 < r.num) (hden : 0 < r.den) :
    (10 : ℝ) ^ r.magnitude ≤ r.num / r.den := by
  have hpos : (0 : ℝ) < r.den := by exact_mod_cast hden
  have hinverse {k : ℕ} (h : r.den ≤ r.num * 10 ^ k) : (10 : ℝ) ^ (-(k : ℤ)) * r.den ≤ r.num := by
    rw [zpow_neg, zpow_natCast, inv_mul_le_iff₀ (by positivity), mul_comm]
    exact_mod_cast h
  have hwholePos := digitCount_pos (r.num / r.den)
  have hbelowPos := digitCount_pos (r.den / r.num)
  rw [le_div_iff₀ hpos]
  unfold Fraction.magnitude
  dsimp only
  split_ifs with hwhole hround
  · have hle := (Nat.le_div_iff_mul_le hden).mp (pow_digitCount_le (Nat.div_pos hwhole hden))
    rw [show (digitCount (r.num / r.den) : ℤ) - 1 = (digitCount (r.num / r.den) - 1 : ℕ) by omega,
      zpow_natCast]
    exact_mod_cast hle
  · rw [show 1 - (digitCount (r.den / r.num) : ℤ) = -(digitCount (r.den / r.num) - 1 : ℕ) by omega]
    exact hinverse hround
  · have hlt := (Nat.div_lt_iff_lt_mul hnum).mp (lt_pow_digitCount (r.den / r.num))
    rw [mul_comm] at hlt
    exact hinverse hlt.le

theorem Digits.trimmed_value (d : Digits) :
    (d.trimmed.digits : ℝ) * 10 ^ d.trimmed.exponent = d.digits * 10 ^ d.exponent := by
  unfold Digits.trimmed
  induction List.range 18 generalizing d with
  | nil => rfl
  | cons i is ih =>
    rw [List.foldl_cons, ih]
    split_ifs with hzero
    · have hten : ((d.digits / 10 : ℕ) : ℝ) * 10 = d.digits := by
        exact_mod_cast Nat.div_mul_cancel (Nat.dvd_of_mod_eq_zero hzero.1)
      rw [zpow_add_one₀ (by norm_num), mul_comm (10 ^ d.exponent) (10 : ℝ), ← mul_assoc, hten]
    · rfl

theorem rounded_shortestDigits (tie : Tie) {m : ℕ} {e : ℤ} {hm : 0 < m}
    (hc : Canonical (.finite .positive m e hm)) :
    rounded ((shortestDigits tie m e).digits * 10 ^ (shortestDigits tie m e).exponent) =
      m * 2 ^ e := by
  obtain ⟨hden, hvalue⟩ := ofScaled_value m e
  have hnum : 0 < (Fraction.ofScaled m e).num := by
    rw [Fraction.ofScaled, Nat.shiftLeft_eq]
    exact Nat.mul_pos hm (Nat.pow_pos two_pos)
  have hlead := hvalue ▸ zpow_magnitude_le hnum hden
  have hlast : (gridPoint? tie m e ((Fraction.ofScaled m e).magnitude - 16)).isSome = true :=
    gridPoint?_isSome (gridStep_lt_of_seventeen hm hc.1 (by rwa [sub_add_cancel]))
  unfold shortestDigits
  dsimp only
  cases hfound : ((List.range 17).map fun (i : ℕ) =>
      (Fraction.ofScaled m e).magnitude - (i : ℤ)).findSome? (gridPoint? tie m e) with
  | none =>
    have hnone := List.findSome?_eq_none_iff.mp hfound _
      (List.mem_map.mpr ⟨16, List.mem_range.mpr (by norm_num), rfl⟩)
    rw [Nat.cast_ofNat] at hnone
    simp [hnone] at hlast
  | some d =>
    obtain ⟨exponent, -, hpoint⟩ := List.exists_of_findSome?_eq_some hfound
    obtain ⟨rfl, hholds⟩ := holds_of_gridPoint hpoint
    have hrounded := rounded_of_holds hc (gridUnit_pos e d.exponent) hholds
    rw [Nat.cast_mul, mul_div_assoc, mul_div_assoc, mul_assoc, grid_value] at hrounded
    exact hrounded

theorem Digits.positional_text (d : Digits) : ∃ n places, DigitsText d.positional.toList n places ∧
    (n : ℝ) * 10 ^ ((0 : ℤ) - places) = d.digits * 10 ^ d.exponent := by
  unfold Digits.positional
  split_ifs with hwhole
  · have htext := DigitsText.whole (digits_toDigits (d.digits * tenTo d.exponent.toNat))
      Nat.toDigits_ne_nil
    rw [natOfDigits_eq, Nat.ofDigitChars_ten_toDigits] at htext
    rw [← toList_toString] at htext
    refine ⟨_, 0, htext, ?_⟩
    rw [Nat.cast_zero, sub_zero, zpow_zero, mul_one, tenTo, Nat.pow_eq]
    push_cast
    rw [← zpow_natCast, Int.toNat_of_nonneg hwhole]
  · have hplaces : (-d.exponent).toNat ≠ 0 := by omega
    have htext := DigitsText.point (digits_toDigits (d.digits / tenTo (-d.exponent).toNat))
      (digits_padded (-d.exponent).toNat (d.digits % tenTo (-d.exponent).toNat))
      (List.append_ne_nil_of_left_ne_nil Nat.toDigits_ne_nil _)
    rw [natOfDigits_withPoint hplaces, length_fraction hplaces] at htext
    rw [← toList_withPoint hplaces] at htext
    refine ⟨_, _, htext, ?_⟩
    rw [show (0 : ℤ) - (-d.exponent).toNat = d.exponent by omega]

theorem signText_eq (s : Sign) : SignText (signedText.signText s).toList s := by
  cases s with
  | negative => exact .minus
  | positive => exact .none

theorem numeral_of_digits {sign digits : List Char} {s : Sign} {n places : ℕ} {x : Float}
    (hsign : SignText sign s) (hdigits : DigitsText digits n places)
    (hx : IsNearest s (n * 10 ^ ((0 : ℤ) - places)) x) : Numeral (sign ++ digits) x := by
  simpa using Numeral.number hsign hdigits .none hx

theorem isNearest_of_unpack {x : Float} {s : Sign} {m : ℕ} {e : ℤ} {hm : 0 < m} {r : ℝ}
    (hx : x.toModel.unpack = .finite s m e hm) (hr : rounded r = m * 2 ^ e) : IsNearest s r x := by
  refine ⟨.finite (congrArg UnpackedFloat.isFinite hx) ?_, signBit_of_hasSign (hx ▸ rfl)⟩
  rw [rounded_signFactor_mul, hr]
  exact congrArg unpackedValue hx

theorem numeral_shortest (x : Float) : Numeral (shortest x).toList x := by
  unfold shortest signedText
  dsimp only
  cases hx : x.toModel.unpack with
  | notANumber => exact .notANumber .none (by unfold Spells; cbv) hx
  | infinity s =>
    rw [String.toList_append]
    exact .infinity (signText_eq s) (.inl (by unfold Spells; cbv)) hx
  | zero s =>
    change Numeral (signedText.signText s ++ "0").toList x
    rw [String.toList_append]
    have hzero : DigitsText ['0'] 0 0 := .whole (by simp [AllDigits]) (by simp)
    refine numeral_of_digits (signText_eq s) hzero
      ⟨.finite (congrArg UnpackedFloat.isFinite hx) ?_, signBit_of_hasSign (hx ▸ rfl)⟩
    rw [Nat.cast_zero, zero_mul, mul_zero, rounded_zero]
    exact congrArg unpackedValue hx
  | finite s m e hm =>
    have hcanonical : Canonical (.finite .positive m e hm) := by
      have h := (unpack_canonical x.toModel).1
      rwa [hx] at h
    obtain ⟨n, places, htext, hvalue⟩ := (shortestDigits .up m e).trimmed.positional_text
    change Numeral (signedText.signText s ++ if m = 0 then "0" else _).toList x
    rw [if_neg hm.ne', String.toList_append]
    refine numeral_of_digits (signText_eq s) htext (isNearest_of_unpack hx ?_)
    rw [hvalue, Digits.trimmed_value]
    exact rounded_shortestDigits .up hcanonical

theorem read?_shortest (x : Float) : read? (shortest x) = some x :=
  read?_eq_some_iff.mpr (numeral_shortest x)

end GeoAlmanac.Decimal
