import GeoAlmanac.Decimal.Fixed
import GeoAlmanac.Proofs.Binary64.WholeParts
import GeoAlmanac.Proofs.Decimal.Digits

/-! The decimal text of a double with a fixed number of places: the number it shows is the one
nearest to the double. -/

namespace GeoAlmanac.Decimal
open Binary64

theorem roundDiv_half (tie : Tie) (num : ℕ) {den : ℕ} (hden : 0 < den) :
    2 * (roundDiv tie num den * den) ≤ 2 * num + den ∧
      2 * num ≤ 2 * (roundDiv tie num den * den) + den := by
  have hdivision := Nat.div_add_mod' num den
  have hrest := Nat.mod_lt num hden
  unfold roundDiv
  dsimp only
  generalize num / den = whole at *
  generalize num % den = rest at *
  split
  · omega
  · split
    · rw [add_mul]
      omega
    · have hparity : whole % 2 = 0 ∨ whole % 2 = 1 := by omega
      rcases tie with _ | _ <;> rcases hparity with h | h <;> simp only [h, add_mul] <;> omega

section
variable {K : Type} [Field K] [LinearOrder K] [IsStrictOrderedRing K]

theorem abs_roundDiv_sub_le (tie : Tie) (num : ℕ) {den : ℕ} (hden : 0 < den) :
    |(roundDiv tie num den : K) - num / den| ≤ 1 / 2 := by
  have hpos : (0 : K) < den := by exact_mod_cast hden
  obtain ⟨hhigh, hlow⟩ := roundDiv_half tie num hden
  have hhigh' : (2 : K) * (roundDiv tie num den * den) ≤ 2 * num + den := by exact_mod_cast hhigh
  have hlow' : (2 : K) * num ≤ 2 * (roundDiv tie num den * den) + den := by exact_mod_cast hlow
  have hsplit : (roundDiv tie num den : K) - num / den =
      (roundDiv tie num den * den - num) / den := by
    rw [sub_div, mul_div_cancel_right₀ _ hpos.ne']
  rw [hsplit, abs_div, abs_of_pos hpos, div_le_iff₀ hpos, abs_le]
  constructor <;> linarith

theorem roundDiv_eq (tie : Tie) {num den n : ℕ} (hden : 0 < den)
    (h : |(n : K) - num / den| < 1 / 2) : roundDiv tie num den = n := by
  have hhalf : |(roundDiv tie num den : K) - num / den| ≤ 1 / 2 := abs_roundDiv_sub_le tie num hden
  rw [abs_le] at hhalf
  rw [abs_lt] at h
  have hle : (roundDiv tie num den : K) < (n + 1 : ℕ) := by
    push_cast
    linarith
  have hge : (n : K) < (roundDiv tie num den + 1 : ℕ) := by
    push_cast
    linarith
  have := Nat.cast_lt.mp hle
  have := Nat.cast_lt.mp hge
  omega

end

theorem le_roundDiv_toEven {num den n : ℕ} (hden : 0 < den) (heven : n % 2 = 0)
    (h : 2 * (n * den) ≤ 2 * num + den) : n ≤ roundDiv .toEven num den := by
  have hdivision := Nat.div_add_mod' num den
  have hrest := Nat.mod_lt num hden
  have hwhole : n ≤ num / den + 1 := by
    by_contra hnot
    have : (num / den + 2) * den ≤ n * den := Nat.mul_le_mul_right den (by omega)
    rw [add_mul] at this
    omega
  rcases hwhole.lt_or_eq with hlt | rfl
  · have hbelow : n ≤ num / den := by omega
    unfold roundDiv
    dsimp only
    split_ifs <;> omega
  · rw [add_mul] at h
    unfold roundDiv
    dsimp only
    split_ifs <;> omega

theorem ofScaled_value (m : ℕ) (e : ℤ) :
    0 < (Fraction.ofScaled m e).den ∧
      ((Fraction.ofScaled m e).num : ℝ) / (Fraction.ofScaled m e).den = m * 2 ^ e := by
  simp only [Fraction.ofScaled, Nat.shiftLeft_eq, one_mul]
  refine ⟨by positivity, ?_⟩
  push_cast
  rw [← zpow_natCast, ← zpow_natCast, mul_div_assoc, ← zpow_sub₀ (by norm_num)]
  congr 2
  omega

theorem shift_value (r : Fraction) (places : ℕ) :
    (r.shift places).den = r.den ∧ ((r.shift places).num : ℝ) = r.num * 10 ^ places := by
  have hnone : tenTo (-(places : ℤ)).toNat = 1 := by
    rw [Int.toNat_of_nonpos (by omega)]
    rfl
  have hten : tenTo (places : ℤ).toNat = 10 ^ places := rfl
  simp only [Fraction.shift, hnone, hten, mul_one, true_and]
  push_cast
  rfl

theorem fixedUnits_eq (places m : ℕ) (e : ℤ) : ∃ num den : ℕ, 0 < den ∧
    (num : ℝ) / den = m * 2 ^ e * 10 ^ places ∧
    fixedUnits places m e = roundDiv .toEven num den := by
  obtain ⟨hden, hquotient⟩ := ofScaled_value m e
  obtain ⟨hsame, hmoved⟩ := shift_value (.ofScaled m e) places
  refine ⟨_, _, hsame ▸ hden, ?_, rfl⟩
  rw [hmoved, hsame, mul_div_right_comm, hquotient]

theorem fixedUnits_near (places m : ℕ) (e : ℤ) :
    |(fixedUnits places m e : ℝ) - m * 2 ^ e * 10 ^ places| ≤ 1 / 2 := by
  obtain ⟨num, den, hden, hquotient, hunits⟩ := fixedUnits_eq places m e
  rw [hunits, ← hquotient]
  exact abs_roundDiv_sub_le .toEven num hden

theorem le_fixedUnits {places m n : ℕ} {e : ℤ} (heven : n % 2 = 0)
    (h : n - 1 / 2 ≤ (m : ℝ) * 2 ^ e * 10 ^ places) : n ≤ fixedUnits places m e := by
  obtain ⟨num, den, hden, hquotient, hunits⟩ := fixedUnits_eq places m e
  have hpos : (0 : ℝ) < den := by exact_mod_cast hden
  rw [← hquotient, le_div_iff₀ hpos] at h
  have hcross : 2 * ((n : ℝ) * den) ≤ 2 * num + den := by linarith
  rw [hunits]
  exact le_roundDiv_toEven hden heven (by exact_mod_cast hcross)

theorem signedText_of_nonneg {x : Float} (hx : x.isFinite = true) (h0 : 0 ≤ value x)
    (hzero : value x = 0 → x = 0.0) : ∃ m e, value x = (m : ℕ) * 2 ^ (e : ℤ) ∧
      ∀ body, signedText body x = ("", body m e) := by
  rcases unpack_of_nonneg hx h0 with ⟨s, hu, hvalue⟩ | ⟨m, e, hm, hu, hvalue, -⟩
  · rw [hzero hvalue]
    exact ⟨0, 0, by rw [Nat.cast_zero, zero_mul]; rfl, fun body => rfl⟩
  · refine ⟨m, e, hvalue, fun body => ?_⟩
    simp only [signedText, hu, signedText.signText]

theorem fixed_eq {x : Float} (hx : x.isFinite = true) (hpos : 0 < value x) {places n : ℕ}
    (h : |(n : ℝ) - value x * 10 ^ places| < 1 / 2) : fixed places x = withPoint places n := by
  obtain ⟨m, e, hvalue, htext⟩ :=
    signedText_of_nonneg hx hpos.le fun hzero => absurd hzero hpos.ne'
  obtain ⟨num, den, hden, hquotient, hunits⟩ := fixedUnits_eq places m e
  rw [hvalue, ← hquotient] at h
  rw [fixed, htext, hunits, roundDiv_eq .toEven hden h]
  exact String.empty_append

theorem toList_fixedPadded {x : Float} (width : ℕ) {places m : ℕ} {e : ℤ} (hp : places ≠ 0)
    (h : ∀ body, signedText body x = ("", body m e)) :
    (fixedPadded (width + 1 + places) places x).toList =
      (padded width (fixedUnits places m e / tenTo places)).toList ++
        '.' :: (padded places (fixedUnits places m e % tenTo places)).toList := by
  have hpos : 0 < tenTo places := Nat.pow_pos (by norm_num)
  have hfraction : (padded places (fixedUnits places m e % tenTo places)).toList.length = places :=
    length_padded (Nat.pos_of_ne_zero hp) (Nat.mod_lt _ hpos)
  have hlist := toList_withPoint hp (fixedUnits places m e)
  have hlength : (withPoint places (fixedUnits places m e)).length =
      digitCount (fixedUnits places m e / tenTo places) + (places + 1) := by
    rw [← String.length_toList, hlist, List.length_append, List.length_cons, hfraction]
    rfl
  have hfill : width + 1 + places - "".length -
      (digitCount (fixedUnits places m e / tenTo places) + (places + 1)) =
        width - digitCount (fixedUnits places m e / tenTo places) := by
    rw [show "".length = 0 from rfl]
    omega
  unfold fixedPadded
  rw [h]
  dsimp only
  rw [hlength, hfill, String.empty_append, String.toList_append, String.toList_ofList, hlist,
    toList_padded width, List.append_assoc]

end GeoAlmanac.Decimal
