import GeoAlmanac.Proofs.Decimal.Fixed
import GeoAlmanac.Proofs.Decimal.Shortest

/-! The text with a fixed number of places read back. It is the text of a whole number of units of
the last place, and is read as the double nearest to that number of units. -/

namespace GeoAlmanac.Decimal
open Binary64
open Float.Model.UnpackedFloat (Sign)

theorem digitsText_withPoint {places : ℕ} (hp : places ≠ 0) (n : ℕ) :
    DigitsText (withPoint places n).toList n places := by
  have hdigits : DigitsText _ _ _ := .point (digits_toDigits (n / tenTo places))
    (digits_padded places (n % tenTo places)) (List.append_ne_nil_of_left_ne_nil Nat.toDigits_ne_nil _)
  rwa [← toList_withPoint hp, natOfDigits_withPoint hp, length_fraction hp] at hdigits

theorem fixed_finite {x : Float} (hx : x.isFinite = true) (places : ℕ) :
    ∃ (s : Sign) (m : ℕ) (e : ℤ), value x = signFactor s * |value x| ∧ |value x| = m * 2 ^ e ∧
      fixed places x = signedText.signText s ++ withPoint places (fixedUnits places m e) := by
  rcases (represents hx).cases with ⟨s, hu, hvalue⟩ | ⟨s, m, e, hm, hu, hvalue, -⟩
  · refine ⟨s, 0, 0, by simp [hvalue], by simp [hvalue], ?_⟩
    simp only [fixed, signedText, hu]
  · have habs : |value x| = m * 2 ^ e := by
      rw [hvalue, abs_signFactor_mul s (by positivity)]
    refine ⟨s, m, e, habs ▸ hvalue, habs, ?_⟩
    simp only [fixed, signedText, hu]

/-- The text of a finite double is read back, rounded to the units of its last place: by at most half
a unit, and upward from half a unit below an even number. -/
theorem read?_fixed {x : Float} (hx : x.isFinite = true) {places : ℕ} (hp : places ≠ 0) :
    ∃ (s : Sign) (n : ℕ) (y : Float), read? (fixed places x) = some y ∧
      IsNearest s (n * 10 ^ (-(places : ℤ))) y ∧ value x = signFactor s * |value x| ∧
      |(n : ℝ) - |value x| * 10 ^ places| ≤ 1 / 2 ∧
      ∀ k : ℕ, k % 2 = 0 → k - 1 / 2 ≤ |value x| * 10 ^ places → k ≤ n := by
  obtain ⟨s, m, e, hsign, habs, htext⟩ := fixed_finite hx places
  have hnearest := signed_isNearest (nearest_isNearest (fixedUnits places m e) (-(places : ℤ))) s
  refine ⟨s, fixedUnits places m e, _, ?_, hnearest, hsign, ?_, ?_⟩
  · rw [read?_eq_some_iff, htext, String.toList_append]
    refine numeral_of_digits (signText_eq s) (digitsText_withPoint hp _) ?_
    rwa [zero_sub]
  · rw [habs]
    exact fixedUnits_near places m e
  · intro k heven hk
    rw [habs] at hk
    exact le_fixedUnits heven hk

end GeoAlmanac.Decimal
