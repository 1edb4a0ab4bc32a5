import GeoAlmanac.Proofs.Sexagesimal.Parts
import GeoAlmanac.Proofs.Decimal.Fixed

/-! The text of an angle read back. It says the angle to half a hundredth of a second, with fewer
than sixty minutes; but the seconds are rounded after the parts were made, so that close below a
minute sixty of them are written and not carried. -/

namespace GeoAlmanac
open Binary64 Decimal

namespace Binary64

theorem sub_self_eq_zero {x : Float} (hx : x.isFinite = true) : x - x = 0.0 := by
  have hrounds := sub_rounds hx hx
  rw [sub_self] at hrounds
  rcases hrounds.isZero with h | h
  · exact h
  · rcases sub_swap hx hx with hneg | ⟨hzero, -⟩
    · rw [h] at hneg
      exact absurd hneg (by decide)
    · exact hzero

end Binary64

namespace Sexagesimal

theorem sixtieths_eq_zero {x : Float} (hx : x.isFinite = true) (h0 : 0 ≤ value x)
    (hzero : value x = 0 → x = 0.0) (h : value (sixtieths x) = 0) : sixtieths x = 0.0 := by
  by_cases hx0 : value x = 0
  · rw [hzero hx0]
    rfl
  obtain ⟨hrest, hfract⟩ := sub_floorOf_value hx h0
  have hgrid : rounded (Int.fract (value x)) = Int.fract (value x) := hfract ▸ rounded_value hrest
  have hsixtieths : sixtieths x = (x - floorOf x) * 60.0 := by
    rw [sixtieths, show trunc x = floorOf x from truncate_eq_floorOf hx h0]
  have hnone : Int.fract (value x) = 0 := by
    have hnonneg := Int.fract_nonneg (value x)
    have hle := rounded_mono (show Int.fract (value x) ≤ Int.fract (value x) * 60 by linarith)
    rw [← (sixty_fract_value hx h0).2.1, ← hsixtieths, h, hgrid] at hle
    exact le_antisymm hle hnonneg
  obtain ⟨hwhole, hfloor⟩ := floorOf_value hx h0
  have hsame : value x = value (floorOf x) := by
    rw [hfloor]
    exact sub_eq_zero.mp hnone
  rw [hsixtieths, ← eq_of_value_eq hx hwhole hsame hx0, sub_self_eq_zero hx]
  rfl

theorem seconds_eq_zero {x : Float} (hx : x.isFinite = true)
    (h : value (ofDegrees x).seconds = 0) : (ofDegrees x).seconds = 0.0 := by
  obtain ⟨hfirst, -⟩ := sixtieths_abs hx
  obtain ⟨habs, hmagnitude⟩ := isFinite_abs hx
  have hzero (h : value (abs x) = 0) : abs x = 0.0 := by
    rcases isZero_of_value hx (abs_eq_zero.mp (hmagnitude ▸ h)) with rfl | rfl <;> rfl
  rw [seconds_ofDegrees hx] at h ⊢
  exact sixtieths_eq_zero hfirst.finite hfirst.nonneg
    (sixtieths_eq_zero habs (hmagnitude ▸ abs_nonneg _) hzero) h

/-- What the text of an angle says. -/
structure Reading where
  negative : Bool
  degrees : ℕ
  minutes : ℕ
  hundredths : ℕ
  deriving DecidableEq

/-- The angle in degrees. -/
def Reading.angle (r : Reading) : ℚ :=
  let magnitude : ℚ := r.degrees + r.minutes / 60 + r.hundredths / 360000
  if r.negative then -magnitude else magnitude

/-- Degrees, then two digits of minutes and two of seconds with two more behind a point. -/
def unsigned? (negative : Bool) (cs : List Char) : Option Reading :=
  match cs.span Char.isDigit with
  | (degrees, ['°', m₁, m₂, '\'', s₁, s₂, '.', s₃, s₄, '"']) =>
    if degrees ≠ [] ∧ [m₁, m₂, s₁, s₂, s₃, s₄].all Char.isDigit then
      some ⟨negative, natOfDigits degrees, natOfDigits [m₁, m₂], natOfDigits [s₁, s₂, s₃, s₄]⟩
    else none
  | _ => none

/-- Reads an angle after an optional minus sign. -/
def read? : List Char → Option Reading
  | '-' :: cs => unsigned? true cs
  | cs => unsigned? false cs

theorem natOfDigits_hundredths {ds es : List Char} (h : es.length = 2) :
    natOfDigits (ds ++ es) = 100 * natOfDigits ds + natOfDigits es := by
  rw [natOfDigits_eq, Nat.ofDigitChars_append, Nat.ofDigitChars_eq_ofDigitChars_zero, h]
  rfl

theorem unsigned?_parts (negative : Bool) (degrees : ℕ) {minutes whole part : ℕ}
    (hm : minutes < 100) (hwhole : whole < 100) (hpart : part < 100) :
    unsigned? negative (Nat.toDigits 10 degrees ++ '°' :: ((padded 2 minutes).toList ++
      '\'' :: ((padded 2 whole).toList ++ '.' :: ((padded 2 part).toList ++ ['"'])))) =
      some ⟨negative, degrees, minutes, 100 * whole + part⟩ := by
  have hminutesValue := natOfDigits_padded 2 minutes
  have hvalue : natOfDigits ((padded 2 whole).toList ++ (padded 2 part).toList) =
      100 * whole + part := by
    rw [natOfDigits_hundredths (length_padded (by norm_num) hpart), natOfDigits_padded,
      natOfDigits_padded]
  have hdigits := List.forall_mem_append.mpr ⟨digits_padded 2 minutes,
    List.forall_mem_append.mpr ⟨digits_padded 2 whole, digits_padded 2 part⟩⟩
  obtain ⟨m₁, m₂, hm'⟩ := padded_two hm
  obtain ⟨s₁, s₂, hs⟩ := padded_two hwhole
  obtain ⟨s₃, s₄, hp⟩ := padded_two hpart
  rw [hm'] at hminutesValue
  rw [hs, hp] at hvalue
  rw [hm', hs, hp] at hdigits
  rw [hm', hs, hp, unsigned?, span_digits (digits_toDigits degrees) '°' (by decide)]
  change (if _ then _ else _) = _
  rw [if_pos ⟨Nat.toDigits_ne_nil, List.all_eq_true.mpr hdigits⟩, natOfDigits_eq,
    Nat.ofDigitChars_ten_toDigits, hminutesValue]
  exact congrArg (fun n => some (Reading.mk negative degrees minutes n)) hvalue

theorem not_minus_of_isDigit {c : Char} (hc : c.isDigit = true) : c ≠ '-' := by
  rintro rfl
  exact absurd hc (by decide)

theorem read?_digits {ds : List Char} (hds : AllDigits ds) (hne : ds ≠ []) (rest : List Char) :
    read? (ds ++ rest) = unsigned? false (ds ++ rest) := by
  obtain ⟨c, cs, rfl⟩ := List.exists_cons_of_ne_nil hne
  have hminus := not_minus_of_isDigit (hds c List.mem_cons_self)
  unfold read?
  split
  next heq => exact absurd (List.cons.inj heq).1 hminus
  next => rfl

theorem toList_seconds {s : Float} (hs : s.isFinite = true) (h0 : 0 ≤ value s)
    (h60 : value s < 60) (hzero : value s = 0 → s = 0.0) :
    ∃ units : ℕ, |units - 100 * value s| ≤ 1 / 2 ∧ units ≤ 6000 ∧
      (units < 6000 ↔ value s < 59.995) ∧
      (fixedPadded 5 2 s).toList =
        (padded 2 (units / 100)).toList ++ '.' :: (padded 2 (units % 100)).toList := by
  obtain ⟨m, e, hvalue, htext⟩ := signedText_of_nonneg hs h0 hzero
  have hscaled : (m : ℝ) * 2 ^ e * 10 ^ 2 = 100 * value s := by
    rw [hvalue]
    ring
  have hnear := fixedUnits_near 2 m e
  rw [hscaled] at hnear
  obtain ⟨hlower, hupper⟩ := abs_le.mp hnear
  refine ⟨fixedUnits 2 m e, hnear, ?_, ⟨fun hlt => ?_, fun hlt => ?_⟩,
    toList_fixedPadded 2 (by decide) htext⟩
  · have : (fixedUnits 2 m e : ℝ) < (6000 + 1 : ℕ) := by
      push_cast
      linarith
    exact Nat.lt_succ_iff.mp (by exact_mod_cast this)
  · by_contra hge
    refine hlt.not_ge (le_fixedUnits (by decide) ?_)
    rw [hscaled]
    push_cast
    linarith
  · have : (fixedUnits 2 m e : ℝ) < (6000 : ℕ) := by
      push_cast
      linarith
    exact_mod_cast this

theorem toList_text (a : Sexagesimal Float) : (text a).toList =
    (if a.negative then ['-'] else []) ++ (Nat.toDigits 10 a.degrees.toNat ++
      '°' :: ((padded 2 a.minutes.toNat).toList ++
        '\'' :: ((fixedPadded 5 2 a.seconds).toList ++ ['"']))) := by
  unfold text
  simp only [String.toList_append, toList_toString, List.append_assoc]
  split_ifs <;> rfl

theorem read?_text {a : Sexagesimal Float} {units : ℕ} (hm : a.minutes < 60)
    (hunits : units ≤ 6000) (hseconds : (fixedPadded 5 2 a.seconds).toList =
      (padded 2 (units / 100)).toList ++ '.' :: (padded 2 (units % 100)).toList) :
    read? (text a).toList = some ⟨a.negative, a.degrees.toNat, a.minutes.toNat, units⟩ := by
  have hparts := unsigned?_parts a.negative a.degrees.toNat
    ((UInt32.lt_iff_toNat_lt.mp hm).trans (by decide : _ < 100))
    (show units / 100 < 100 by omega) (Nat.mod_lt units (by decide))
  rw [Nat.div_add_mod] at hparts
  rw [toList_text, hseconds, List.append_assoc, List.cons_append, ← hparts]
  cases a.negative with
  | true => rfl
  | false => exact read?_digits (digits_toDigits _) Nat.toDigits_ne_nil _

example : read? "-0°05'59.99\"".toList = some ⟨true, 0, 5, 5999⟩ := by decide +kernel

theorem Reading.angle_near {x : Float} (hx : x.isFinite = true) (h : |value x| < 2 ^ 32)
    {units : ℕ} (hunits : |units - 100 * value (ofDegrees x).seconds| ≤ 1 / 2) :
    |((⟨(ofDegrees x).negative, (ofDegrees x).degrees.toNat, (ofDegrees x).minutes.toNat, units⟩ :
      Reading).angle - value x : ℝ)| ≤ 0.0051 / 3600 := by
  obtain ⟨hlower, hupper⟩ := abs_le.mp (parts_near hx h)
  obtain ⟨hlower', hupper'⟩ := abs_le.mp hunits
  have hsmall : (61 : ℝ) * 2 ^ (-48 : ℤ) ≤ 1 / 10000 := by norm_num
  generalize (61 : ℝ) * 2 ^ (-48 : ℤ) = unit at *
  unfold Reading.angle
  dsimp only
  split_ifs with hneg
  · rw [abs_of_neg ((negative_ofDegrees hx).mp hneg)] at hlower hupper
    push_cast
    rw [abs_le]
    constructor <;> linarith
  · rw [negative_ofDegrees hx, not_lt] at hneg
    rw [abs_of_nonneg hneg] at hlower hupper
    push_cast
    rw [abs_le]
    constructor <;> linarith

/-- What the text of an angle has to say: fewer than sixty minutes and seconds, and the angle to
about half a hundredth of a second. -/
structure Reading.Proper (r : Reading) (x : Float) : Prop where
  sign : r.negative = true ↔ x < 0.0
  minutes : r.minutes < 60
  seconds : r.hundredths < 6000
  near : |(r.angle - value x : ℝ)| ≤ 0.0051 / 3600

/-- The text of the parts of a double is read back, close to it, and proper exactly if the seconds
are not rounded up to sixty. -/
theorem text_proper_iff {x : Float} (hx : Bounded 180.0 x) : ∃ r,
    read? (text (ofDegrees x)).toList = some r ∧
      |(r.angle - value x : ℝ)| ≤ 0.0051 / 3600 ∧ r.minutes < 60 ∧ r.hundredths ≤ 6000 ∧
      (r.Proper x ↔ value (ofDegrees x).seconds < 59.995) := by
  have hfinite := hx.isFinite
  have hsmall : |value x| < 2 ^ 32 := (value_half_turn ▸ hx.abs_value_le).trans_lt (by norm_num)
  have hminutes := (minutes_ofDegrees hfinite).2
  obtain ⟨hseconds, h0, h60⟩ := seconds_range hfinite
  obtain ⟨units, hunits, hle, hcarry, htext⟩ :=
    toList_seconds hseconds h0 h60 (seconds_eq_zero hfinite)
  have hnear := Reading.angle_near hfinite hsmall hunits
  have hm : (ofDegrees x).minutes.toNat < 60 := UInt32.lt_iff_toNat_lt.mp hminutes
  have hsign : (ofDegrees x).negative = true ↔ x < 0.0 :=
    (negative_ofDegrees hfinite).trans (lt_iff_value hfinite (y := 0.0) rfl).symm
  exact ⟨_, read?_text hminutes hle htext, hnear, hm, hle,
    ⟨fun h => hcarry.mp h.seconds, fun h => ⟨hsign, hm, hcarry.mpr h, hnear⟩⟩⟩

/-- A tenth of a millionth below one degree sixty seconds are written. -/
theorem text_proper_iff_below_degree : ∃ r,
    read? (text (ofDegrees 0.9999999)).toList = some r ∧
      |(r.angle - value 0.9999999 : ℝ)| ≤ 0.0051 / 3600 ∧ r.minutes < 60 ∧
      r.hundredths ≤ 6000 ∧
      (r.Proper 0.9999999 ↔ value (ofDegrees 0.9999999).seconds < 59.995) :=
  text_proper_iff ⟨rfl, rfl, by decide +kernel, by decide +kernel⟩

/-- Just below one degree no proper text is written. -/
theorem text_not_carried : text (ofDegrees 0.9999999) = "0°59'60.00\"" ∧
    ¬∃ r, read? (text (ofDegrees 0.9999999)).toList = some r ∧ r.Proper 0.9999999 := by
  have hread : read? (text (ofDegrees 0.9999999)).toList = some ⟨false, 0, 59, 6000⟩ := by
    decide +kernel
  refine ⟨by decide +kernel, fun ⟨r, hr, hproper⟩ => ?_⟩
  rw [hread] at hr
  obtain rfl := Option.some.inj hr
  exact absurd hproper.seconds (by decide)

end Sexagesimal
end GeoAlmanac
