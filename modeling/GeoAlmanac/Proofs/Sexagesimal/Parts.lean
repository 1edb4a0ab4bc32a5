import GeoAlmanac.Proofs.Reals.Numbers
import GeoAlmanac.Proofs.Binary64.Signs
import GeoAlmanac.Proofs.Binary64.WholeParts
import GeoAlmanac.Sexagesimal

/-! The sexagesimal parts of a double. No rounding brings a part up to sixty, so nothing is ever
carried, and the parts say the angle up to the rounding of two products. -/

namespace GeoAlmanac.Sexagesimal
open Binary64

section
variable {α : Type} [Arithmetic α]

/-- Sixty times what is left by the whole part. -/
def sixtieths (x : α) : α :=
  (x - trunc x) * 60.0

/-- The parts that truncation leaves, with nothing carried. -/
def truncated (angle : α) : Sexagesimal α where
  negative := Arithmetic.isNegative angle && decide (0.0 < abs angle)
  degrees := Arithmetic.toUInt32 (trunc (abs angle))
  minutes := Arithmetic.toUInt32 (trunc (sixtieths (abs angle)))
  seconds := sixtieths (sixtieths (abs angle))

theorem ofDegrees_eq_truncated {angle : α} (hseconds : ¬60.0 ≤ sixtieths (sixtieths (abs angle)))
    (hminutes : ¬60.0 ≤ trunc (sixtieths (abs angle))) : ofDegrees angle = truncated angle := by
  change ¬60.0 ≤ (sixtieths (abs angle) - trunc (sixtieths (abs angle))) * 60.0 at hseconds
  unfold sixtieths at hseconds hminutes
  unfold ofDegrees
  simp only [if_neg hseconds, if_neg hminutes]
  rfl

/-- The degrees with the sign of the whole angle. -/
def signedDegrees (a : Sexagesimal α) : α :=
  if a.negative then -count a.degrees else count a.degrees

end

/-- What one step of the division leaves of a double that is not negative. -/
structure Sixtieths (x : Float) : Prop where
  whole : (trunc x).isFinite = true ∧ value (trunc x) = ⌊value x⌋
  finite : (sixtieths x).isFinite = true
  nonneg : 0 ≤ value (sixtieths x)
  lt : value (sixtieths x) < 60
  near : |value (sixtieths x) - 60 * Int.fract (value x)| ≤ 2 ^ (-48 : ℤ)

theorem sixtieths_of_nonneg {x : Float} (hx : x.isFinite = true) (h0 : 0 ≤ value x) :
    Sixtieths x := by
  have htrunc : trunc x = floorOf x := truncate_eq_floorOf hx h0
  have hfract := Int.fract_nonneg (value x)
  have hone := Int.fract_lt_one (value x)
  obtain ⟨hfinite, hvalue, h60⟩ := sixty_fract_value hx h0
  have hsixtieths : sixtieths x = (x - floorOf x) * 60.0 := by rw [sixtieths, htrunc]
  rw [← hsixtieths] at hfinite hvalue
  have hsmall : |Int.fract (value x) * 60| < 2 ^ (6 : ℤ) := by
    rw [abs_of_nonneg (by positivity)]
    norm_num
    linarith
  refine ⟨htrunc ▸ floorOf_value hx h0, hfinite, ?_, hvalue ▸ h60, ?_⟩
  · rw [hvalue]
    exact rounded_nonneg (by positivity)
  · rw [hvalue, mul_comm (60 : ℝ)]
    exact abs_rounded_sub_le_of_lt (by norm_num) hsmall

theorem Sixtieths.not_sixty {x : Float} (h : Sixtieths x) : ¬60.0 ≤ sixtieths x := by
  rw [le_iff_value rfl h.finite, value_sixty]
  exact h.lt.not_ge

theorem value_count (n : UInt32) :
    (count n : Float).isFinite = true ∧ value (count n) = n.toNat :=
  ofInt_natCast (n.toNat_lt.trans (by norm_num))

section
variable {x : Float} (hx : x.isFinite = true)
include hx

/-- The degrees are divided, and then the minutes. -/
theorem sixtieths_abs : Sixtieths (abs x) ∧ Sixtieths (sixtieths (abs x)) := by
  obtain ⟨habs, hvalue⟩ := isFinite_abs hx
  have hfirst : Sixtieths (abs x) := sixtieths_of_nonneg habs (hvalue ▸ abs_nonneg _)
  exact ⟨hfirst, sixtieths_of_nonneg hfirst.finite hfirst.nonneg⟩

theorem no_carry :
    ¬60.0 ≤ sixtieths (sixtieths (abs x)) ∧ ¬60.0 ≤ trunc (sixtieths (abs x)) := by
  obtain ⟨hfirst, hsecond⟩ := sixtieths_abs hx
  refine ⟨hsecond.not_sixty, ?_⟩
  rw [le_iff_value rfl hsecond.whole.1, hsecond.whole.2, value_sixty, not_le]
  exact (Int.floor_le _).trans_lt hfirst.lt

theorem ofDegrees_float : ofDegrees x = truncated x :=
  ofDegrees_eq_truncated (no_carry hx).1 (no_carry hx).2

theorem minutes_ofDegrees : ((ofDegrees x).minutes.toNat : ℤ) = ⌊value (sixtieths (abs x))⌋ ∧
    (ofDegrees x).minutes < 60 := by
  obtain ⟨hfirst, hsecond⟩ := sixtieths_abs hx
  have hle := Int.floor_le (value (sixtieths (abs x)))
  have hnonneg : 0 ≤ value (trunc (sixtieths (abs x))) := by
    rw [hsecond.whole.2]
    exact_mod_cast Int.floor_nonneg.mpr hfirst.nonneg
  have hcount := toNat_toUInt32_float hsecond.whole.1 hnonneg
    (by rw [hsecond.whole.2]; linarith [hfirst.lt])
  rw [hsecond.whole.2, Int.floor_intCast] at hcount
  have hminutes : (ofDegrees x).minutes = (trunc (sixtieths (abs x))).toUInt32 := by
    rw [ofDegrees_float hx]
    rfl
  have h60 : ⌊value (sixtieths (abs x))⌋ < 60 := Int.floor_lt.mpr (by exact_mod_cast hfirst.lt)
  rw [hminutes]
  refine ⟨hcount, UInt32.lt_iff_toNat_lt.mpr ?_⟩
  change _ < 60
  omega

theorem degrees_ofDegrees (h : |value x| < 2 ^ 32) :
    ((ofDegrees x).degrees.toNat : ℤ) = ⌊|value x|⌋ := by
  obtain ⟨hfirst, -⟩ := sixtieths_abs hx
  obtain ⟨hwhole, hvalue⟩ := hfirst.whole
  have habs : value (abs x) = |value x| := (isFinite_abs hx).2
  rw [habs] at hvalue
  have hle := Int.floor_le |value x|
  have hcount := toNat_toUInt32_float hwhole
    (by rw [hvalue]; exact_mod_cast Int.floor_nonneg.mpr (abs_nonneg _))
    (by rw [hvalue]; linarith)
  rw [hvalue, Int.floor_intCast] at hcount
  rw [ofDegrees_float hx]
  exact hcount

theorem seconds_ofDegrees : (ofDegrees x).seconds = sixtieths (sixtieths (abs x)) := by
  rw [ofDegrees_float hx]
  rfl

theorem seconds_range : (ofDegrees x).seconds.isFinite = true ∧
    0 ≤ value (ofDegrees x).seconds ∧ value (ofDegrees x).seconds < 60 := by
  obtain ⟨-, hsecond⟩ := sixtieths_abs hx
  rw [seconds_ofDegrees hx]
  exact ⟨hsecond.finite, hsecond.nonneg, hsecond.lt⟩

theorem parts_near (h : |value x| < 2 ^ 32) :
    |3600 * ((ofDegrees x).degrees.toNat : ℝ) + 60 * (ofDegrees x).minutes.toNat +
      value (ofDegrees x).seconds - 3600 * (|value x|)| ≤ 61 * 2 ^ (-48 : ℤ) := by
  obtain ⟨hfirst, hsecond⟩ := sixtieths_abs hx
  have hdegrees : ((ofDegrees x).degrees.toNat : ℝ) = ⌊|value x|⌋ := by
    exact_mod_cast degrees_ofDegrees hx h
  have hminutes : ((ofDegrees x).minutes.toNat : ℝ) = ⌊value (sixtieths (abs x))⌋ := by
    exact_mod_cast (minutes_ofDegrees hx).1
  have hsplit := Int.floor_add_fract |value x|
  have hsplit' := Int.floor_add_fract (value (sixtieths (abs x)))
  have hnear := abs_le.mp hfirst.near
  have hnear' := abs_le.mp hsecond.near
  rw [show value (abs x) = |value x| from (isFinite_abs hx).2] at hnear
  rw [hdegrees, hminutes, seconds_ofDegrees hx, abs_le]
  constructor <;> linarith

theorem negative_ofDegrees : (ofDegrees x).negative = true ↔ value x < 0 := by
  have hnegative : (truncated x).negative = decide (x < 0.0) := signBit_and_abs_pos x
  rw [ofDegrees_float hx, hnegative, decide_eq_true_iff]
  exact lt_iff_value hx rfl

end

theorem magnitude_near {d m : UInt32} {s : Float} (hd : d.toNat ≤ 360) (hm : m.toNat < 60)
    (hs : s.isFinite = true) (h0 : 0 ≤ value s) (h60 : value s < 60) :
    (count d + count m / 60.0 + s / 3600.0).isFinite = true ∧
      |value (count d + count m / 60.0 + s / 3600.0) -
        (d.toNat + m.toNat / 60 + value s / 3600)| ≤ 2 ^ (-43 : ℤ) := by
  have hhour : value 3600.0 = 3600 := (ofInt_natCast (n := 3600) (by decide)).2
  obtain ⟨hdegrees, hdvalue⟩ := value_count d
  obtain ⟨hminutes, hmvalue⟩ := value_count m
  have hd : (d.toNat : ℝ) ≤ 360 := by exact_mod_cast hd
  have hm : (m.toNat : ℝ) ≤ 59 := by exact_mod_cast Nat.le_of_lt_succ hm
  have hquotient := div_rounds hminutes (y := 60.0) rfl (by rw [value_sixty]; norm_num)
  have hquotient' := div_rounds hs (y := 3600.0) rfl (by rw [hhour]; norm_num)
  rw [hmvalue, value_sixty] at hquotient
  rw [hhour] at hquotient'
  obtain ⟨hfinite, hnear⟩ := hquotient.near (n := 0) (by norm_num) (by norm_num)
    (by rw [abs_of_nonneg (by positivity), zpow_zero]; linarith)
  obtain ⟨hfinite', hnear'⟩ := hquotient'.near (n := 0) (by norm_num) (by norm_num)
    (by rw [abs_of_nonneg (by positivity), zpow_zero]; linarith)
  generalize count m / (60.0 : Float) = inMinutes at *
  generalize s / (3600.0 : Float) = inSeconds at *
  obtain ⟨hlower, hupper⟩ := abs_le.mp hnear
  obtain ⟨hlower', hupper'⟩ := abs_le.mp hnear'
  have hunit : (2 : ℝ) ^ (0 - 54 : ℤ) < 1 := by norm_num
  have hm0 : (0 : ℝ) ≤ m.toNat := Nat.cast_nonneg _
  have hd0 : (0 : ℝ) ≤ d.toNat := Nat.cast_nonneg _
  obtain ⟨hsum, hsumNear⟩ := (add_rounds hdegrees hfinite).near (n := 9) (by norm_num)
    (by norm_num) (by rw [hdvalue, abs_lt]; norm_num; constructor <;> linarith)
  rw [hdvalue] at hsumNear
  obtain ⟨hsumLower, hsumUpper⟩ := abs_le.mp hsumNear
  have hunit' : (2 : ℝ) ^ (9 - 54 : ℤ) < 1 := by norm_num
  obtain ⟨htotal, htotalNear⟩ := (add_rounds hsum hfinite').near (n := 9) (by norm_num)
    (by norm_num) (by rw [abs_lt]; norm_num; constructor <;> linarith)
  obtain ⟨htotalLower, htotalUpper⟩ := abs_le.mp htotalNear
  have herror : 2 * (2 : ℝ) ^ (0 - 54 : ℤ) + 2 * 2 ^ (9 - 54 : ℤ) ≤ 2 ^ (-43 : ℤ) := by norm_num
  generalize (2 : ℝ) ^ (0 - 54 : ℤ) = unit, (2 : ℝ) ^ (9 - 54 : ℤ) = unit',
    (2 : ℝ) ^ (-43 : ℤ) = bound at *
  refine ⟨htotal, abs_le.mpr ?_⟩
  constructor <;> linarith

theorem toDegrees_ofDegrees_near {x : Float} (hx : Bounded 360.0 x) :
    (toDegrees (ofDegrees x)).isFinite = true ∧
      |value (toDegrees (ofDegrees x)) - value x| ≤ 1e-12 := by
  have hfinite := hx.isFinite
  have hle : |value x| ≤ 360 := value_turn ▸ hx.abs_value_le
  have hsmall : |value x| < 2 ^ 32 := hle.trans_lt (by norm_num)
  have hdegrees : (ofDegrees x).degrees.toNat ≤ 360 := by
    have hfloor : ⌊|value x|⌋ ≤ 360 := Int.floor_le_iff.mpr (by push_cast; linarith)
    have := degrees_ofDegrees hfinite hsmall
    omega
  obtain ⟨hseconds, hs0, hs60⟩ := seconds_range hfinite
  obtain ⟨hmagnitude, hnear⟩ := magnitude_near hdegrees
    (UInt32.lt_iff_toNat_lt.mp (minutes_ofDegrees hfinite).2) hseconds hs0 hs60
  obtain ⟨hpartsLower, hpartsUpper⟩ := abs_le.mp (parts_near hfinite hsmall)
  obtain ⟨hlower, hupper⟩ := abs_le.mp hnear
  have herror : (2 : ℝ) ^ (-43 : ℤ) + 61 * 2 ^ (-48 : ℤ) / 3600 ≤ 1e-12 := by norm_num
  unfold toDegrees
  dsimp only
  generalize count (ofDegrees x).degrees + count (ofDegrees x).minutes / (60.0 : Float) +
    (ofDegrees x).seconds / 3600.0 = magnitude, (2 : ℝ) ^ (-43 : ℤ) = unit,
    (2 : ℝ) ^ (-48 : ℤ) = unit' at *
  split_ifs with hneg
  · have hx0 := (negative_ofDegrees hfinite).mp hneg
    obtain ⟨hfinite', hvalue'⟩ := isFinite_neg hmagnitude
    rw [abs_of_neg hx0] at hpartsLower hpartsUpper
    refine ⟨hfinite', ?_⟩
    rw [hvalue', abs_le]
    constructor <;> linarith
  · rw [negative_ofDegrees hfinite, not_lt] at hneg
    rw [abs_of_nonneg hneg] at hpartsLower hpartsUpper
    refine ⟨hmagnitude, abs_le.mpr ?_⟩
    constructor <;> linarith

/-- The magnitude of a count with either sign is the count, and its sign bit is the sign, also where
nothing is counted. -/
theorem abs_signed_count (n : UInt32) (negative : Bool) :
    let x : Float := if negative then -count n else count n
    abs x = count n ∧ signBit x = negative := by
  intro x
  obtain ⟨hfinite, hvalue⟩ := value_count n
  rcases eq_or_ne n 0 with rfl | hn
  · cases negative <;> decide +kernel
  · have hpos : 0 < value (count n : Float) := by
      rw [hvalue]
      exact_mod_cast Nat.pos_of_ne_zero fun h => hn (UInt32.toNat_inj.mp h)
    have hx : x.isFinite = true ∧
        value x = if negative then -value (count n : Float) else value (count n : Float) := by
      cases negative
      · exact ⟨hfinite, rfl⟩
      · exact isFinite_neg hfinite
    obtain ⟨habs, hmagnitude⟩ := isFinite_abs hx.1
    have hsame : value x.abs = value (count n : Float) := by
      rw [hmagnitude, hx.2]
      cases negative
      · exact abs_of_pos hpos
      · exact (abs_neg _).trans (abs_of_pos hpos)
    refine ⟨eq_of_value_eq habs hfinite hsame (hsame ▸ hpos.ne'), ?_⟩
    have hne : value x ≠ 0 := abs_pos.mp (hmagnitude ▸ hsame ▸ hpos)
    rw [Bool.eq_iff_iff, signBit_of_value_ne_zero hx.1 hne, hx.2]
    cases negative
    · simp [hpos.le]
    · simp [hpos]

/-- Three numbers are put together to the same double as the parts that they are, with the sign on
the degrees. -/
theorem combine_signedDegrees (a : Sexagesimal Float) :
    combine a.signedDegrees (count a.minutes) a.seconds = toDegrees a := by
  obtain ⟨habs, hsign⟩ := abs_signed_count a.degrees a.negative
  unfold combine toDegrees signedDegrees
  dsimp only
  rw [habs, show Arithmetic.isNegative
    (if a.negative then -count a.degrees else count a.degrees : Float) = a.negative from hsign]

/-- What the parts of a double are. Neither carry is ever reached. -/
structure NormalParts (x : Float) : Prop where
  no_carry : ¬60.0 ≤ sixtieths (sixtieths (abs x)) ∧ ¬60.0 ≤ trunc (sixtieths (abs x))
  truncated : ofDegrees x = truncated x
  minutes : (ofDegrees x).minutes < 60
  seconds : 0.0 ≤ (ofDegrees x).seconds ∧ (ofDegrees x).seconds < 60.0

theorem normalParts_of_isFinite {x : Float} (hx : x.isFinite = true) : NormalParts x := by
  obtain ⟨hfinite, hnonneg, hlt⟩ := seconds_range hx
  refine ⟨no_carry hx, ofDegrees_float hx, (minutes_ofDegrees hx).2, ?_, ?_⟩
  · rw [le_iff_value rfl hfinite]
    exact hnonneg
  · rw [lt_iff_value hfinite rfl, value_sixty]
    exact hlt

end GeoAlmanac.Sexagesimal
