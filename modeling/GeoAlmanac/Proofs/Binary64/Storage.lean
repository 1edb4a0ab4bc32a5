import GeoAlmanac.Proofs.Binary64.Significand

/-! The bits of a double. Taking them apart yields a canonical form whose exponent fits its eleven
bits, and putting such a form together again gives the double back; a number beyond the largest
double is stored as an infinity. -/

namespace GeoAlmanac.Binary64
open Float.Model
open Float.Model.UnpackedFloat (Sign packComponents unpackSign unpackExponent unpackMantissa
  unpackMantissa_packComponents unpackExponent_packComponents unpackSign_packComponents)

/-- Whether the exponent is no more than that of the largest doubles. -/
def Fits : UnpackedFloat → Prop
  | .finite _ _ e _ => e ≤ 971
  | _ => True

/-- What is kept of an unpacked double when it is stored. -/
def saturated : UnpackedFloat → UnpackedFloat
  | .finite s m e hm => if e ≤ 971 then .finite s m e hm else .infinity s
  | u => u

theorem saturated_of_fits {u : UnpackedFloat} (h : Fits u) : saturated u = u := by
  cases u with
  | finite s m e hm => exact if_pos h
  | _ => rfl

theorem toNat_leading_append (m : BitVec 52) :
    (1#1 ++ m).toNat = 2 ^ 52 + m.toNat := by
  rw [BitVec.toNat_append, ← Nat.shiftLeft_add_eq_or_of_lt m.isLt]
  simp [Nat.shiftLeft_eq]

theorem exponentBias_eq : ((Format.binary64.exponentBias : ℕ) : ℤ) = 1023 := rfl

theorem unpack_word_canonical (b : BitVec Format.binary64.numBits) :
    Canonical (.unpack .binary64 b) ∧ Fits (.unpack .binary64 b) := by
  have hm : (unpackMantissa b).toNat < 2 ^ 52 := BitVec.isLt _
  have he : (unpackExponent b).toNat < 2 ^ 11 := BitVec.isLt _
  unfold UnpackedFloat.unpack
  dsimp only
  split_ifs with hones hnone hzero hnone
  · exact ⟨trivial, trivial⟩
  · exact ⟨trivial, trivial⟩
  · exact ⟨trivial, trivial⟩
  · simp only [Canonical, Fits, hzero, exponentBias_eq, BitVec.toNat_zero]
    omega
  · rw [← BitVec.toNat_inj] at hones hzero
    simp only [BitVec.neg_one_eq_allOnes, BitVec.toNat_allOnes, BitVec.toNat_zero] at hones hzero
    simp only [Canonical, Fits, exponentBias_eq, toNat_leading_append]
    omega

theorem unpack_canonical (f : Float.Model) : Canonical f.unpack ∧ Fits f.unpack :=
  unpack_word_canonical f.toBits.toBitVec

/-- The exponent field of a stored number. -/
def biasedExponent (m : ℕ) (e : ℤ) : ℕ :=
  if 2 ^ 52 ≤ m then (e + 1075).toNat else 0

theorem pack_finite {s : Sign} {m : ℕ} {e : ℤ} {hm : 0 < m}
    (h : Canonical (.finite s m e hm)) (he : e ≤ 971) :
    UnpackedFloat.pack .binary64 (.finite s m e hm) =
      packComponents .binary64 s (BitVec.ofNat 11 (biasedExponent m e)) (BitVec.ofNat 52 m) := by
  obtain ⟨h53, hleast, hfull⟩ := h
  have hbiased : (e + Format.binary64.exponentBias +
      Format.binary64.mantissaBitsWithoutImplicit).toNat = (e + 1075).toNat := by
    change (e + (1023 : ℕ) + (52 : ℕ)).toNat = _
    omega
  have hlog : m.log2 + 1 = Format.binary64.mantissaBits ↔ 2 ^ 52 ≤ m := by
    have hupper : m.log2 < 53 := (Nat.log2_lt hm.ne').mpr h53
    have hfull := Nat.le_log2 hm.ne' (k := 52)
    change m.log2 + 1 = 53 ↔ _
    omega
  unfold UnpackedFloat.pack biasedExponent
  dsimp only
  rw [hbiased, if_neg (show ¬2 ^ 11 ≤ (e + 1075).toNat + 1 by omega)]
  by_cases hm52 : 2 ^ 52 ≤ m
  · rw [if_pos (hlog.mpr hm52), if_pos hm52]
  · rw [if_neg (mt hlog.mp hm52), if_neg hm52]

theorem pack_overflow {s : Sign} {m : ℕ} {e : ℤ} {hm : 0 < m} (he : 971 < e) :
    UnpackedFloat.pack .binary64 (.finite s m e hm) =
      UnpackedFloat.packedInfinity .binary64 s := by
  unfold UnpackedFloat.pack
  dsimp only
  refine if_pos ?_
  change 2 ^ 11 ≤ (e + (1023 : ℕ) + (52 : ℕ)).toNat + 1
  omega

theorem unpack_pack {u : UnpackedFloat} (h : Canonical u) : (pack u).unpack = saturated u := by
  cases u with
  | infinity s => cases s <;> rfl
  | notANumber => rfl
  | zero s => cases s <;> rfl
  | finite s m e hm =>
    change UnpackedFloat.unpack .binary64 (UnpackedFloat.pack .binary64 _) = _
    by_cases he : e ≤ 971
    · rw [pack_finite h he, show saturated (.finite s m e hm) = _ from if_pos he]
      obtain ⟨h53, hleast, hfull⟩ := h
      unfold UnpackedFloat.unpack
      dsimp only
      simp only [unpackMantissa_packComponents, unpackExponent_packComponents,
        unpackSign_packComponents, Sign.ofBitVec_toBitVec]
      have hlast : biasedExponent m e < 2047 := by
        unfold biasedExponent
        split_ifs <;> omega
      have hbiased : (BitVec.ofNat 11 (biasedExponent m e)).toNat = biasedExponent m e := by
        rw [BitVec.toNat_ofNat]
        omega
      rw [if_neg (by rw [← BitVec.toNat_inj, hbiased]; exact hlast.ne)]
      by_cases hm52 : 2 ^ 52 ≤ m
      · have hfield : biasedExponent m e = (e + 1075).toNat := if_pos hm52
        rw [if_neg (by rw [← BitVec.toNat_inj, hbiased, hfield, BitVec.toNat_zero]; omega),
          UnpackedFloat.finite.injEq]
        refine ⟨rfl, ?_, ?_⟩
        · rw [toNat_leading_append, BitVec.toNat_ofNat]
          omega
        · rw [hbiased, hfield, exponentBias_eq]
          omega
      · have hfield : biasedExponent m e = 0 := if_neg hm52
        have hmantissa : (BitVec.ofNat 52 m).toNat = m := by
          rw [BitVec.toNat_ofNat]
          omega
        have hnonzero : BitVec.ofNat 52 m ≠ 0#52 := by
          rw [ne_eq, ← BitVec.toNat_inj, hmantissa]
          exact hm.ne'
        rw [if_pos (by rw [hfield]), dif_neg hnonzero, UnpackedFloat.finite.injEq]
        refine ⟨rfl, hmantissa, ?_⟩
        rw [hbiased, hfield, exponentBias_eq]
        omega
    · rw [pack_overflow (by omega)]
      exact ((by cases s <;> rfl : _ = UnpackedFloat.infinity s)).trans (if_neg he).symm

end GeoAlmanac.Binary64
