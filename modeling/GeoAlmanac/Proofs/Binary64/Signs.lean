import GeoAlmanac.Proofs.Binary64.Value

/-! Signs, bit for bit: how an opposite operand shows in the result of an operation, the sign of a
zero included. -/

namespace GeoAlmanac.Binary64
open Float.Model
open Float.Model.UnpackedFloat (Sign decreaseExponent roundWithAccuracy unpackSign)

theorem sign_mul_comm : ∀ s t : Sign, s * t = t * s
  | .negative, .negative | .negative, .positive | .positive, .negative | .positive, .positive => rfl

theorem sign_neg_neg : ∀ s : Sign, - -s = s
  | .negative | .positive => rfl

theorem sign_neg_eq_negative : ∀ s : Sign, -s = .negative ↔ ¬s = .negative
  | .negative => ⟨fun h => (nomatch h), fun h => absurd rfl h⟩
  | .positive => ⟨fun _ h => (nomatch h), fun _ => rfl⟩

theorem sign_mul_neg : ∀ s t : Sign, s * -t = -(s * t)
  | .negative, .negative | .negative, .positive | .positive, .negative | .positive, .positive => rfl

theorem sign_neg_mul_neg : ∀ s t : Sign, -s * -t = s * t
  | .negative, .negative | .negative, .positive | .positive, .negative | .positive, .positive => rfl

protected theorem mul_comm (x y : Float) : x * y = y * x := by
  have hunpacked (u v : UnpackedFloat) :
      UnpackedFloat.mul Format.binary64 u v = UnpackedFloat.mul Format.binary64 v u := by
    cases u <;> cases v <;>
      simp only [UnpackedFloat.mul, sign_mul_comm, Nat.mul_comm, Int.add_comm]
  exact congrArg (fun u => Float.ofModel (pack u)) (hunpacked _ _)

theorem unpack_neg (x : Float) : (-x).toModel.unpack = x.toModel.unpack.neg := by
  obtain ⟨hcanonical, hfits⟩ := unpack_canonical x.toModel
  change (pack x.toModel.unpack.neg).unpack = _
  generalize x.toModel.unpack = u at *
  have hneg : Canonical u.neg ∧ Fits u.neg := by
    cases u <;> exact ⟨hcanonical, hfits⟩
  rw [unpack_pack hneg.1, saturated_of_fits hneg.2]

theorem unpack_abs (x : Float) : x.abs.toModel.unpack = x.toModel.unpack.abs := by
  obtain ⟨hcanonical, hfits⟩ := unpack_canonical x.toModel
  change (pack x.toModel.unpack.abs).unpack = _
  generalize x.toModel.unpack = u at *
  have habs : Canonical u.abs ∧ Fits u.abs := by
    cases u <;> exact ⟨hcanonical, hfits⟩
  rw [unpack_pack habs.1, saturated_of_fits habs.2]

protected theorem neg_neg (x : Float) : - -x = x := by
  apply eq_of_unpack_eq
  rw [unpack_neg, unpack_neg]
  cases x.toModel.unpack <;> simp only [UnpackedFloat.neg, sign_neg_neg]

protected theorem neg_mul_neg (x y : Float) : -x * -y = x * y := by
  have hunpacked (u v : UnpackedFloat) :
      UnpackedFloat.mul Format.binary64 u.neg v.neg = UnpackedFloat.mul Format.binary64 u v := by
    cases u <;> cases v <;> simp only [UnpackedFloat.mul, UnpackedFloat.neg, sign_neg_mul_neg]
  change Float.ofModel (pack (UnpackedFloat.mul _ (-x).toModel.unpack (-y).toModel.unpack)) = _
  rw [unpack_neg, unpack_neg, hunpacked]
  rfl

theorem roundWithAccuracy_neg (s : Sign) (m : ℕ) (e : ℤ) (a : UnpackedFloat.Accuracy) :
    roundWithAccuracy Format.binary64 (-s) m e a =
      (roundWithAccuracy Format.binary64 s m e a).neg := by
  unfold roundWithAccuracy
  dsimp only
  split_ifs <;> rfl

theorem ofModel_pack_neg {u : UnpackedFloat} (h : Canonical u) :
    Float.ofModel (pack u.neg) = -Float.ofModel (pack u) := by
  apply eq_of_unpack_eq
  have hneg : Canonical u.neg := by
    cases u <;> exact h
  rw [unpack_neg]
  change (pack u.neg).unpack = (pack u).unpack.neg
  rw [unpack_pack h, unpack_pack hneg]
  cases u with
  | finite s m e hm =>
    simp only [UnpackedFloat.neg, saturated]
    split_ifs <;> rfl
  | _ => rfl

section
variable {x y : Float} (hx : x.isFinite = true) (hy : y.isFinite = true)
include hx hy

protected theorem mul_neg : x * -y = -(x * y) := by
  have hunpacked : UnpackedFloat.mul Format.binary64 x.toModel.unpack y.toModel.unpack.neg =
      (UnpackedFloat.mul Format.binary64 x.toModel.unpack y.toModel.unpack).neg := by
    cases x.toModel.unpack <;> cases y.toModel.unpack <;>
      simp only [UnpackedFloat.mul, UnpackedFloat.neg, sign_mul_neg, roundWithAccuracy_neg]
  change Float.ofModel (pack (UnpackedFloat.mul _ x.toModel.unpack (-y).toModel.unpack)) = _
  rw [unpack_neg, hunpacked]
  exact ofModel_pack_neg (mul_represents (represents hx) (represents hy)).canonical

protected theorem neg_mul : -x * y = -(x * y) := by
  rw [Binary64.mul_comm, Binary64.mul_neg hy hx, Binary64.mul_comm]

end

theorem normalize_neg {m : ℤ} (hm : m ≠ 0) (e : ℤ) :
    UnpackedFloat.normalize Format.binary64 (-m) e .positive =
      (UnpackedFloat.normalize Format.binary64 m e .positive).neg := by
  unfold UnpackedFloat.normalize UnpackedFloat.round
  dsimp only
  rcases lt_or_gt_of_ne hm with h | h
  · rw [Int.compare_eq_lt.mpr h, Int.compare_eq_gt.mpr (show 0 < -m by omega)]
    exact roundWithAccuracy_neg .negative _ _ _
  · rw [Int.compare_eq_gt.mpr h, Int.compare_eq_lt.mpr (show -m < 0 by omega), neg_neg]
    exact roundWithAccuracy_neg .positive _ _ _

/-- Differences taken the other way round are opposite, but for that of equal numbers, which is a
positive zero both ways. -/
theorem unpacked_sub_swap {u v : UnpackedFloat} {x y : ℝ} (hu : Represents u x)
    (hv : Represents v y) :
    UnpackedFloat.sub Format.binary64 u v = (UnpackedFloat.sub Format.binary64 v u).neg ∨
      UnpackedFloat.sub Format.binary64 u v = .zero .positive ∧
        UnpackedFloat.sub Format.binary64 v u = .zero .positive := by
  rcases hu.cases with ⟨s, rfl, _⟩ | ⟨s, m, e, hm, rfl, _⟩ <;>
    rcases hv.cases with ⟨t, rfl, _⟩ | ⟨t, n, f, hn, rfl, _⟩
  · cases s <;> cases t <;> first | exact .inl rfl | exact .inr ⟨rfl, rfl⟩
  · exact .inl rfl
  · exact .inl (by simp only [UnpackedFloat.sub, UnpackedFloat.neg, sign_neg_neg])
  · simp only [UnpackedFloat.sub, decreaseExponent, min_comm f e]
    generalize s.apply _ = p
    generalize t.apply _ = q
    rcases eq_or_ne p q with rfl | hpq
    · rw [sub_self]
      exact .inr ⟨rfl, rfl⟩
    · rw [← normalize_neg (sub_ne_zero.mpr hpq.symm), neg_sub]
      exact .inl rfl

theorem sub_swap {x y : Float} (hx : x.isFinite = true) (hy : y.isFinite = true) :
    x - y = -(y - x) ∨ x - y = 0.0 ∧ y - x = 0.0 := by
  have hcanonical := (sub_represents (represents hy) (represents hx)).canonical
  change Float.ofModel (pack (UnpackedFloat.sub _ _ _)) = -Float.ofModel (pack _) ∨
    Float.ofModel (pack (UnpackedFloat.sub _ _ _)) = .ofModel (pack (.zero .positive)) ∧
    Float.ofModel (pack (UnpackedFloat.sub _ _ _)) = .ofModel (pack (.zero .positive))
  rw [← ofModel_pack_neg hcanonical]
  rcases unpacked_sub_swap (represents hx) (represents hy) with h | ⟨h, h'⟩
  · exact .inl (congrArg (fun u => Float.ofModel (pack u)) h)
  · rw [h, h']
    exact .inr ⟨rfl, rfl⟩

/-- The leading bit of a double is its sign. -/
theorem signBit_iff (x : Float) : signBit x = true ↔
    Sign.ofBitVec (@unpackSign .binary64 x.toModel.toBits.toBitVec) = .negative := by
  have hlt : x.toModel.toBits.toNat < 2 ^ 64 := x.toModel.toBits.toNat_lt
  have hfield : (@unpackSign .binary64 x.toModel.toBits.toBitVec).toNat =
      x.toModel.toBits.toNat / 2 ^ 63 := by
    change (BitVec.extractLsb 63 63 x.toModel.toBits.toBitVec).toNat = _
    rw [BitVec.extractLsb_toNat, Nat.shiftRight_eq_div_pow]
    exact Nat.mod_eq_of_lt (by change x.toModel.toBits.toNat / _ < _; omega)
  have hleading : signBit x = true ↔ 2 ^ 63 ≤ x.toModel.toBits.toNat := decide_eq_true_iff
  rw [hleading, Sign.ofBitVec]
  split_ifs with hzero
  · rw [hzero] at hfield
    simp only [BitVec.toNat_ofNat, Nat.zero_mod] at hfield
    simp only [iff_false]
    omega
  · rw [← BitVec.toNat_inj, hfield] at hzero
    simp only [BitVec.toNat_ofNat, Nat.zero_mod] at hzero
    simp only [iff_true]
    omega

/-- The sign of an unpacked double. What is no number has none. -/
def HasSign (s : Sign) : UnpackedFloat → Prop
  | .notANumber => False
  | .infinity t | .zero t | .finite t _ _ _ => t = s

theorem exists_hasSign {u : UnpackedFloat} (h : u ≠ .notANumber) : ∃ s, HasSign s u := by
  cases u with
  | notANumber => exact absurd rfl h
  | infinity s | zero s | finite s => exact ⟨s, rfl⟩

theorem HasSign.neg {s : Sign} {u : UnpackedFloat} (h : HasSign s u) : HasSign (-s) u.neg := by
  cases u with
  | notANumber => exact h
  | infinity t | zero t | finite t => exact congrArg (-·) h

theorem hasSign_roundWithAccuracy (s : Sign) (m : ℕ) (e : ℤ) (a : UnpackedFloat.Accuracy) :
    HasSign s (roundWithAccuracy Format.binary64 s m e a) := by
  unfold roundWithAccuracy
  dsimp only
  split_ifs <;> rfl

theorem signBit_of_hasSign {x : Float} {s : Sign} (h : HasSign s x.toModel.unpack) :
    signBit x = true ↔ s = .negative := by
  have hsign : Sign.ofBitVec (@unpackSign .binary64 x.toModel.toBits.toBitVec) = s := by
    change HasSign s (UnpackedFloat.unpack .binary64 x.toModel.toBits.toBitVec) at h
    unfold UnpackedFloat.unpack at h
    dsimp only at h
    split_ifs at h with hones hnone
    · exact h
    · exact absurd h id
    all_goals exact h
  rw [signBit_iff, hsign]

theorem signBit_ofModel_pack {u : UnpackedFloat} {s : Sign} (hu : Canonical u) (h : HasSign s u) :
    signBit (.ofModel (pack u)) = true ↔ s = .negative := by
  apply signBit_of_hasSign
  change HasSign s (pack u).unpack
  rw [unpack_pack hu]
  cases u with
  | finite t m e hm =>
    simp only [saturated]
    split_ifs <;> exact h
  | _ => exact h

theorem signBit_neg {x : Float} (h : x.toModel.unpack ≠ .notANumber) :
    signBit (-x) = !signBit x := by
  obtain ⟨s, hs⟩ := exists_hasSign h
  have hneg : HasSign (-s) (-x).toModel.unpack := by
    rw [unpack_neg]
    exact hs.neg
  rw [Bool.eq_iff_iff, signBit_of_hasSign hneg, Bool.not_eq_true', ← Bool.not_eq_true,
    signBit_of_hasSign hs]
  exact sign_neg_eq_negative s

theorem signBit_of_value_ne_zero {x : Float} (hx : x.isFinite = true) (h : value x ≠ 0) :
    signBit x = true ↔ value x < 0 := by
  rcases (represents hx).cases with ⟨s, hu, hzero⟩ | ⟨s, m, e, hm, hu, hvalue, _⟩
  · exact absurd hzero h
  · have hpos : (0 : ℝ) < m * 2 ^ e := by positivity
    rw [signBit_of_hasSign (hu ▸ rfl : HasSign s x.toModel.unpack), hvalue]
    cases s <;> simp only [signFactor, reduceCtorEq, true_iff, false_iff] <;> linarith

theorem signBit_and_abs_pos (x : Float) :
    (signBit x && decide (0.0 < x.abs)) = decide (x < 0.0) := by
  have hzero : (0.0 : Float).toModel.unpack = .zero .positive := rfl
  rw [Bool.eq_iff_iff, Bool.and_eq_true, decide_eq_true_iff, decide_eq_true_iff, lt_iff_unpack,
    lt_iff_unpack, unpack_abs, hzero]
  by_cases hnan : x.toModel.unpack = .notANumber
  · rw [hnan, UnpackedFloat.abs, compare_notANumber]
    exact iff_of_false (by simp) (by simp [UnpackedFloat.compare])
  obtain ⟨s, hs⟩ := exists_hasSign hnan
  rw [signBit_of_hasSign hs]
  cases hu : x.toModel.unpack with
  | notANumber => exact absurd hu hnan
  | infinity t | zero t | finite t =>
    obtain rfl : t = s := by simpa [hu, HasSign] using hs
    cases t <;> simp [UnpackedFloat.abs, UnpackedFloat.compare]

end GeoAlmanac.Binary64
