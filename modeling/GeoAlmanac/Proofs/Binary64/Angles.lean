import GeoAlmanac.Angle
import GeoAlmanac.Proofs.Binary64.Intervals

/-! Angles in binary64 degrees: both representatives of a finite angle lie in their intervals,
whatever the rounding of the shifts does at the ends. -/

namespace GeoAlmanac.Binary64
open Float.Model
open Float.Model.UnpackedFloat (Sign)

theorem remainderOf_bounded {x y : Float} (hx : x.isFinite = true) (hy : y.isFinite = true)
    (hpos : 0.0 < y) : Bounded y (remainderOf x y) := by
  have hpos : 0 < value y := (lt_iff_value rfl hy).mp hpos
  rcases (represents hy).cases with ⟨t, hv, hzero⟩ | ⟨t, n, f, hn, hv, hyv, _⟩
  · exact absurd hzero hpos.ne'
  · rcases (represents hx).cases with ⟨s, hu, hxv⟩ | ⟨s, m, e, hm, hu, _⟩
    · have hrest : remainderOf x y = x := by
        unfold remainderOf
        rw [hu, hv]
      rw [hrest, bounded_iff hy, hxv, abs_zero]
      exact ⟨hx, hpos.le⟩
    · have hrest : remainderOf x y = ofScaled s
          ((m <<< (e - min e f).toNat) % (n <<< (f - min e f).toNat)) (min e f) := by
        unfold remainderOf
        rw [hu, hv]
      rw [hrest]
      refine (ofScaled_rounds _ _ _).bounded (rounds_value hy) hy ?_
      have hdivisor := shiftLeft_value n (f - min e f).toNat f
      rw [show f - (f - min e f).toNat = min e f by omega] at hdivisor
      have hle : (((m <<< (e - min e f).toNat) % (n <<< (f - min e f).toNat) : ℕ) : ℝ) ≤
          (n <<< (f - min e f).toNat : ℕ) := by
        have hpos : 0 < n <<< (f - min e f).toNat := by
          rw [Nat.shiftLeft_eq]
          positivity
        exact_mod_cast (Nat.mod_lt _ hpos).le
      rw [abs_signFactor_mul s (by positivity), ← abs_of_pos hpos, hyv,
        abs_signFactor_mul t (by positivity), ← hdivisor]
      exact mul_le_mul_of_nonneg_right hle (by positivity)

/-- The least representative of a finite angle lies in `[0, 360)`. -/
theorem wrap_mem {x : Float} (hx : x.isFinite = true) :
    0.0 ≤ Angle.wrap x ∧ Angle.wrap x < 360.0 := by
  have hrest : Bounded 360.0 (Arithmetic.remainder x 360.0) :=
    remainderOf_bounded hx rfl (by decide)
  unfold Angle.wrap
  dsimp only
  generalize Arithmetic.remainder x 360.0 = rest at *
  have hshifted : Between 0.0 360.0 (if rest < 0.0 then rest + 360.0 else rest) := by
    split_ifs with hneg
    · have hneg : Between (-360.0) 0.0 rest :=
        ⟨rfl, rfl, hrest.left, (le_iff_value hrest.isFinite rfl).mpr
          ((lt_iff_value hrest.isFinite rfl).mp hneg).le⟩
      exact (hneg.add (between_self (x := 360.0) rfl) rfl rfl).widen rfl rfl (by decide) (by decide)
    · rw [lt_iff_value hrest.isFinite rfl, not_lt] at hneg
      exact ⟨rfl, rfl, (le_iff_value rfl hrest.isFinite).mpr hneg, hrest.right⟩
  generalize (if rest < 0.0 then rest + 360.0 else rest) = shifted at *
  split_ifs with hturn
  · exact ⟨by decide, by decide⟩
  · rw [le_iff_value rfl hshifted.isFinite, not_le] at hturn
    exact ⟨hshifted.left, (lt_iff_value hshifted.isFinite rfl).mpr hturn⟩

theorem wrapSigned_mem {x : Float} (hx : (x + 180.0).isFinite = true) :
    -180.0 < Angle.wrapSigned x ∧ Angle.wrapSigned x ≤ 180.0 := by
  obtain ⟨hlow, hhigh⟩ := wrap_mem hx
  unfold Angle.wrapSigned
  dsimp only
  generalize Angle.wrap (x + 180.0) = turned at *
  have hturned : Between 0.0 360.0 turned := ⟨rfl, rfl, hlow, Binary64.le_of_lt hhigh⟩
  have heast : Between (-180.0) 180.0 (turned - 180.0) :=
    (hturned.sub (between_self (x := 180.0) rfl) rfl rfl).widen rfl rfl (by decide) (by decide)
  split_ifs with hwest
  · exact ⟨by decide, by decide⟩
  · rw [le_iff_value heast.isFinite rfl, not_le] at hwest
    exact ⟨(lt_iff_value rfl heast.isFinite).mpr hwest, heast.right⟩

end GeoAlmanac.Binary64
