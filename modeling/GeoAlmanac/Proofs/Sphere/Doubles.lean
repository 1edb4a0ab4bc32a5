import GeoAlmanac.Proofs.Binary64.Angles
import GeoAlmanac.Proofs.Binary64.Signs
import GeoAlmanac.Sphere

/-! The sphere in binary64. What is relied on of the elementary functions is stated of an arbitrary
instance of them; the coordinates that are accepted bound everything computed from them. -/

namespace GeoAlmanac
open Binary64

/-- Whether the components of a point pass the check for places. -/
def Coordinate.Accepted (a : Coordinate Float) : Prop :=
  validate? a.latitude a.longitude = .ok a

theorem Coordinate.accepted_iff {a : Coordinate Float} :
    a.Accepted ↔ Bounded 90.0 a.latitude ∧ Bounded 180.0 a.longitude := by
  rw [show Bounded 90.0 a.latitude ↔ _ from between_iff_isWithin rfl rfl,
    show Bounded 180.0 a.longitude ↔ _ from between_iff_isWithin rfl rfl]
  unfold Accepted validate?
  cases isWithin (-90.0) 90.0 a.latitude <;> cases isWithin (-180.0) 180.0 a.longitude <;> simp

theorem Coordinate.Accepted.latitude {a : Coordinate Float} (h : a.Accepted) :
    Bounded 90.0 a.latitude :=
  (accepted_iff.mp h).1

theorem Coordinate.Accepted.longitude {a : Coordinate Float} (h : a.Accepted) :
    Bounded 180.0 a.longitude :=
  (accepted_iff.mp h).2

namespace Binary64

theorem Bounded.toRadians {b x : Float} (hx : Bounded b x)
    (h : (GeoAlmanac.toRadians b).isFinite = true) :
    Bounded (GeoAlmanac.toRadians b) (GeoAlmanac.toRadians x) :=
  hx.mul ⟨rfl, rfl, by decide, by decide⟩ h

theorem Bounded.toDegrees {b x : Float} (hx : Bounded b x)
    (h : (GeoAlmanac.toDegrees b).isFinite = true) :
    Bounded (GeoAlmanac.toDegrees b) (GeoAlmanac.toDegrees x) :=
  hx.mul ⟨rfl, rfl, by decide, by decide⟩ h

theorem isFinite_toRadians {x : Float} (hx : x.isFinite = true) :
    (GeoAlmanac.toRadians x).isFinite = true := by
  obtain ⟨habs, hvalue⟩ := isFinite_abs hx
  have hfactor : Between 0.0 1.0 (pi / 180.0) := ⟨rfl, rfl, by decide, by decide⟩
  have hle : value (pi / 180.0) ≤ 1 := value_one ▸ hfactor.value_right
  refine ((mul_rounds hx hfactor.isFinite).bounded (rounds_value habs) habs ?_).isFinite
  rw [abs_mul, hvalue, abs_of_nonneg hfactor.value_left]
  exact mul_le_of_le_one_right (abs_nonneg _) hle

end Binary64

/-- What is relied on of the circular functions and of the angle of a point: they keep to the
doubles nearest to the bounds of the exact functions. -/
structure CircularBounds [Elementary Float] : Prop where
  sin (x : Float) : x.isFinite = true → Bounded 1.0 (sin x)
  cos (x : Float) : x.isFinite = true → Bounded 1.0 (cos x)
  atan2 (y x : Float) : y.isNaN = false → x.isNaN = false → Bounded pi (atan2 y x)

namespace Binary64

/-- The odd function with the values of `f` at positive numbers. -/
def oddly (f : Float → Float) (x : Float) : Float :=
  if x == 0.0 then x else if x < 0.0 then -f (-x) else f x

theorem oddly_bounded {f : Float → Float} {b x : Float} (hb : b.isFinite = true) (hb0 : 0.0 ≤ b)
    (hf : ∀ y, Bounded b (f y)) (hx : x.isFinite = true) : Bounded b (oddly f x) := by
  unfold oddly
  split_ifs with hzero hneg
  · rw [beq_iff_value hx rfl] at hzero
    rw [bounded_iff hb, hzero, show value 0.0 = 0 from rfl, abs_zero]
    exact ⟨hx, (le_iff_value rfl hb).mp hb0⟩
  · exact (hf _).neg
  · exact hf _

theorem oddly_neg (f : Float → Float) {x : Float} (hx : x.isFinite = true) :
    oddly f (-x) = -oddly f x := by
  obtain ⟨hneg, hvalue⟩ := isFinite_neg hx
  have hzero (y : Float) (hy : y.isFinite = true) : (y == 0.0) = true ↔ value y = 0 :=
    beq_iff_value hy rfl
  have hlt (y : Float) (hy : y.isFinite = true) : y < 0.0 ↔ value y < 0 := lt_iff_value hy rfl
  unfold oddly
  simp only [hzero x hx, hzero (-x) hneg, hlt x hx, hlt (-x) hneg, hvalue, Binary64.neg_neg,
    neg_eq_zero, neg_lt_zero]
  rcases lt_trichotomy (value x) 0 with h | h | h
  · rw [if_neg h.ne, if_neg h.ne, if_neg h.not_gt, if_pos h, Binary64.neg_neg]
  · rw [if_pos h, if_pos h]
  · rw [if_neg h.ne', if_neg h.ne', if_pos h, if_neg h.not_gt]

/-- The elementary functions at the angles between a pole and the equator; at other arguments they
only keep to the bounds. -/
@[reducible] def fewAngles : Elementary Float where
  sin := oddly fun x =>
    if x = pi / 4.0 then 0.7071067811865475
    else if x = pi / 2.0 then 1.0
    else if x = pi then 1.2246467991473532e-16
    else if x = 2.0 * pi then -2.4492935982947064e-16
    else 0.0
  cos x :=
    let positive (x : Float) : Float :=
      if x = 0.0 ∨ x = 2.0 * pi then 1.0
      else if x = pi / 2.0 then 6.123233995736766e-17
      else 0.0
    positive x.abs
  tan x := if x = 0.0 then 0.0 else if x = pi / 4.0 then 0.9999999999999999 else 1.0
  asin x := if x = -6.123233995736766e-17 then -6.123233995736766e-17 else 0.0
  acos _ := 0.0
  atan _ := 0.0
  atan2 y x :=
    if y = 0.7071067811865475 ∧ x = 0.7071067811865476 then pi / 4.0
    else if y = -1.4997597826618576e-32 ∧ x = -1.0 then -pi
    else if y = 2.4492935982947064e-16 ∧ x = 1.0 then 2.4492935982947064e-16
    else if y = -1.0 ∧ x = 1.0 then -(pi / 4.0)
    else if y = 6.123233995736766e-17 ∧ x = 0.0 then pi / 2.0
    else 0.0
  hypot x y := if x = 1.0 ∧ y = 2.4492935982947064e-16 then 1.0 else 0.0
  log x := if x = 1.0 / 0.0 then 1.0 / 0.0 else 0.0

end Binary64

namespace Sphere
variable {a b : Coordinate Float}

theorem bounded_latitude (ha : a.Accepted) : Bounded (pi / 2.0) (toRadians a.latitude) :=
  (ha.latitude.toRadians rfl).widen rfl rfl (by decide) (by decide)

theorem bounded_longitude (ha : a.Accepted) : Bounded pi (toRadians a.longitude) :=
  (ha.longitude.toRadians rfl).widen rfl rfl (by decide) (by decide)

theorem bounded_east (ha : a.Accepted) (hb : b.Accepted) :
    Bounded (2.0 * pi) (toRadians (b.longitude - a.longitude)) :=
  ((hb.longitude.sub ha.longitude rfl).toRadians rfl).widen rfl rfl (by decide) (by decide)

theorem bounded_north (ha : a.Accepted) (hb : b.Accepted) :
    Bounded pi (toRadians (b.latitude - a.latitude)) :=
  ((hb.latitude.sub ha.latitude rfl).toRadians rfl).widen rfl rfl (by decide) (by decide)

/-- The south pole, on the antimeridian. -/
def southPole : Coordinate Float :=
  ⟨-90.0, 180.0⟩

/-- The equator at the antimeridian, written from the other side. -/
def dateLine : Coordinate Float :=
  ⟨0.0, -180.0⟩

theorem southPole_accepted : southPole.Accepted :=
  Coordinate.accepted_iff.mpr ⟨⟨rfl, rfl, by decide, by decide⟩, ⟨rfl, rfl, by decide, by decide⟩⟩

theorem dateLine_accepted : dateLine.Accepted :=
  Coordinate.accepted_iff.mpr ⟨⟨rfl, rfl, by decide, by decide⟩, ⟨rfl, rfl, by decide, by decide⟩⟩

theorem circularBounds_fewAngles : @CircularBounds fewAngles := by
  refine @CircularBounds.mk fewAngles ?_ ?_ ?_
  · intro x hx
    refine oddly_bounded rfl (by decide) (fun y => ?_) hx
    split_ifs <;> exact ⟨rfl, rfl, by decide, by decide⟩
  · intro x hx
    unfold cos
    dsimp only
    split_ifs <;> exact ⟨rfl, rfl, by decide, by decide⟩
  · intro y x hy hx
    unfold atan2
    dsimp only
    split_ifs <;> exact ⟨rfl, rfl, by decide, by decide⟩

end Sphere
end GeoAlmanac
