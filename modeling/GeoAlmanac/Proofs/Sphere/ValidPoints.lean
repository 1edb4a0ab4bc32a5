import GeoAlmanac.Proofs.Sphere.Doubles

/-! The points that midpoints and destinations answer in binary64 are places again. The sine of a
latitude is held within `[-1, 1]` before its angle is taken, and no later rounding passes the
poles or the antimeridian. -/

namespace GeoAlmanac
open Binary64

/-- A place whose longitude is the one that longitudes are written as. -/
structure Coordinate.Normal (c : Coordinate Float) : Prop where
  accepted : c.Accepted
  longitude_gt : -180.0 < c.longitude
  longitude_le : c.longitude ≤ 180.0

/-- What midpoints and destinations rely on besides: the angles that stand for latitudes do not
exceed the double nearest to a right angle, and the length of a short vector is a number. A length
carries no minus sign, which matters to the angle of the origin: seen with a negative zero as its
abscissa it is a straight one. -/
structure LatitudeBounds [Elementary Float] : Prop extends CircularBounds where
  asin (x : Float) : Bounded 1.0 x → Bounded (pi / 2.0) (asin x)
  atan2_right (y x : Float) : y.isFinite = true → x.isFinite = true → signBit x = false →
    Bounded (pi / 2.0) (GeoAlmanac.atan2 y x)
  hypot (x y : Float) : Bounded 2.0 x → Bounded 2.0 y →
    (hypot x y).isFinite = true ∧ signBit (hypot x y) = false

namespace Sphere

theorem normal_of_bounded {φ l : Float} (hφ : Bounded (pi / 2.0) φ) (hl : Bounded (2.0 * pi) l) :
    (⟨toDegrees φ, Angle.wrapSigned (toDegrees l)⟩ : Coordinate Float).Normal := by
  have hlatitude : Bounded 90.0 (toDegrees φ) :=
    (hφ.toDegrees rfl).widen rfl rfl (by decide) (by decide)
  have hturn : Bounded 180.0 180.0 := ⟨rfl, rfl, by decide, by decide⟩
  obtain ⟨hlow, hhigh⟩ := wrapSigned_mem ((hl.toDegrees rfl).add hturn rfl).isFinite
  exact ⟨Coordinate.accepted_iff.mpr ⟨hlatitude, rfl, rfl, Binary64.le_of_lt hlow, hhigh⟩,
    hlow, hhigh⟩

section
variable [Elementary Float] {a b c : Coordinate Float}

theorem midpoint?_normal (h : LatitudeBounds) (ha : a.Accepted) (hb : b.Accepted)
    (hc : midpoint? a b = some c) : c.Normal := by
  have hcosa := h.cos _ (bounded_latitude ha).isFinite
  have hcosb := h.cos _ (bounded_latitude hb).isFinite
  have hsina := h.sin _ (bounded_latitude ha).isFinite
  have hsinb := h.sin _ (bounded_latitude hb).isFinite
  have heast := (bounded_east ha hb).isFinite
  have hx : Bounded 2.0 (chordSum a b).x :=
    (hcosa.add (hcosb.mul (h.cos _ heast) rfl) rfl).widen rfl rfl (by decide) (by decide)
  have hy : Bounded 2.0 (chordSum a b).y :=
    (hcosb.mul (h.sin _ heast) rfl).widen rfl rfl (by decide) (by decide)
  have hz : Bounded 2.0 (chordSum a b).z :=
    (hsina.add hsinb rfl).widen rfl rfl (by decide) (by decide)
  unfold midpoint? at hc
  dsimp only at hc
  split_ifs at hc
  obtain ⟨hlength, hpos⟩ := h.hypot _ _ hx hy
  have hturn := h.atan2 _ _ (isNaN_of_isFinite hy.isFinite) (isNaN_of_isFinite hx.isFinite)
  rw [← Option.some.inj hc]
  exact normal_of_bounded (h.atan2_right _ _ hz.isFinite hlength hpos)
    (((bounded_longitude ha).add hturn rfl).widen rfl rfl (by decide) (by decide))

theorem destination_normal (h : LatitudeBounds) {azimuth angle : Float} (ha : a.Accepted)
    (hazimuth : azimuth.isFinite = true) (hangle : angle.isFinite = true) :
    (destination a azimuth angle).Normal := by
  have hθ := isFinite_toRadians hazimuth
  have hφ := (bounded_latitude ha).isFinite
  have hsin : Bounded 2.0 (sin (toRadians a.latitude) * cos angle +
      cos (toRadians a.latitude) * sin angle * cos (toRadians azimuth)) :=
    (((h.sin _ hφ).mul (h.cos _ hangle) rfl).add
      (((h.cos _ hφ).mul (h.sin _ hangle) rfl).mul (h.cos _ hθ) rfl) rfl).widen rfl rfl
        (by decide) (by decide)
  have hy := ((h.sin _ hθ).mul (h.sin _ hangle) rfl).mul (h.cos _ hφ) rfl
  have hx := (h.cos _ hangle).sub ((h.sin _ hφ).mul hsin rfl) rfl
  have hturn := h.atan2 _ _ (isNaN_of_isFinite hy.isFinite) (isNaN_of_isFinite hx.isFinite)
  exact normal_of_bounded (h.asin _ (clamp_between rfl rfl hsin.isFinite (by decide)))
    (((bounded_longitude ha).add hturn rfl).widen rfl rfl (by decide) (by decide))

/-- Midpoints and destinations of places are places, with longitudes in `(-180, 180]`. -/
theorem computed_points_normal (h : LatitudeBounds) :
    (∀ a b c : Coordinate Float, a.Accepted → b.Accepted → midpoint? a b = some c → c.Normal) ∧
      ∀ (start : Coordinate Float) (azimuth angle : Float), start.Accepted →
        azimuth.isFinite = true → angle.isFinite = true →
          (destination start azimuth angle).Normal :=
  ⟨fun _ _ _ ha hb hc => midpoint?_normal h ha hb hc,
    fun _ _ _ ha hazimuth hangle => destination_normal h ha hazimuth hangle⟩

end

theorem latitudeBounds_fewAngles : @LatitudeBounds fewAngles := by
  refine @LatitudeBounds.mk fewAngles circularBounds_fewAngles ?_ ?_ ?_
  · intro x _
    unfold asin
    dsimp only
    split_ifs <;> exact ⟨rfl, rfl, by decide, by decide⟩
  · intro y x _ _ hx
    unfold atan2
    dsimp only
    split_ifs with _ h
    all_goals try exact ⟨rfl, rfl, by decide, by decide⟩
    rw [h.2] at hx
    exact absurd hx (by decide +kernel)
  · intro x y _ _
    unfold hypot
    dsimp only
    split_ifs <;> exact ⟨rfl, by decide +kernel⟩

/-- From the south pole half the way to the equator, and a quarter turn. -/
theorem computed_points_normal_southPole :
    @LatitudeBounds fewAngles ∧ southPole.Accepted ∧ dateLine.Accepted ∧
      @midpoint? Float _ fewAngles southPole dateLine = some ⟨-45.0, 180.0⟩ ∧
      (⟨-45.0, 180.0⟩ : Coordinate Float).Normal ∧
      (@destination Float _ fewAngles southPole 90.0 (pi / 2.0)).Normal := by
  have h := @computed_points_normal fewAngles latitudeBounds_fewAngles
  have hmiddle : @midpoint? Float _ fewAngles southPole dateLine = some ⟨-45.0, 180.0⟩ := by
    have hnorm :
        ¬@Vector3.norm Float _ (@chordSum Float _ fewAngles southPole dateLine) < 1e-12 := by
      decide +kernel
    unfold midpoint?
    dsimp only
    rw [if_neg hnorm, Option.some_inj, Coordinate.mk.injEq]
    decide +kernel
  exact ⟨latitudeBounds_fewAngles, southPole_accepted, dateLine_accepted, hmiddle,
    h.1 _ _ _ southPole_accepted dateLine_accepted hmiddle,
    h.2 southPole 90.0 (pi / 2.0) southPole_accepted rfl rfl⟩

end Sphere
end GeoAlmanac
