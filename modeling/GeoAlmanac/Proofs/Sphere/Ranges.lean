import GeoAlmanac.Proofs.Sphere.Doubles

/-! Azimuths and angles of accepted places in binary64, the poles and the antimeridian included:
every azimuth lies in `[0, 360)`, every central angle in `[0, π]`, and no angle is lost to an
infinity or a NaN. -/

namespace GeoAlmanac
open Binary64

/-- What azimuths and angles rely on besides. In the first quadrant the angle of a point is one of
it; of the origin nothing is said, as its angle depends on the signs of its zeros. -/
structure AngleBounds [Elementary Float] : Prop extends CircularBounds where
  sin_zero : GeoAlmanac.sin (0.0 : Float) = 0.0
  sin_neg (x : Float) : x.isFinite = true → GeoAlmanac.sin (-x) = -GeoAlmanac.sin x
  tan_zero : GeoAlmanac.tan (0.0 : Float) = 0.0
  tan_pos (x : Float) : 0.0 < x → x ≤ pi / 2.0 →
    0.0 < GeoAlmanac.tan x ∧ (GeoAlmanac.tan x).isFinite = true
  log (x : Float) : 0.0 ≤ x → (log x).isNaN = false
  atan2_zero : GeoAlmanac.atan2 (0.0 : Float) 1.0 = 0.0
  atan2_quadrant (y x : Float) : Between 0.0 1.0 y → Between 0.0 1.0 x → 0.0 < y ∨ 0.0 < x →
    Between 0.0 (pi / 2.0) (GeoAlmanac.atan2 y x)

namespace Sphere
variable {a b : Coordinate Float}

theorem le_latitude {x : Float} (hx : Bounded 90.0 x) (hne : x ≠ -90.0) :
    -89.99999999999999 ≤ x := by
  have hpole : value (-90.0) = -(90 * 2 ^ 46 : ℤ) * 2 ^ (-46 : ℤ) := by
    change -1 * (((6333186975989760 : ℕ) : ℝ) * 2 ^ (-46 : ℤ)) = _
    norm_num
  have hnext : value (-89.99999999999999) = (-(90 * 2 ^ 46) + 1 : ℤ) * 2 ^ (-46 : ℤ) := by
    change -1 * (((6333186975989759 : ℕ) : ℝ) * 2 ^ (-46 : ℤ)) = _
    norm_num
  have hplace : (0 : ℝ) < 2 ^ (-46 : ℤ) := by positivity
  rw [le_iff_value rfl hx.isFinite, hnext]
  by_cases hlarge : 2 ^ (6 : ℤ) ≤ |value x|
  · obtain ⟨k, hk⟩ := exists_eq_intCast_mul (rounded_value hx.isFinite) hlarge
    rw [show (6 - 52 : ℤ) = -46 by norm_num] at hk
    have hlow := hx.value_left
    rw [hpole, hk] at hlow
    have hlow : -(90 * 2 ^ 46) ≤ k := by exact_mod_cast le_of_mul_le_mul_right hlow hplace
    have hne : k ≠ -(90 * 2 ^ 46) := by
      rintro rfl
      refine hne (eq_of_value_eq hx.isFinite rfl (hk.trans ?_) ?_)
      · rw [hpole]
        push_cast
        rfl
      · rw [hk]
        norm_num
    rw [hk]
    exact mul_le_mul_of_nonneg_right (by exact_mod_cast (by omega : -(90 * 2 ^ 46) + 1 ≤ k))
      hplace.le
  · have hsmall := (abs_lt.mp (not_le.mp hlarge)).1
    refine le_trans ?_ hsmall.le
    norm_num

theorem stretch_arg {x : Float} (hx : Bounded 90.0 x) (hne : x ≠ -90.0) :
    0.0 < pi / 4.0 + toRadians x * 0.5 ∧ pi / 4.0 + toRadians x * 0.5 ≤ pi / 2.0 := by
  have hx' : Between (-89.99999999999999) 90.0 x := ⟨rfl, rfl, le_latitude hx hne, hx.right⟩
  have hhalf := (hx'.mul_const (k := pi / 180.0) rfl (by decide) rfl rfl).mul_const (k := 0.5)
    rfl (by decide) rfl rfl
  have hsum := (between_self (x := pi / 4.0) rfl).add hhalf rfl rfl
  exact ⟨hsum.pos (by decide),
    (hsum.widen hsum.finite_left rfl (between_self hsum.finite_left).left (by decide)).right⟩

theorem azimuth_mem {x : Float} (hx : (x + 360.0).isFinite = true) :
    0.0 ≤ azimuth x ∧ azimuth x < 360.0 :=
  wrap_mem hx

section
variable [Elementary Float]

theorem azimuth_atan2_mem (h : CircularBounds) {y x : Float} (hy : y.isNaN = false)
    (hx : x.isNaN = false) :
    0.0 ≤ azimuth (toDegrees (atan2 y x)) ∧ azimuth (toDegrees (atan2 y x)) < 360.0 :=
  azimuth_mem (((h.atan2 y x hy hx).toDegrees rfl).add (c := 360.0)
    ⟨rfl, rfl, by decide, by decide⟩ rfl).isFinite

theorem departureAzimuth_mem (h : CircularBounds) (ha : a.Accepted) (hb : b.Accepted) :
    0.0 ≤ departureAzimuth a b ∧ departureAzimuth a b < 360.0 := by
  unfold departureAzimuth
  split_ifs
  · exact ⟨by decide, by decide⟩
  · have hcosa := h.cos _ (bounded_latitude ha).isFinite
    have hcosb := h.cos _ (bounded_latitude hb).isFinite
    have hsina := h.sin _ (bounded_latitude ha).isFinite
    have hsinb := h.sin _ (bounded_latitude hb).isFinite
    have heast := (bounded_east ha hb).isFinite
    have hy := (h.sin _ heast).mul hcosb rfl
    have hx := (hcosa.mul hsinb rfl).sub ((hsina.mul hcosb rfl).mul (h.cos _ heast) rfl) rfl
    exact azimuth_atan2_mem h (isNaN_of_isFinite hy.isFinite) (isNaN_of_isFinite hx.isFinite)

theorem arrivalAzimuth_mem (h : CircularBounds) (ha : a.Accepted) (hb : b.Accepted) :
    0.0 ≤ arrivalAzimuth a b ∧ arrivalAzimuth a b < 360.0 := by
  unfold arrivalAzimuth
  split_ifs
  · exact ⟨by decide, by decide⟩
  · obtain ⟨hlow, hhigh⟩ := departureAzimuth_mem h hb ha
    have hback : Between 0.0 360.0 (departureAzimuth b a) :=
      ⟨rfl, rfl, hlow, Binary64.le_of_lt hhigh⟩
    exact azimuth_mem ((hback.add (between_self (x := 180.0) rfl) rfl rfl).add
      (between_self (x := 360.0) rfl) rfl rfl).isFinite

theorem stretch_pos (h : AngleBounds) {x : Float} (hx : Bounded 90.0 x) (hne : x ≠ -90.0) :
    0.0 < tan (pi / 4.0 + toRadians x * 0.5) ∧
      (tan (pi / 4.0 + toRadians x * 0.5)).isFinite = true := by
  obtain ⟨hlow, hhigh⟩ := stretch_arg hx hne
  exact h.tan_pos _ hlow hhigh

theorem stretch_pole (h : AngleBounds) :
    tan (pi / 4.0 + toRadians (-90.0) * 0.5 : Float) = 0.0 := by
  rw [show (pi / 4.0 + toRadians (-90.0) * 0.5 : Float) = 0.0 by rfl]
  exact h.tan_zero

/-- The difference of two stretched latitudes may be infinite but is never a NaN: only a zero over
a zero would make it one. -/
theorem stretchedNorth_not_nan (h : AngleBounds) (ha : a.Accepted) (hb : b.Accepted) :
    (stretchedNorth a b).isNaN = false := by
  unfold stretchedNorth
  dsimp only
  split_ifs with hsame
  · rfl
  · apply h.log
    by_cases hpole : a.latitude = -90.0
    · have hne : b.latitude ≠ -90.0 := by
        intro hpole'
        rw [hpole, hpole'] at hsame
        exact hsame rfl
      obtain ⟨hpos, hfinite⟩ := stretch_pos h hb.latitude hne
      rw [hpole, stretch_pole h]
      exact quotient_zero_nonneg hfinite hpos
    · obtain ⟨hpos, hfinite⟩ := stretch_pos h ha.latitude hpole
      by_cases hpole' : b.latitude = -90.0
      · rw [hpole', stretch_pole h]
        exact quotient_nonneg rfl hfinite (by decide) hpos
      · obtain ⟨hpos', hfinite'⟩ := stretch_pos h hb.latitude hpole'
        exact quotient_nonneg hfinite' hfinite (Binary64.le_of_lt hpos') hpos

omit [Elementary Float] in
theorem bounded_shorterEast (ha : a.Accepted) (hb : b.Accepted) :
    Bounded (4.0 * pi) (shorterEast a b) := by
  have heast := bounded_east ha hb
  have hturn : Bounded (2.0 * pi) (2.0 * pi) := ⟨rfl, rfl, by decide, by decide⟩
  unfold shorterEast
  dsimp only
  split_ifs
  · exact (heast.sub hturn rfl).widen rfl rfl (by decide) (by decide)
  · exact (heast.add hturn rfl).widen rfl rfl (by decide) (by decide)
  · exact heast.widen rfl rfl (by decide) (by decide)

theorem loxodromeAzimuth_mem (h : AngleBounds) (ha : a.Accepted) (hb : b.Accepted) :
    0.0 ≤ loxodromeAzimuth a b ∧ loxodromeAzimuth a b < 360.0 := by
  unfold loxodromeAzimuth
  split_ifs
  · exact ⟨by decide, by decide⟩
  · exact azimuth_atan2_mem h.toCircularBounds
      (isNaN_of_isFinite (bounded_shorterEast ha hb).isFinite) (stretchedNorth_not_nan h ha hb)

theorem bounded_loxodromeScale (h : CircularBounds) (ha : a.Accepted) (hb : b.Accepted) :
    Bounded 4e12 (loxodromeScale a b) := by
  unfold loxodromeScale
  dsimp only
  split_ifs with hsteep
  · have hquotient := (bounded_north ha hb).div rfl (by decide) hsteep rfl
    exact hquotient.widen rfl rfl (by decide) (by decide)
  · exact (h.cos _ (bounded_latitude ha).isFinite).widen rfl rfl (by decide) (by decide)

theorem loxodromeAngle_nonneg (h : CircularBounds) (ha : a.Accepted) (hb : b.Accepted) :
    (loxodromeAngle a b).isFinite = true ∧ 0.0 ≤ loxodromeAngle a b := by
  have hnorth := bounded_north ha hb
  have hscale := bounded_loxodromeScale h ha hb
  have heast := bounded_shorterEast ha hb
  have hsquare := hscale.mul hscale rfl
  have hside := hsquare.mul heast rfl
  have hsum := (hnorth.mul hnorth rfl).add (hside.mul heast rfl) rfl
  have hnonneg := sum_nonneg (hnorth.mul hnorth rfl).isFinite (hside.mul heast rfl).isFinite
    (square_nonneg hnorth.isFinite) (mul_square_nonneg hsquare.isFinite heast.isFinite
      (square_nonneg hscale.isFinite) hside.isFinite)
  have hlength := Between.sqrt ⟨rfl, hsum.finite_right, hnonneg, hsum.right⟩ (by decide)
    (by decide +kernel) (by decide +kernel)
  exact ⟨hlength.isFinite, hlength.left⟩

/-- The haversine before it is held within `[0, 1]`. -/
def haversine (a b : Coordinate Float) : Float :=
  sin ((toRadians b.latitude - toRadians a.latitude) * 0.5) *
      sin ((toRadians b.latitude - toRadians a.latitude) * 0.5) +
    cos (toRadians a.latitude) * cos (toRadians b.latitude) *
      sin (toRadians (b.longitude - a.longitude) * 0.5) *
      sin (toRadians (b.longitude - a.longitude) * 0.5)

theorem centralAngle_eq_haversine (a b : Coordinate Float) :
    centralAngle a b = 2.0 * atan2 (sqrt (clamp 0.0 1.0 (haversine a b)))
      (sqrt (1.0 - clamp 0.0 1.0 (haversine a b))) :=
  rfl

omit [Elementary Float] in
theorem isFinite_halves (ha : a.Accepted) (hb : b.Accepted) :
    ((toRadians b.latitude - toRadians a.latitude) * 0.5).isFinite = true ∧
      (toRadians (b.longitude - a.longitude) * 0.5).isFinite = true := by
  have hhalf : Bounded 0.5 0.5 := ⟨rfl, rfl, by decide, by decide⟩
  exact ⟨(((bounded_latitude hb).sub (bounded_latitude ha) rfl).mul hhalf rfl).isFinite,
    ((bounded_east ha hb).mul hhalf rfl).isFinite⟩

theorem isFinite_haversine (h : CircularBounds) (ha : a.Accepted) (hb : b.Accepted) :
    (haversine a b).isFinite = true := by
  obtain ⟨hnorth, heast⟩ := isFinite_halves ha hb
  have hcosa := h.cos _ (bounded_latitude ha).isFinite
  have hcosb := h.cos _ (bounded_latitude hb).isFinite
  have hside := ((hcosa.mul hcosb rfl).mul (h.sin _ heast) rfl).mul (h.sin _ heast) rfl
  exact (((h.sin _ hnorth).mul (h.sin _ hnorth) rfl).add hside rfl).isFinite

omit [Elementary Float] in
theorem root_pos {x : Float} (hx : Between 0.0 1.0 x) : 0.0 < sqrt x ∨ 0.0 < sqrt (1.0 - x) := by
  have hroot {y : Float} (hy : Between 0.5 1.0 y) : 0.0 < sqrt y :=
    (hy.sqrt (by decide) (by decide +kernel) (by decide +kernel)).pos (by decide +kernel)
  rcases le_total (value x) (value 0.5) with hle | hle
  · have hlow : Between 0.0 0.5 x := ⟨rfl, rfl, hx.left, (le_iff_value hx.isFinite rfl).mpr hle⟩
    have hrest := ((between_self (x := 1.0) rfl).sub hlow rfl rfl).widen (c := 0.5) (d := 1.0)
      rfl rfl (by decide) (by decide)
    exact .inr (hroot hrest)
  · exact .inl (hroot ⟨rfl, rfl, (le_iff_value rfl hx.isFinite).mpr hle, hx.right⟩)

theorem centralAngle_between (h : AngleBounds) (ha : a.Accepted) (hb : b.Accepted) :
    Between 0.0 pi (centralAngle a b) := by
  have hheld := clamp_between (a := 0.0) (b := 1.0) rfl rfl
    (isFinite_haversine h.toCircularBounds ha hb) (by decide)
  have hroot {x : Float} (hx : Between 0.0 1.0 x) : Between 0.0 1.0 (sqrt x) :=
    (hx.sqrt (by decide) (by decide +kernel) (by decide +kernel)).widen rfl rfl
      (by decide +kernel) (by decide +kernel)
  have hrest := ((between_self (x := 1.0) rfl).sub hheld rfl rfl).widen (c := 0.0) (d := 1.0)
    rfl rfl (by decide) (by decide)
  rw [centralAngle_eq_haversine, Binary64.mul_comm]
  exact ((h.atan2_quadrant _ _ (hroot hheld) (hroot hrest) (root_pos hheld)).mul_const rfl
    (by decide) rfl rfl).widen rfl rfl (by decide) (by decide)

theorem sin_half_opposite (h : AngleBounds) {x y : Float} (hy : y.isFinite = true)
    (hhalf : (y * 0.5).isFinite = true) (hxy : x = -y ∨ x = y) :
    sin (x * 0.5) = -sin (y * 0.5) ∨ sin (x * 0.5) = sin (y * 0.5) := by
  rcases hxy with rfl | rfl
  · rw [Binary64.neg_mul hy rfl, h.sin_neg _ hhalf]
    exact .inl rfl
  · exact .inr rfl

omit [Elementary Float] in
theorem sub_opposite {x y : Float} (hx : x.isFinite = true) (hy : y.isFinite = true) :
    x - y = -(y - x) ∨ x - y = y - x := by
  rcases sub_swap hx hy with h | ⟨h, h'⟩
  · exact .inl h
  · exact .inr (h.trans h'.symm)

theorem haversine_comm (h : AngleBounds) (ha : a.Accepted) (hb : b.Accepted) :
    haversine a b = haversine b a := by
  have hlatitude := bounded_latitude ha
  have hlatitude' := bounded_latitude hb
  have hfinite := bounded_east hb ha
  obtain ⟨hnorth, heast⟩ := isFinite_halves hb ha
  have hlon : toRadians (b.longitude - a.longitude) = -toRadians (a.longitude - b.longitude) ∨
      toRadians (b.longitude - a.longitude) = toRadians (a.longitude - b.longitude) := by
    rcases sub_opposite hb.longitude.isFinite ha.longitude.isFinite with hsub | hsub
    · rw [hsub]
      exact .inl (Binary64.neg_mul (ha.longitude.sub hb.longitude rfl).isFinite rfl)
    · exact .inr (congrArg toRadians hsub)
  have hs := sin_half_opposite h (hlatitude.sub hlatitude' rfl).isFinite hnorth
    (sub_opposite hlatitude'.isFinite hlatitude.isFinite)
  have he := sin_half_opposite h hfinite.isFinite heast hlon
  have hcos := ((h.cos _ hlatitude'.isFinite).mul (h.cos _ hlatitude.isFinite) rfl)
  have hsin := h.sin _ heast
  unfold haversine
  rw [Binary64.mul_comm (cos (toRadians a.latitude))]
  congr 1
  · rcases hs with hs | hs <;> rw [hs]
    exact Binary64.neg_mul_neg _ _
  · rcases he with he | he <;> rw [he]
    rw [Binary64.mul_neg hcos.isFinite hsin.isFinite, Binary64.neg_mul_neg]

theorem isZero_sin_half (h : AngleBounds) {x : Float} (hx : IsZero x) :
    IsZero (sin (x * 0.5)) := by
  rcases hx with rfl | rfl
  · rw [show (0.0 * 0.5 : Float) = 0.0 by rfl, h.sin_zero]
    exact .inl rfl
  · rw [show (-0.0 * 0.5 : Float) = -0.0 by rfl, h.sin_neg _ rfl, h.sin_zero]
    exact .inr rfl

theorem haversine_same (h : AngleBounds) (ha : a.Accepted) (hb : b.Accepted)
    (hsame : a.same b = true) : haversine a b = 0.0 := by
  have hlatitude := bounded_latitude ha
  have hlatitude' := bounded_latitude hb
  unfold Coordinate.same at hsame
  rw [Bool.and_eq_true, beq_iff_value ha.latitude.isFinite hb.latitude.isFinite,
    beq_iff_value ha.longitude.isFinite hb.longitude.isFinite] at hsame
  have hφ : value (toRadians b.latitude) = value (toRadians a.latitude) := by
    have hrounds := mul_rounds ha.latitude.isFinite (y := pi / 180.0) rfl
    have hrounds' := mul_rounds hb.latitude.isFinite (y := pi / 180.0) rfl
    rw [← hsame.1] at hrounds'
    exact (hrounds'.value_eq hlatitude'.isFinite).trans (hrounds.value_eq hlatitude.isFinite).symm
  have hnorth := sub_rounds hlatitude'.isFinite hlatitude.isFinite
  rw [hφ, sub_self] at hnorth
  have heast := sub_rounds hb.longitude.isFinite ha.longitude.isFinite
  rw [hsame.2, sub_self] at heast
  have heast : IsZero (toRadians (b.longitude - a.longitude)) := by
    rcases heast.isZero with hzero | hzero <;> rw [hzero]
    · exact .inl rfl
    · exact .inr rfl
  have hcos := (h.cos _ hlatitude.isFinite).mul (h.cos _ hlatitude'.isFinite) rfl
  have hsin := isZero_sin_half h heast
  have hside := IsZero.mul (IsZero.mul hcos.isFinite hsin).isFinite.1 hsin
  unfold haversine
  rcases hside with hz | hz <;> rw [hz] <;>
    rcases isZero_sin_half h hnorth.isZero with hz | hz <;> rw [hz] <;> rfl

theorem centralAngle_same (h : AngleBounds) (ha : a.Accepted) (hb : b.Accepted)
    (hsame : a.same b = true) : centralAngle a b = 0.0 := by
  have hroot : sqrt (0.0 : Float) = 0.0 := by decide +kernel
  have hroot' : sqrt (1.0 : Float) = 1.0 := by decide +kernel
  rw [centralAngle_eq_haversine, haversine_same h ha hb hsame,
    show (clamp 0.0 1.0 0.0 : Float) = 0.0 by rfl, show (1.0 - 0.0 : Float) = 1.0 by rfl, hroot,
    hroot', h.atan2_zero]
  rfl

/-- What holds of the azimuths and angles of two places. -/
structure WellFormed (a b : Coordinate Float) : Prop where
  departure : 0.0 ≤ departureAzimuth a b ∧ departureAzimuth a b < 360.0
  arrival : 0.0 ≤ arrivalAzimuth a b ∧ arrivalAzimuth a b < 360.0
  loxodrome : 0.0 ≤ loxodromeAzimuth a b ∧ loxodromeAzimuth a b < 360.0
  same : a.same b = true → departureAzimuth a b = 0.0 ∧ arrivalAzimuth a b = 0.0 ∧
    loxodromeAzimuth a b = 0.0 ∧ centralAngle a b = 0.0
  central : 0.0 ≤ centralAngle a b ∧ centralAngle a b ≤ pi
  central_comm : centralAngle a b = centralAngle b a
  loxodromeAngle : (loxodromeAngle a b).isFinite = true ∧ 0.0 ≤ loxodromeAngle a b

/-- No accepted places make an azimuth or an angle fail. -/
theorem wellFormed_of_accepted (h : AngleBounds) (ha : a.Accepted) (hb : b.Accepted) :
    WellFormed a b where
  departure := departureAzimuth_mem h.toCircularBounds ha hb
  arrival := arrivalAzimuth_mem h.toCircularBounds ha hb
  loxodrome := loxodromeAzimuth_mem h ha hb
  same hsame := by
    refine ⟨?_, ?_, ?_, centralAngle_same h ha hb hsame⟩
    · exact if_pos hsame
    · exact if_pos hsame
    · exact if_pos hsame
  central := ⟨(centralAngle_between h ha hb).left, (centralAngle_between h ha hb).right⟩
  central_comm := by
    rw [centralAngle_eq_haversine, centralAngle_eq_haversine, haversine_comm h ha hb]
  loxodromeAngle := loxodromeAngle_nonneg h.toCircularBounds ha hb

end

theorem angleBounds_fewAngles : @AngleBounds fewAngles := by
  refine @AngleBounds.mk fewAngles circularBounds_fewAngles (by decide +kernel)
    (fun _ hx => oddly_neg _ hx) (by decide +kernel) ?_ ?_ (by decide +kernel) ?_
  · intro x hx _
    unfold tan
    dsimp only
    split_ifs with hzero
    · rw [hzero] at hx
      exact absurd hx (by decide)
    · exact ⟨by decide, rfl⟩
    · exact ⟨by decide, rfl⟩
  · intro x _
    unfold log
    dsimp only
    split_ifs <;> rfl
  · intro y x hy _ _
    unfold atan2
    dsimp only
    split_ifs with _ hsouth _ hwest
    all_goals try exact ⟨rfl, rfl, by decide, by decide⟩
    · rw [hsouth.1] at hy
      exact absurd hy.left (by decide)
    · rw [hwest.1] at hy
      exact absurd hy.left (by decide)

/-- From the south pole to the other side of the antimeridian: the chart has an infinite latitude
there, and the difference of longitudes is a full turn. -/
theorem wellFormed_of_accepted_southPole :
    @AngleBounds fewAngles ∧ southPole.Accepted ∧ dateLine.Accepted ∧
      @WellFormed fewAngles southPole dateLine ∧
      @stretchedNorth Float _ fewAngles southPole dateLine = 1.0 / 0.0 ∧
      @loxodromeAngle Float _ fewAngles southPole dateLine = pi / 2.0 :=
  ⟨angleBounds_fewAngles, southPole_accepted, dateLine_accepted,
    @wellFormed_of_accepted _ _ fewAngles angleBounds_fewAngles southPole_accepted
      dateLine_accepted, by decide +kernel, by decide +kernel⟩

end Sphere
end GeoAlmanac
