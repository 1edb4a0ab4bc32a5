import GeoAlmanac.Proofs.Sphere.Midpoint

/-! Courses along great circles, read over the reals. A course goes on past any place by the azimuth
of arrival there. It cannot be laid from a pole: the place reached lies on the meridian of the start,
whatever the azimuth. -/

namespace GeoAlmanac
open scoped Real

/-- The unit vector toward an azimuth, along the horizon of a place. -/
noncomputable def Coordinate.heading (a : Coordinate ℝ) (azimuth : ℝ) :
    EuclideanSpace ℝ (Fin 3) :=
  (Sphere.LocalView.unitVector a
    ⟨0, Real.sin (toRadians azimuth), Real.cos (toRadians azimuth)⟩).toEuclidean

namespace Sphere

theorem toEuclidean_polar (a : Coordinate ℝ) (azimuth angle : ℝ) :
    (LocalView.unitVector a
      { up := Real.cos angle
        east := Real.sin angle * Real.sin (toRadians azimuth)
        north := Real.sin angle * Real.cos (toRadians azimuth) }).toEuclidean =
      Real.cos angle • a.direction + Real.sin angle • a.heading azimuth := by
  unfold Coordinate.direction Coordinate.heading LocalView.unitVector Coordinate.unitVector
  rw [Vector3.smul_toEuclidean, Vector3.smul_toEuclidean, Vector3.add_toEuclidean]
  simp only
  congr 2 <;> ring

theorem direction_destination {start : Coordinate ℝ} (h : |start.latitude| < 90)
    (azimuth angle : ℝ) :
    (destination start azimuth angle).direction =
      Real.cos angle • start.direction + Real.sin angle • start.heading azimuth := by
  rw [← toEuclidean_polar, ← view_destination h, unitVector_view]
  rfl

theorem direction_eq_course (a b : Coordinate ℝ) :
    b.direction = Real.cos (centralAngle a b) • a.direction +
      Real.sin (centralAngle a b) • a.heading (departureAzimuth a b) := by
  rw [← toEuclidean_polar, ← view_eq_polar, unitVector_view]
  rfl

theorem heading_wrap (a : Coordinate ℝ) (azimuth : ℝ) :
    a.heading (Angle.wrap azimuth) = a.heading azimuth := by
  unfold Coordinate.heading
  rw [Angle.wrap_eq, toRadians_sub, toRadians_turns, Real.sin_sub_int_mul_two_pi,
    Real.cos_sub_int_mul_two_pi]

theorem heading_half_turn (a : Coordinate ℝ) (azimuth : ℝ) :
    a.heading (azimuth + 180) = -a.heading azimuth := by
  rw [← neg_one_smul ℝ (a.heading azimuth)]
  unfold Coordinate.heading LocalView.unitVector
  rw [Vector3.smul_toEuclidean, toRadians_add, toRadians_half, Real.sin_add_pi, Real.cos_add_pi]
  simp only
  congr 2 <;> ring

theorem heading_arrivalAzimuth {a b : Coordinate ℝ} (h : a.same b = false) :
    b.heading (arrivalAzimuth a b) = -b.heading (departureAzimuth b a) := by
  have harrival : arrivalAzimuth a b = Angle.wrap (departureAzimuth b a + 180) := by
    unfold arrivalAzimuth
    rw [h, ← azimuth_eq]
    norm_num
  rw [harrival, heading_wrap, heading_half_turn]

theorem centralAngle_opposite (a b : Coordinate ℝ) :
    centralAngle a (opposite b) = π - centralAngle a b := by
  rw [centralAngle_eq_angle, centralAngle_eq_angle, direction_opposite,
    InnerProductGeometry.angle_neg_right]

theorem sin_centralAngle_pos {a b : Coordinate ℝ} (hne : a.unitVector ≠ b.unitVector)
    (hopposite : a.unitVector ≠ (opposite b).unitVector) : 0 < Real.sin (centralAngle a b) := by
  have hpos : centralAngle a b ≠ 0 := mt centralAngle_eq_zero.mp hne
  have hlt : π - centralAngle a b ≠ 0 := by
    rw [← centralAngle_opposite]
    exact mt centralAngle_eq_zero.mp hopposite
  apply Real.sin_pos_of_pos_of_lt_pi
  · exact (centralAngle_nonneg a b).lt_of_ne' hpos
  · exact (centralAngle_le_pi a b).lt_of_ne (sub_ne_zero.mp hlt).symm

theorem heading_arrival {a b : Coordinate ℝ} (hne : a.unitVector ≠ b.unitVector)
    (hopposite : a.unitVector ≠ (opposite b).unitVector) :
    b.heading (arrivalAzimuth a b) =
      Real.cos (centralAngle a b) • a.heading (departureAzimuth a b) -
        Real.sin (centralAngle a b) • a.direction := by
  have hforth := direction_eq_course a b
  have hback := direction_eq_course b a
  rw [centralAngle_comm b a, ← sub_eq_iff_eq_add'] at hback
  have hunit := Real.sin_sq_add_cos_sq (centralAngle a b)
  have hsin := sin_centralAngle_pos hne hopposite
  generalize centralAngle a b = δ at *
  apply smul_right_injective _ hsin.ne'
  simp only
  rw [heading_arrivalAzimuth (Coordinate.same_eq_false hne), smul_neg, ← hback, hforth]
  match_scalars
  · linear_combination hunit
  · ring

/-- A course goes on past a place by the azimuth of arrival there. -/
theorem arrival_goes_on {a b : Coordinate ℝ} (ha : |a.latitude| < 90) (hb : |b.latitude| < 90)
    (hne : a.unitVector ≠ b.unitVector) (hopposite : a.unitVector ≠ (opposite b).unitVector)
    (further : ℝ) :
    (destination b (arrivalAzimuth a b) further).unitVector =
      (destination a (departureAzimuth a b) (centralAngle a b + further)).unitVector := by
  have hforth := direction_eq_course a b
  rw [← Coordinate.direction_eq_iff, direction_destination hb, direction_destination ha,
    heading_arrival hne hopposite, hforth, Real.cos_add, Real.sin_add]
  module

/-- Over the pole to the eightieth parallel on its other side, and on for a quarter turn. -/
theorem arrival_goes_on_over_pole :
    |(⟨60, 170⟩ : Coordinate ℝ).latitude| < 90 ∧ |(⟨80, -10⟩ : Coordinate ℝ).latitude| < 90 ∧
      (⟨60, 170⟩ : Coordinate ℝ).unitVector ≠ (⟨80, -10⟩ : Coordinate ℝ).unitVector ∧
      (⟨60, 170⟩ : Coordinate ℝ).unitVector ≠ (opposite ⟨80, -10⟩).unitVector ∧
      (destination ⟨80, -10⟩ (arrivalAzimuth ⟨60, 170⟩ ⟨80, -10⟩) (π / 2)).unitVector =
        (destination ⟨60, 170⟩ (departureAzimuth ⟨60, 170⟩ ⟨80, -10⟩)
          (centralAngle ⟨60, 170⟩ ⟨80, -10⟩ + π / 2)).unitVector := by
  have hsixty : |(⟨60, 170⟩ : Coordinate ℝ).latitude| < 90 := by norm_num [abs_lt]
  have heighty : |(⟨80, -10⟩ : Coordinate ℝ).latitude| < 90 := by norm_num [abs_lt]
  have hsouth : |(opposite ⟨80, -10⟩).latitude| ≤ 90 := by norm_num [opposite, abs_le]
  have hne := Coordinate.unitVector_ne_of_latitude hsixty.le heighty.le (by norm_num)
  have hopposite := Coordinate.unitVector_ne_of_latitude hsixty.le hsouth (by norm_num [opposite])
  exact ⟨hsixty, heighty, hne, hopposite, arrival_goes_on hsixty heighty hne hopposite _⟩

theorem sin_sq_pole {a : Coordinate ℝ} (h : |a.latitude| = 90) :
    Real.sin (toRadians a.latitude) ^ 2 = 1 := by
  rw [Real.sin_sq, Coordinate.cos_latitude_pole h]
  norm_num

/-- From a pole the azimuth does not matter to the longitude reached. Where the parallel of the start
has no length, neither the eastward nor the outward component that the longitude is read from is
left. -/
theorem longitude_destination_pole {start : Coordinate ℝ} (h : |start.latitude| = 90)
    (azimuth angle : ℝ) :
    (destination start azimuth angle).longitude = Angle.wrapSigned start.longitude := by
  have hcos := Coordinate.cos_latitude_pole h
  have hsin := sin_sq_pole h
  have houtward : Real.cos angle - Real.sin (toRadians start.latitude) *
      (Real.sin (toRadians start.latitude) * Real.cos angle) = 0 := by
    linear_combination -Real.cos angle * hsin
  have horigin : atan2 (0 : ℝ) 0 = 0 := Complex.arg_zero
  unfold destination
  simp only [sin_eq, cos_eq, hcos, zero_mul, mul_zero, add_zero, houtward, horigin,
    toDegrees_toRadians]

theorem latitude_course_pole {start finish : Coordinate ℝ} (h : |start.latitude| = 90)
    (hfinish : |finish.latitude| ≤ 90) (azimuth : ℝ) :
    (destination start azimuth (centralAngle start finish)).latitude = finish.latitude := by
  have hcos := Coordinate.cos_latitude_pole h
  have hsin := sin_sq_pole h
  obtain ⟨hl, hu⟩ := abs_le.mp (abs_up_le_one start finish)
  have hreached : sinReached start azimuth (centralAngle start finish) =
      Real.sin (toRadians finish.latitude) := by
    unfold sinReached
    rw [centralAngle_eq, Real.cos_arccos hl hu, hcos]
    unfold view
    dsimp only
    rw [hcos]
    linear_combination Real.sin (toRadians finish.latitude) * hsin
  obtain ⟨hsouth, hnorth⟩ := Coordinate.latitude_mem hfinish
  have hlatitude := latitude_destination start azimuth (centralAngle start finish)
  rw [hreached, Real.arcsin_sin hsouth hnorth] at hlatitude
  simpa using congrArg toDegrees hlatitude

theorem course_from_pole {start finish : Coordinate ℝ} (h : |start.latitude| = 90)
    (hfinish : |finish.latitude| ≤ 90) :
    destination start (departureAzimuth start finish) (centralAngle start finish) =
      ⟨finish.latitude, Angle.wrapSigned start.longitude⟩ := by
  rw [← latitude_course_pole h hfinish (departureAzimuth start finish),
    ← longitude_destination_pole h (departureAzimuth start finish) (centralAngle start finish)]

/-- A course laid from a pole leads to the parallel of its end, but along the meridian that the pole is
written with: it arrives exactly at the places of that meridian. -/
theorem course_from_pole_arrives_iff {start finish : Coordinate ℝ} (h : |start.latitude| = 90)
    (hfinish : |finish.latitude| < 90) :
    destination start (departureAzimuth start finish) (centralAngle start finish) =
        ⟨finish.latitude, Angle.wrapSigned start.longitude⟩ ∧
      ((destination start (departureAzimuth start finish)
          (centralAngle start finish)).unitVector = finish.unitVector ↔
        ∃ n : ℤ, finish.longitude = start.longitude + 360 * n) := by
  have hreached := course_from_pole h hfinish.le
  refine ⟨hreached, ?_⟩
  have hparallel : |(⟨finish.latitude, Angle.wrapSigned start.longitude⟩ : Coordinate ℝ).latitude| <
    90 := hfinish
  obtain ⟨k, hk⟩ := Angle.exists_wrapSigned_eq start.longitude
  rw [hreached, Coordinate.unitVector_eq_iff hparallel.le hfinish.le]
  constructor
  · rintro ⟨_, hmeridian⟩
    obtain ⟨n, hn⟩ := hmeridian hparallel
    refine ⟨k + n, ?_⟩
    push_cast
    linarith
  · rintro ⟨n, hn⟩
    refine ⟨rfl, fun _ => ⟨n - k, ?_⟩⟩
    push_cast
    linarith

/-- From the south pole up the antimeridian, written with the other sign at the end. -/
theorem course_from_pole_arrives_antimeridian :
    |(⟨-90, 180⟩ : Coordinate ℝ).latitude| = 90 ∧ |(⟨45, -180⟩ : Coordinate ℝ).latitude| < 90 ∧
      (destination ⟨-90, 180⟩ (departureAzimuth ⟨-90, 180⟩ ⟨45, -180⟩)
        (centralAngle ⟨-90, 180⟩ ⟨45, -180⟩)).unitVector =
          (⟨45, -180⟩ : Coordinate ℝ).unitVector := by
  have hpole : |(⟨-90, 180⟩ : Coordinate ℝ).latitude| = 90 := by norm_num
  have hlat : |(⟨45, -180⟩ : Coordinate ℝ).latitude| < 90 := by norm_num [abs_lt]
  obtain ⟨_, harrives⟩ := course_from_pole_arrives_iff hpole hlat
  exact ⟨hpole, hlat, harrives.mpr ⟨-1, by norm_num⟩⟩

/-- The course laid from the north pole to a place on the sixtieth meridian leads down the zeroth. -/
theorem course_from_pole_misses :
    |(⟨90, 0⟩ : Coordinate ℝ).latitude| = 90 ∧ |(⟨45, 60⟩ : Coordinate ℝ).latitude| < 90 ∧
      destination ⟨90, 0⟩ (departureAzimuth ⟨90, 0⟩ ⟨45, 60⟩)
        (centralAngle ⟨90, 0⟩ ⟨45, 60⟩) = (⟨45, 0⟩ : Coordinate ℝ) ∧
      (destination ⟨90, 0⟩ (departureAzimuth ⟨90, 0⟩ ⟨45, 60⟩)
        (centralAngle ⟨90, 0⟩ ⟨45, 60⟩)).unitVector ≠ (⟨45, 60⟩ : Coordinate ℝ).unitVector := by
  have hpole : |(⟨90, 0⟩ : Coordinate ℝ).latitude| = 90 := by norm_num
  have hlat (l : ℝ) : |(⟨45, l⟩ : Coordinate ℝ).latitude| < 90 := by norm_num [abs_lt]
  have hzero : Angle.wrapSigned (0 : ℝ) = 0 := by
    unfold Angle.wrapSigned
    rw [Angle.wrap_of_mem (by norm_num) (by norm_num)]
    norm_num
  have hreached := course_from_pole hpole (hlat 60).le
  simp only [hzero] at hreached
  refine ⟨hpole, hlat 60, hreached, ?_⟩
  rw [hreached]
  intro harrives
  obtain ⟨_, hmeridian⟩ := (Coordinate.unitVector_eq_iff (hlat 0).le (hlat 60).le).mp harrives
  obtain ⟨n, hn⟩ := hmeridian (hlat 0)
  have hsixth : 6 * n = 1 := by
    have hreal : (6 * n : ℝ) = 1 := by
      dsimp only at hn
      linarith
    exact_mod_cast hreal
  omega

end Sphere
end GeoAlmanac
