import GeoAlmanac.Proofs.Sphere.LoxodromeCourse

/-! Longitudes that differ by whole turns name one meridian; among the longitudes of places the
antimeridian alone has two names. No formula of the sphere tells the names apart. -/

namespace GeoAlmanac
open scoped Real

theorem Angle.wrapSigned_add_turns (x : ℝ) (n : ℤ) : wrapSigned (x + 360 * n) = wrapSigned x := by
  unfold wrapSigned
  rw [add_right_comm, wrap_add_turns]

namespace Coordinate

/-- The same place, its longitude written a number of whole turns farther east. -/
noncomputable def turned (a : Coordinate ℝ) (n : ℤ) : Coordinate ℝ :=
  ⟨a.latitude, a.longitude + (360 * n : ℤ)⟩

@[simp] theorem latitude_turned (a : Coordinate ℝ) (n : ℤ) :
    (a.turned n).latitude = a.latitude := rfl

@[simp] theorem longitude_turned (a : Coordinate ℝ) (n : ℤ) :
    (a.turned n).longitude = a.longitude + 360 * n := by
  simp [turned]

theorem unitVector_turned (a : Coordinate ℝ) (n : ℤ) :
    (a.turned n).unitVector = a.unitVector := by
  simp only [unitVector, latitude_turned, longitude_turned, toRadians_add, toRadians_turns,
    Real.cos_add_int_mul_two_pi, Real.sin_add_int_mul_two_pi]

theorem toRadians_sub_turned (a b : Coordinate ℝ) (m n : ℤ) :
    toRadians ((b.turned n).longitude - (a.turned m).longitude) =
      toRadians (b.longitude - a.longitude) + (n - m : ℤ) * (2 * π) := by
  rw [← toRadians_turns, ← toRadians_add]
  simp only [longitude_turned]
  congr 1
  push_cast
  ring

end Coordinate

namespace Sphere

theorem view_turned (a b : Coordinate ℝ) (m n : ℤ) : view (a.turned m) (b.turned n) = view a b := by
  simp only [view, Coordinate.toRadians_sub_turned, Coordinate.latitude_turned,
    Real.cos_add_int_mul_two_pi, Real.sin_add_int_mul_two_pi]

theorem centralAngle_turned (a b : Coordinate ℝ) (m n : ℤ) :
    centralAngle (a.turned m) (b.turned n) = centralAngle a b := by
  rw [centralAngle_eq, centralAngle_eq, view_turned]

/-- Between equal points the azimuth of departure is the direction of a view straight up, which has
no horizontal part. -/
theorem departureAzimuth_eq_direction (a b : Coordinate ℝ) :
    departureAzimuth a b = Angle.wrap (toDegrees (atan2 (view a b).east (view a b).north)) := by
  cases h : a.same b with
  | false => exact departureAzimuth_eq h
  | true =>
    have hup := up_of_same h
    have hunit := view_unit a b
    have heast : (view a b).east = 0 := by nlinarith [sq_nonneg (view a b).north]
    have hnorth : (view a b).north = 0 := by nlinarith [sq_nonneg (view a b).east]
    have horigin : atan2 (0 : ℝ) 0 = 0 := Complex.arg_zero
    have hnone : departureAzimuth a b = 0 := by
      unfold departureAzimuth
      rw [if_pos h]
      norm_num
    rw [hnone, heast, hnorth, horigin, toDegrees_eq, zero_mul,
      Angle.wrap_of_mem le_rfl (by norm_num)]

theorem departureAzimuth_turned (a b : Coordinate ℝ) (m n : ℤ) :
    departureAzimuth (a.turned m) (b.turned n) = departureAzimuth a b := by
  rw [departureAzimuth_eq_direction, departureAzimuth_eq_direction, view_turned]

theorem arrivalAzimuth_turned {a b : Coordinate ℝ} (h : a.unitVector ≠ b.unitVector) (m n : ℤ) :
    arrivalAzimuth (a.turned m) (b.turned n) = arrivalAzimuth a b := by
  have hturned : (a.turned m).unitVector ≠ (b.turned n).unitVector := by
    rwa [Coordinate.unitVector_turned, Coordinate.unitVector_turned]
  unfold arrivalAzimuth
  rw [Coordinate.same_eq_false h, Coordinate.same_eq_false hturned, departureAzimuth_turned]

theorem chordSum_turned (a b : Coordinate ℝ) (m n : ℤ) :
    chordSum (a.turned m) (b.turned n) = chordSum a b := by
  simp only [chordSum, sin_eq, cos_eq, Coordinate.toRadians_sub_turned, Coordinate.latitude_turned,
    Real.cos_add_int_mul_two_pi, Real.sin_add_int_mul_two_pi]

theorem wrapSigned_turned (a : Coordinate ℝ) (n : ℤ) (east : ℝ) :
    Angle.wrapSigned (toDegrees (toRadians (a.turned n).longitude + east)) =
      Angle.wrapSigned (toDegrees (toRadians a.longitude + east)) := by
  rw [Coordinate.longitude_turned, toRadians_add, toRadians_turns, add_right_comm, toDegrees_add,
    toDegrees_turns, Angle.wrapSigned_add_turns]

theorem midpoint?_turned (a b : Coordinate ℝ) (m n : ℤ) :
    midpoint? (a.turned m) (b.turned n) = midpoint? a b := by
  unfold midpoint?
  simp only [chordSum_turned, wrapSigned_turned]

theorem destination_turned (start : Coordinate ℝ) (n : ℤ) (azimuth angle : ℝ) :
    destination (start.turned n) azimuth angle = destination start azimuth angle := by
  unfold destination
  simp only [wrapSigned_turned, Coordinate.latitude_turned]

/-- The shorter way east is known up to its sign from the meridians; half a turn leads to the
opposite one both ways. -/
theorem abs_shorterEast_turned {a b : Coordinate ℝ} {m n : ℤ} (ha : |a.longitude| ≤ 180)
    (hb : |b.longitude| ≤ 180) (ha' : |(a.turned m).longitude| ≤ 180)
    (hb' : |(b.turned n).longitude| ≤ 180) :
    |shorterEast (a.turned m) (b.turned n)| = |shorterEast a b| := by
  have hcos : Real.cos (shorterEast (a.turned m) (b.turned n)) = Real.cos (shorterEast a b) := by
    obtain ⟨i, hi⟩ := exists_shorterEast_eq a b
    obtain ⟨j, hj⟩ := exists_shorterEast_eq (a.turned m) (b.turned n)
    rw [hi, hj, Coordinate.toRadians_sub_turned, Real.cos_add_int_mul_two_pi,
      Real.cos_add_int_mul_two_pi, Real.cos_add_int_mul_two_pi]
  rw [← Real.cos_abs, ← Real.cos_abs (shorterEast a b)] at hcos
  exact Real.injOn_cos ⟨abs_nonneg _, abs_shorterEast_le ha' hb'⟩
    ⟨abs_nonneg _, abs_shorterEast_le ha hb⟩ hcos

theorem loxodromeScale_turned (a b : Coordinate ℝ) (m n : ℤ) :
    loxodromeScale (a.turned m) (b.turned n) = loxodromeScale a b := rfl

theorem loxodromeAngle_turned {a b : Coordinate ℝ} {m n : ℤ} (ha : |a.longitude| ≤ 180)
    (hb : |b.longitude| ≤ 180) (ha' : |(a.turned m).longitude| ≤ 180)
    (hb' : |(b.turned n).longitude| ≤ 180) :
    loxodromeAngle (a.turned m) (b.turned n) = loxodromeAngle a b := by
  have heast := abs_shorterEast_turned ha hb ha' hb'
  rw [loxodromeAngle_eq, loxodromeAngle_eq, loxodromeScale_turned, mul_pow, mul_pow,
    ← sq_abs (shorterEast _ _), heast, sq_abs]
  rfl

/-- Whole turns of a longitude change no angle, azimuth or point on great circles, and no angle on
loxodromes as long as both longitudes are those of places. Only the azimuth of arrival needs two
different points. -/
theorem spelling_of_longitudes (a b : Coordinate ℝ) (m n : ℤ) :
    centralAngle (a.turned m) (b.turned n) = centralAngle a b ∧
      departureAzimuth (a.turned m) (b.turned n) = departureAzimuth a b ∧
      (a.unitVector ≠ b.unitVector →
        arrivalAzimuth (a.turned m) (b.turned n) = arrivalAzimuth a b) ∧
      midpoint? (a.turned m) (b.turned n) = midpoint? a b ∧
      (∀ azimuth angle : ℝ,
        destination (a.turned m) azimuth angle = destination a azimuth angle) ∧
      (|a.longitude| ≤ 180 → |b.longitude| ≤ 180 → |(a.turned m).longitude| ≤ 180 →
        |(b.turned n).longitude| ≤ 180 →
          loxodromeAngle (a.turned m) (b.turned n) = loxodromeAngle a b) :=
  ⟨centralAngle_turned a b m n, departureAzimuth_turned a b m n,
    fun h => arrivalAzimuth_turned h m n, midpoint?_turned a b m n, destination_turned a m,
    loxodromeAngle_turned⟩

/-- From the antimeridian, spelled either way, to the prime meridian. -/
theorem spelling_of_longitudes_antimeridian :
    (⟨60, 180⟩ : Coordinate ℝ).unitVector ≠ (⟨-30, 0⟩ : Coordinate ℝ).unitVector ∧
      arrivalAzimuth (⟨60, -180⟩ : Coordinate ℝ) ⟨-30, 0⟩ = arrivalAzimuth ⟨60, 180⟩ ⟨-30, 0⟩ ∧
      |(180 : ℝ)| ≤ 180 ∧ |(-180 : ℝ)| ≤ 180 ∧ |(0 : ℝ)| ≤ 180 ∧
      loxodromeAngle (⟨60, -180⟩ : Coordinate ℝ) ⟨-30, 0⟩ = loxodromeAngle ⟨60, 180⟩ ⟨-30, 0⟩ := by
  have hwest : (⟨60, 180⟩ : Coordinate ℝ).turned (-1) = ⟨60, -180⟩ := by
    norm_num [Coordinate.turned]
  have hzero : (⟨-30, 0⟩ : Coordinate ℝ).turned 0 = ⟨-30, 0⟩ := by
    norm_num [Coordinate.turned]
  have hne := Coordinate.unitVector_ne_of_latitude (a := ⟨60, 180⟩) (b := ⟨-30, 0⟩)
    (by norm_num [abs_le]) (by norm_num [abs_le]) (by norm_num)
  have hhalf : |(180 : ℝ)| ≤ 180 := by norm_num
  have hnone : |(0 : ℝ)| ≤ 180 := by norm_num
  obtain ⟨-, -, harrival, -, -, hangle⟩ := spelling_of_longitudes ⟨60, 180⟩ ⟨-30, 0⟩ (-1) 0
  rw [hwest, hzero] at harrival hangle
  have hhalf' : |(-180 : ℝ)| ≤ 180 := by norm_num
  exact ⟨hne, harrival hne, hhalf, hhalf', hnone, hangle hhalf hnone hhalf' hnone⟩

end Sphere
end GeoAlmanac
