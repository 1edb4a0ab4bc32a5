import GeoAlmanac.Proofs.Sun.ComputedAscension
import GeoAlmanac.Proofs.Sun.DayArc
import GeoAlmanac.Proofs.Sun.Minutes

/-! A crossing in binary64, next to the same search over the reals. Its cosine of the hour angle all
but solves the equation of the height, and the minute on the clock is the one that this cosine, the
equation of time and the longitude give, up to whole days. -/

namespace GeoAlmanac
open Binary64
open scoped Real

theorem value_fifteen : value 15.0 = 15 :=
  (ofInt_natCast (n := 15) (by decide)).2

theorem value_day : value 24.0 = 24 :=
  (ofInt_natCast (n := 24) (by decide)).2

theorem near_day : Near 24.0 (24 : ℝ) 6e-14 :=
  near_decimal 240 1 (by norm_num) (by norm_num)

/-- The hour angle of a crossing whose cosine is known, in degrees. -/
noncomputable def Phase.hourAngle (c : ℝ) : Phase → ℝ
  | .sunrise => 360.0 - halfArc c
  | .sunset => halfArc c

theorem Phase.hourAngle_bounds (phase : Phase) (c : ℝ) :
    0 ≤ phase.hourAngle c ∧ phase.hourAngle c ≤ 360 := by
  obtain ⟨hl, hu⟩ := halfArc_bounds c
  cases phase <;> constructor <;> simp only [Phase.hourAngle] <;> linarith

theorem Zenith.degrees_near (z : Zenith) : Near z.degrees (z.degrees : ℝ) 6e-14 := by
  have hsmall : |(z.degrees : ℝ)| ≤ 1000 := by cases z <;> norm_num [Zenith.degrees]
  cases z with
  | official => exact near_decimal 908889 4 (by norm_num [Zenith.degrees]) hsmall
  | civil => exact near_decimal 960 1 (by norm_num [Zenith.degrees]) hsmall
  | nautical => exact near_decimal 1020 1 (by norm_num [Zenith.degrees]) hsmall
  | astronomical => exact near_decimal 1080 1 (by norm_num [Zenith.degrees]) hsmall

theorem Phase.localHour_near (phase : Phase) :
    Near phase.localHour (phase.localHour : ℝ) 6e-14 := by
  have hsmall : |(phase.localHour : ℝ)| ≤ 1000 := by cases phase <;> norm_num [Phase.localHour]
  cases phase with
  | sunrise => exact near_decimal 60 1 (by norm_num [Phase.localHour]) hsmall
  | sunset => exact near_decimal 180 1 (by norm_num [Phase.localHour]) hsmall

theorem Phase.localHour_bounds (phase : Phase) :
    (6 : ℝ) ≤ phase.localHour ∧ (phase.localHour : ℝ) ≤ 18 := by
  cases phase <;> norm_num [Phase.localHour]

theorem Date.dayNumber_near (date : Date) :
    Near (Arithmetic.ofInt date.dayNumber) date.dayNumber 0 := by
  obtain ⟨hl, hu⟩ := date.dayNumber_bounds
  obtain ⟨n, hn⟩ := Int.eq_ofNat_of_zero_le (show 0 ≤ date.dayNumber by omega)
  obtain ⟨hfinite, hvalue⟩ := ofInt_natCast (n := n) (by omega)
  rw [hn]
  exact ⟨hfinite, by rw [Int.cast_natCast, ← hvalue]; exact (near_value hfinite).close⟩

namespace Sun

theorem sinDeclination_add_turns (longitude : ℝ) (n : ℤ) :
    sinDeclination (longitude + 360 * n) = sinDeclination longitude := by
  unfold sinDeclination
  rw [sin_eq, sin_eq, toRadians_add, toRadians_turns, Real.sin_add_int_mul_two_pi]

end Sun

namespace Search

/-- The same search over the reals. -/
noncomputable def exact (s : Search Float) : Search ℝ :=
  ⟨⟨value s.place.latitude, value s.place.longitude⟩, s.date, s.zenith, s.phase⟩

/-- The right ascension is within three degrees of the longitude, as it is unless a quadrant was
lost to rounding. -/
structure FollowsLongitude [Elementary Float] (s : Search Float) : Prop where
  close : |15 * value (Sun.rightAscension s.trueLongitude) - value s.trueLongitude| < 3

/-- The hours after midnight at which the sun crosses at an hour angle of this cosine. -/
noncomputable def clock (s : Search ℝ) (c : ℝ) : ℝ :=
  (s.phase.hourAngle c + 180.0 + Sun.equationOfTime s.day - s.place.longitude) / 15.0

theorem clock_eq (s : Search ℝ) (c : ℝ) (n : ℤ) : s.phase.hourAngle c / 15 +
    (Sun.rightAscension (Sun.unreduced s.day) + 24 * n) - 0.06571 * s.day - 6.622 -
      s.place.longitude / 15 = s.clock c + 24 * n := by
  have hascension := Sun.rightAscension_eq_sub (Sun.unreduced s.day)
  have hlongitude : Sun.unreduced s.day = 0.9856 * s.day + 279.345 + Sun.centre s.day := rfl
  rw [clock, Sun.equationOfTime_eq]
  linarith

section
variable [Elementary Float] (h : Sun.AccurateFunctions) {s : Search Float}
include h

theorem hourAngle_near (hfinite : s.cosHourAngle.isFinite = true)
    (hc : |value s.cosHourAngle| ≤ 1) :
    Near s.hourAngle (s.exact.phase.hourAngle (value s.cosHourAngle)) 1e-12 := by
  have hπ := Real.pi_lt_d2
  have hsmall {x : Float} : |Real.arccos (value x)| ≤ 4 := abs_le.mpr
    ⟨by linarith [Real.arccos_nonneg (value x)], by linarith [Real.arccos_le_pi (value x)]⟩
  have harc := Sun.toDegrees_near (δ := 8e-13) ((h.acos _ hfinite hc).near hsmall) hsmall
    (by norm_num) (by norm_num)
  obtain ⟨hl, hu⟩ := halfArc_bounds (value s.cosHourAngle)
  change Near s.hourAngle (s.phase.hourAngle _) _
  unfold hourAngle
  cases s.phase with
  | sunset => exact harc.weaken (by norm_num)
  | sunrise =>
    have hturn : Near 360.0 (360.0 : ℝ) 6e-14 := near_decimal 3600 1 (by norm_num) (by norm_num)
    have hsize : |360.0 - halfArc (value s.cosHourAngle)| ≤ 1000 :=
      abs_le.mpr ⟨by linarith, by linarith⟩
    exact hturn.sub harc hsize (by norm_num) (by norm_num)

/-- A half arc of all but a half turn brings the crossing to the lower culmination. -/
theorem hourAngle_near_midnight (hfinite : s.cosHourAngle.isFinite = true)
    (hc : |value s.cosHourAngle| ≤ 1) (harc : 179.3 ≤ halfArc (value s.cosHourAngle)) :
    |value s.hourAngle - 180| < 1 := by
  obtain ⟨hlow, hhigh⟩ := abs_le.mp (hourAngle_near h hfinite hc).close
  have hhalf := (halfArc_bounds (value s.cosHourAngle)).2
  have hangle : 180 - 0.7 ≤ s.exact.phase.hourAngle (value s.cosHourAngle) ∧
      s.exact.phase.hourAngle (value s.cosHourAngle) ≤ 180 + 0.7 := by
    cases s.exact.phase <;> constructor <;> simp only [Phase.hourAngle] <;> linarith
  rw [abs_lt]
  constructor <;> linarith

theorem rightAscension_near {u : ℝ} (h0 : 0 ≤ value s.trueLongitude)
    (h360 : value s.trueLongitude < 360) {n : ℤ} (hn : Near s.trueLongitude (u + 360 * n) 5e-11)
    (hfollows : s.FollowsLongitude) :
    Near (Sun.rightAscension s.trueLongitude) (Sun.rightAscension u + 24 * n) 6e-12 ∧
      |Sun.rightAscension u + 24 * n| ≤ 25 := by
  obtain ⟨hfinite, hexact⟩ := Sun.rightAscension_near_exact h hn.finite h0 h360 hfollows.close
  have hmoved := (Sun.abs_rightAscension_sub_le (value s.trueLongitude) (u + 360 * n)).trans
    (mul_le_mul_of_nonneg_left hn.close (by norm_num))
  rw [Sun.rightAscension_add_turns] at hmoved
  obtain ⟨hl, hu⟩ := abs_le.mp hexact
  obtain ⟨hl', hu'⟩ := abs_le.mp hmoved
  obtain ⟨hl'', hu''⟩ := abs_le.mp (Sun.rightAscension_near (value s.trueLongitude))
  exact ⟨⟨hfinite, abs_le.mpr ⟨by linarith, by linarith⟩⟩, abs_le.mpr ⟨by linarith, by linarith⟩⟩

end

section
variable {s : Search Float} (hplace : s.place.Accepted)
include hplace

theorem exact_longitude_le : |s.exact.place.longitude| ≤ 180 :=
  value_half_turn ▸ hplace.longitude.abs_value_le

theorem exact_latitude_le : |s.exact.place.latitude| ≤ 90 :=
  Sun.value_right ▸ hplace.latitude.abs_value_le

theorem longitudeHour_near : Near s.longitudeHour (s.exact.place.longitude / 15) 6e-14 := by
  obtain ⟨hl, hu⟩ := abs_le.mp (exact_longitude_le hplace)
  have hlongitude : Near s.place.longitude s.exact.place.longitude 0 :=
    near_value hplace.longitude.isFinite
  exact hlongitude.div_const rfl value_fifteen (by norm_num)
    (abs_le.mpr ⟨by linarith, by linarith⟩) (by norm_num) (by norm_num)

theorem exact_day_le : |s.exact.day| ≤ 368 := by
  obtain ⟨hl, hu⟩ := day_bounds (exact_longitude_le hplace)
  exact abs_le.mpr ⟨by linarith, hu⟩

theorem day_near : Near s.day s.exact.day 3e-13 := by
  have hlongitude := abs_le.mp (exact_longitude_le hplace)
  have hday := abs_le.mp (exact_day_le hplace)
  have hlocal := Phase.localHour_bounds s.phase
  have hhour := s.phase.localHour_near.sub (longitudeHour_near hplace) (δ := 1.8e-13)
    (abs_le.mpr ⟨by linarith, by linarith⟩) (by norm_num) (by norm_num)
  have hfraction := hhour.div_const (y := 24.0) (δ := 2.4e-13) rfl value_day (by norm_num)
    (abs_le.mpr ⟨by linarith, by linarith⟩) (by norm_num) (by norm_num)
  have hexact : s.exact.day = s.date.dayNumber +
      (s.phase.localHour - s.exact.place.longitude / 15) / 24 := day_eq _
  rw [hexact] at hday ⊢
  exact s.date.dayNumber_near.add hfraction (abs_le.mpr ⟨by linarith, by linarith⟩)
    (by norm_num) (by norm_num)

section
variable [Elementary Float] (h : Sun.AccurateFunctions)
include h

theorem trueLongitude_near : 0 ≤ value s.trueLongitude ∧ value s.trueLongitude < 360 ∧
    ∃ n : ℤ, Near s.trueLongitude (Sun.unreduced s.exact.day + 360 * n) 5e-11 :=
  Sun.trueLongitude_near h (day_near hplace) ((exact_day_le hplace).trans (by norm_num))

theorem sinDeclination_near : Near (Sun.sinDeclination s.trueLongitude)
    (Sun.sinDeclination s.exact.trueLongitude) 1e-12 := by
  obtain ⟨h0, h360, n, hn⟩ := trueLongitude_near hplace h
  obtain ⟨hl, hu⟩ := abs_le.mp hn.close
  have hsame : Sun.sinDeclination (Sun.unreduced s.exact.day + 360 * n) =
      Sun.sinDeclination s.exact.trueLongitude := by
    rw [Sun.sinDeclination_add_turns, trueLongitude, Sun.sinDeclination_trueLongitude]
    rfl
  rw [← hsame]
  norm_num at hl hu
  exact Sun.sinDeclination_near h hn (abs_le.mpr ⟨by linarith, by linarith⟩)

/-- The computed cosine of the hour angle all but solves the equation of the height. -/
theorem solves_exact : s.cosHourAngle.isFinite = true ∧
    s.exact.Solves (value (toRadians s.place.latitude)) (value s.cosHourAngle) := by
  obtain ⟨hlow, hhigh⟩ := zenith_bounds s.zenith
  have hlatitude := Sun.cos_latitude_ge hplace.latitude.isFinite (exact_latitude_le hplace)
  obtain ⟨hfinite, hclose⟩ := Sun.cosHourAngle_near h s.zenith.degrees_near
    (abs_le.mpr ⟨by linarith, by linarith⟩) hplace.latitude.isFinite (exact_latitude_le hplace)
    (sinDeclination_near hplace h) (Sun.abs_sinDeclination_le _)
  refine ⟨hfinite, (show (0 : ℝ) ≤ 2 ^ (-55 : ℤ) by positivity).trans hlatitude, ?_⟩
  rw [sin_declination, mul_comm (Real.cos _) (Real.cos s.exact.declination),
    mul_comm (Real.sin _) (Sun.sinDeclination _)]
  exact hclose

/-- Where the right ascension follows the longitude, the time before its reduction to a day is the
one on the clock, up to the turns that the longitude has lost. -/
theorem rawHour_near {n : ℤ} (hn : Near s.trueLongitude (Sun.unreduced s.exact.day + 360 * n) 5e-11)
    (hfollows : s.FollowsLongitude) (hc : |value s.cosHourAngle| ≤ 1) :
    Near s.rawHour (s.exact.clock (value s.cosHourAngle) + 24 * n) 4e-11 ∧
      |s.exact.clock (value s.cosHourAngle) + 24 * n| ≤ 900 := by
  obtain ⟨h0, h360, -⟩ := trueLongitude_near hplace h
  obtain ⟨hascension, hsize⟩ := rightAscension_near h h0 h360 hn hfollows
  have hrate : Near 0.06571 (0.06571 : ℝ) 6e-14 := near_decimal 6571 5 (by norm_num) (by norm_num)
  have hepoch : Near 6.622 (6.622 : ℝ) 6e-14 := near_decimal 6622 3 (by norm_num) (by norm_num)
  obtain ⟨hwest, heast⟩ := abs_le.mp (exact_longitude_le hplace)
  have hday := exact_day_le hplace
  obtain ⟨hangle0, hangle⟩ := s.exact.phase.hourAngle_bounds (value s.cosHourAngle)
  obtain ⟨hsl, hsu⟩ := abs_le.mp hsize
  have hdrift := hrate.mul (day_near hplace) (a := 0.06571) (δ := 2.3e-11) (by norm_num) hday
    (by norm_num) (by norm_num) (by norm_num)
  have hhours := (hourAngle_near h (solves_exact hplace h).1 hc).div_const (y := 15.0)
    (δ := 1.1e-12) rfl value_fifteen (by norm_num)
    (abs_le.mpr ⟨by linarith, by linarith⟩) (by norm_num) (by norm_num)
  obtain ⟨hday, hday'⟩ := abs_le.mp hday
  rw [← clock_eq]
  have hsum := hhours.add hascension (δ := 7.2e-12) (abs_le.mpr ⟨by linarith, by linarith⟩)
    (by norm_num) (by norm_num)
  have hsum := hsum.sub hdrift (δ := 3.1e-11) (abs_le.mpr ⟨by linarith, by linarith⟩)
    (by norm_num) (by norm_num)
  have hsum := hsum.sub hepoch (δ := 3.2e-11) (abs_le.mpr ⟨by linarith, by linarith⟩)
    (by norm_num) (by norm_num)
  have hsize : |s.exact.phase.hourAngle (value s.cosHourAngle) / 15 +
      (Sun.rightAscension (Sun.unreduced s.exact.day) + 24 * n) - 0.06571 * s.exact.day - 6.622 -
        s.exact.place.longitude / 15| ≤ 900 := abs_le.mpr ⟨by linarith, by linarith⟩
  exact ⟨hsum.sub (longitudeHour_near hplace) (hsize.trans (by norm_num)) (by norm_num)
    (by norm_num), hsize⟩

end

end

theorem exists_wrapOnce_near {hour : Float} {r : ℝ} (h : Near hour r 4e-11) (hr : |r| ≤ 900) :
    ∃ n : ℤ, Near (wrapOnce hour) (r + 24 * n) 5e-11 := by
  obtain ⟨hl, hu⟩ := abs_le.mp hr
  unfold wrapOnce
  split_ifs
  · refine ⟨1, ?_⟩
    rw [Int.cast_one, mul_one]
    exact h.add near_day (abs_le.mpr ⟨by linarith, by linarith⟩) (by norm_num) (by norm_num)
  · refine ⟨-1, ?_⟩
    rw [Int.cast_neg, Int.cast_one, mul_neg_one, ← sub_eq_add_neg]
    exact h.sub near_day (abs_le.mpr ⟨by linarith, by linarith⟩) (by norm_num) (by norm_num)
  · refine ⟨0, ?_⟩
    rw [Int.cast_zero, mul_zero, add_zero]
    exact h.weaken (by norm_num)

theorem isHourOfDay_wrapOnce {hour : Float} {r : ℝ} (h : Near hour r 4e-11) {k : ℤ}
    (hk : k = 0 ∨ k = 1) (hl : 0.001 ≤ r + 24 * k) (hu : r + 24 * k ≤ 23.999) :
    isHourOfDay (wrapOnce hour) = true := by
  have hzero : value 0.0 = 0 := rfl
  have hday := value_day
  obtain ⟨hclose, hclose'⟩ := abs_le.mp h.close
  have hinside {x : Float} (hx : Near x (r + 24 * k) 5e-11) : isHourOfDay x = true := by
    obtain ⟨hlow, hhigh⟩ := abs_le.mp hx.close
    have h0 : (0.0 : Float) ≤ x := (le_iff_value rfl hx.finite).mpr (by linarith)
    have h24 : x < (24.0 : Float) := (lt_iff_value hx.finite rfl).mpr (by linarith)
    exact Bool.and_eq_true_iff.mpr ⟨decide_eq_true h0, decide_eq_true h24⟩
  unfold wrapOnce
  rcases hk with rfl | rfl
  · rw [Int.cast_zero, mul_zero, add_zero] at *
    rw [if_neg (by rw [lt_iff_value h.finite rfl]; linarith),
      if_neg (by rw [le_iff_value rfl h.finite]; linarith)]
    exact hinside (h.weaken (by norm_num))
  · rw [Int.cast_one, mul_one] at *
    rw [if_pos ((lt_iff_value h.finite rfl).mpr (by linarith))]
    exact hinside (h.add near_day (abs_le.mpr ⟨by linarith, by linarith⟩) (by norm_num)
      (by norm_num))

section
variable [Elementary Float] {s : Search Float}

theorem abs_cosHourAngle_le_iff (hfinite : s.cosHourAngle.isFinite = true) :
    |value s.cosHourAngle| ≤ 1 ↔ ¬1.0 < s.cosHourAngle ∧ ¬s.cosHourAngle < -1.0 := by
  obtain ⟨hneg, hminus⟩ := isFinite_neg (x := 1.0) rfl
  rw [lt_iff_value rfl hfinite, lt_iff_value hfinite hneg, hminus, value_one, not_lt, not_lt,
    abs_le, and_comm]

/-- A search that finds its crossing has a cosine for it, and the minute on the clock at the hour
that it computes. -/
theorem run_eq_ok_iff (hfinite : s.cosHourAngle.isFinite = true) {t : Instant} :
    s.run.value = .ok t ↔ |value s.cosHourAngle| ≤ 1 ∧ isHourOfDay (wrapOnce s.rawHour) = true ∧
      s.date.atHour? (wrapOnce s.rawHour) = some t := by
  rw [abs_cosHourAngle_le_iff hfinite]
  unfold run crossing
  dsimp only
  split_ifs with hnight hday
  · simp [Crossing.instant, hnight]
  · simp [Crossing.instant, hday]
  · simp only [Crossing.instant, hnight, hday, not_false_eq_true, true_and]
    cases hhour : isHourOfDay (wrapOnce s.rawHour) with
    | false => simp
    | true =>
      cases s.date.atHour? (wrapOnce s.rawHour) <;> simp

end

end Search

section
variable [Elementary Float] (h : Sun.AccurateFunctions) {s : Search Float}
  (hplace : s.place.Accepted) (hfollows : s.FollowsLongitude)
include h hplace hfollows

/-- The instant of a crossing is the minute on the clock, up to whole days. -/
theorem Search.minute_of_run {t : Instant} (ht : s.run.value = .ok t) :
    |value s.cosHourAngle| ≤ 1 ∧ t.date = s.date ∧
      ∃ (minute : ℕ) (n : ℤ), t.secondOfDay = 60 * minute ∧ minute < 1440 ∧
        60 * (s.exact.clock (value s.cosHourAngle) + 24 * n) - 1.00000001 < minute ∧
        minute ≤ 60 * (s.exact.clock (value s.cosHourAngle) + 24 * n) + 0.00000001 := by
  obtain ⟨hc, hday, hat⟩ := (run_eq_ok_iff (solves_exact hplace h).1).mp ht
  obtain ⟨-, -, n, hn⟩ := trueLongitude_near hplace h
  obtain ⟨hraw, hsize⟩ := rawHour_near hplace h hn hfollows hc
  obtain ⟨m, hm⟩ := exists_wrapOnce_near hraw hsize
  obtain ⟨hour, minute, hshows⟩ := exists_shows hday
  obtain ⟨t', ht', hdate, hsecond⟩ := hshows.atHour? s.date
  rw [hat] at ht'
  cases ht'
  have hearly := hshows.early
  have hlate := hshows.late
  have hle := hshows.hour_le
  have hle' := hshows.minute_le
  obtain ⟨hl, hu⟩ := abs_le.mp hm.close
  have hunit : (2 : ℝ) ^ (-47 : ℤ) ≤ 1e-14 := by norm_num
  refine ⟨hc, hdate, 60 * hour + minute, n + m, by omega, by omega, ?_, ?_⟩
  · push_cast at *
    norm_num at *
    linarith
  · push_cast at *
    norm_num at *
    linarith

/-- A crossing well within the day of its date is found, unless its hour is more than a day off. -/
theorem Search.exists_run {n : ℤ}
    (hn : Near s.trueLongitude (Sun.unreduced s.exact.day + 360 * n) 5e-11)
    (hc : |value s.cosHourAngle| ≤ 1) {k : ℤ} (hk : k = n ∨ k = n + 1)
    (hl : 0.001 ≤ s.exact.clock (value s.cosHourAngle) + 24 * k)
    (hu : s.exact.clock (value s.cosHourAngle) + 24 * k ≤ 23.999) :
    ∃ t, s.run.value = .ok t := by
  obtain ⟨hraw, -⟩ := rawHour_near hplace h hn hfollows hc
  have hsplit : s.exact.clock (value s.cosHourAngle) + 24 * n + 24 * ((k - n : ℤ) : ℝ) =
      s.exact.clock (value s.cosHourAngle) + 24 * k := by
    push_cast
    ring
  have hday := isHourOfDay_wrapOnce hraw (k := k - n) (by omega) (by rwa [hsplit])
    (by rwa [hsplit])
  obtain ⟨hour, minute, hshows⟩ := exists_shows hday
  obtain ⟨t, ht, -⟩ := hshows.atHour? s.date
  exact ⟨t, (run_eq_ok_iff (solves_exact hplace h).1).mpr ⟨hc, hday, ht⟩⟩

/-- The days between the clock and the minute that is found are known where the crossing is well
within the day. -/
theorem Search.minute_within_day {t : Instant} (ht : s.run.value = .ok t) {k : ℤ}
    (hl : 0.001 ≤ s.exact.clock (value s.cosHourAngle) + 24 * k)
    (hu : s.exact.clock (value s.cosHourAngle) + 24 * k ≤ 23.999) :
    t.date = s.date ∧ ∃ minute : ℕ, t.secondOfDay = 60 * minute ∧
      60 * (s.exact.clock (value s.cosHourAngle) + 24 * k) - 1.00000001 < minute ∧
      minute ≤ 60 * (s.exact.clock (value s.cosHourAngle) + 24 * k) + 0.00000001 := by
  obtain ⟨-, hdate, minute, n, hsecond, hminute, hlow, hhigh⟩ := minute_of_run h hplace hfollows ht
  have hlast : (minute : ℝ) + 1 ≤ 1440 := by exact_mod_cast hminute
  have hfirst : (0 : ℝ) ≤ minute := Nat.cast_nonneg minute
  have hbefore : (n : ℝ) < k + 1 := by linarith
  have hafter : (k : ℝ) - 1 < n := by linarith
  have hbefore : n < k + 1 := by exact_mod_cast hbefore
  have hafter : k - 1 < n := by exact_mod_cast hafter
  obtain rfl : n = k := by omega
  exact ⟨hdate, minute, hsecond, hlow, hhigh⟩

end
end GeoAlmanac
