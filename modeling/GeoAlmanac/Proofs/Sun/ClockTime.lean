import GeoAlmanac.Proofs.Sun.DayArc

/-! The hour that the clock shows at a crossing, read over the reals. It is fixed by the hour angle,
the equation of time and the longitude up to whole days, and a crossing that is found falls in its
minute. -/

namespace GeoAlmanac
open SolarDay Search

namespace Search

theorem exists_wrapOnce_rawHour_eq (s : Search ℝ) : ∃ n : ℤ, wrapOnce s.rawHour =
    (s.hourAngle + 180 + Sun.equationOfTime s.day - s.place.longitude) / 15 + 24 * n := by
  obtain ⟨n, hn⟩ := exists_wrapOnce_eq s.rawHour
  refine ⟨n - ⌊Sun.unreduced s.day / 360⌋, ?_⟩
  have hculmination := Sun.culmination_eq s.day
  rw [hn, rawHour_eq]
  push_cast
  linarith

/-- The hour on the clock is the computed one less the whole days in it. -/
theorem wrapOnce_rawHour_eq {s : Search ℝ} (h : |s.place.longitude| ≤ 175) (days : ℤ)
    (hl : 24 * days ≤ (s.hourAngle + 180 + Sun.equationOfTime s.day - s.place.longitude) / 15)
    (hu : (s.hourAngle + 180 + Sun.equationOfTime s.day - s.place.longitude) / 15 <
      24 * (days + 1)) :
    wrapOnce s.rawHour =
      (s.hourAngle + 180 + Sun.equationOfTime s.day - s.place.longitude) / 15 - 24 * days := by
  obtain ⟨h0, h24⟩ := crossing_in_day h
  obtain ⟨n, hn⟩ := exists_wrapOnce_rawHour_eq s
  have hlow : (-1 : ℝ) < (days + n : ℤ) := by
    push_cast
    linarith
  have hhigh : ((days + n : ℤ) : ℝ) < 1 := by
    push_cast
    linarith
  have hlow : -1 < days + n := by exact_mod_cast hlow
  have hhigh : days + n < 1 := by exact_mod_cast hhigh
  obtain rfl : n = -days := by omega
  rw [hn]
  push_cast
  ring

end Search

/-- A crossing that is found is the minute of the time that the search computes. -/
theorem crossingOn_hour {place : Coordinate ℝ} {zenith : Zenith} {phase : Phase} {date : Date}
    {t : Instant} (h : crossingOn place zenith phase date = .ok t) :
    let s : Search ℝ := ⟨place, date, zenith, phase⟩
    |s.cosHourAngle| ≤ 1 ∧ 0 ≤ wrapOnce s.rawHour ∧ wrapOnce s.rawHour < 24 ∧
      t.date = date ∧ (t.secondOfDay : ℤ) = 60 * ⌊60 * wrapOnce s.rawHour⌋ := by
  intro s
  have hcos : |s.cosHourAngle| ≤ 1 := by
    by_contra hnot
    have hnone := mt s.crossing_iff.2.2.mp hnot
    unfold crossingOn Search.run at h
    rcases s.crossing_cases with ⟨c, hc⟩ | ⟨c, hc⟩ | hc
    · simp [s, hc, Crossing.instant] at h
    · simp [s, hc, Crossing.instant] at h
    · exact hnone ⟨_, _, hc⟩
  have hcross := Search.crossing_of_abs_le hcos
  change (s.crossing.instant date) = .ok t at h
  rw [hcross] at h
  have hday : isHourOfDay (wrapOnce s.rawHour) = true := by
    by_contra hnot
    simp [Crossing.instant, hnot] at h
  obtain ⟨h0, h24⟩ := (isHourOfDay_iff _).mp hday
  obtain ⟨t', ht', hdate, hsecond⟩ := Crossing.instant_crosses date s.day h0 h24
  rw [h] at ht'
  cases ht'
  exact ⟨hcos, h0, h24, hdate, hsecond⟩

theorem exists_crossingOn {place : Coordinate ℝ} (hlongitude : |place.longitude| ≤ 175)
    {date : Date} {zenith : Zenith} {phase : Phase}
    (hcos : |(Search.mk place date zenith phase).cosHourAngle| ≤ 1) :
    ∃ t, crossingOn place zenith phase date = .ok t := by
  obtain ⟨h0, h24⟩ := crossing_in_day (s := ⟨place, date, zenith, phase⟩) hlongitude
  obtain ⟨t, ht, _⟩ :=
    Crossing.instant_crosses date (Search.mk place date zenith phase).day h0 h24
  refine ⟨t, ?_⟩
  unfold crossingOn Search.run
  rw [crossing_of_abs_le hcos]
  exact ht

theorem crossingOn_lt_iff {place : Coordinate ℝ} {date : Date} {zenith : Zenith} {p q : Phase}
    {s t : Instant} (hs : crossingOn place zenith p date = .ok s)
    (ht : crossingOn place zenith q date = .ok t) :
    s < t ↔ ⌊60 * wrapOnce (Search.mk place date zenith p).rawHour⌋ <
      ⌊60 * wrapOnce (Search.mk place date zenith q).rawHour⌋ := by
  obtain ⟨_, _, _, hsdate, hssecond⟩ := crossingOn_hour hs
  obtain ⟨_, _, _, htdate, htsecond⟩ := crossingOn_hour ht
  change s.seconds < t.seconds ↔ _
  unfold Instant.seconds
  rw [hsdate, htdate]
  omega

theorem exists_regular_same {place : Coordinate ℝ} (hlongitude : |place.longitude| ≤ 175)
    {date : Date} {zenith : Zenith}
    (hrise : |(Search.mk place date zenith .sunrise).cosHourAngle| ≤ 1)
    (hset : |(Search.mk place date zenith .sunset).cosHourAngle| ≤ 1)
    (hlate : wrapOnce (Search.mk place date zenith .sunrise).rawHour ≤
      wrapOnce (Search.mk place date zenith .sunset).rawHour) :
    ∃ rise set, (solve place date zenith).value = .regular rise set ∧
      rise.date = date ∧ set.date = date ∧ (regular rise set).duration =
        60 * (⌊60 * wrapOnce (Search.mk place date zenith .sunset).rawHour⌋ -
          ⌊60 * wrapOnce (Search.mk place date zenith .sunrise).rawHour⌋) := by
  obtain ⟨rise, hr⟩ := exists_crossingOn hlongitude hrise
  obtain ⟨set, hs⟩ := exists_crossingOn hlongitude hset
  obtain ⟨_, _, _, hrdate, hrsecond⟩ := crossingOn_hour hr
  obtain ⟨_, _, _, hsdate, hssecond⟩ := crossingOn_hour hs
  have hnot : ¬ set < rise := by
    rw [crossingOn_lt_iff hs hr, not_lt]
    exact Int.floor_le_floor (mul_le_mul_of_nonneg_left hlate (by norm_num))
  have hduration := duration_sameDate (hsdate.trans hrdate.symm)
  exact ⟨rise, set, solve_eq_iff.mpr (.sameDate hr hs hnot), hrdate, hsdate, by omega⟩

theorem abs_floor_sub_lt (a b : ℝ) : |((⌊60 * b⌋ - ⌊60 * a⌋ : ℤ) : ℝ) - 60 * (b - a)| < 1 := by
  have ha := Int.floor_le (60 * a)
  have ha' := Int.lt_floor_add_one (60 * a)
  have hb := Int.floor_le (60 * b)
  have hb' := Int.lt_floor_add_one (60 * b)
  push_cast
  rw [abs_lt]
  constructor <;> linarith

end GeoAlmanac
