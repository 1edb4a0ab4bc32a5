import GeoAlmanac.Proofs.Calendar.Order
import GeoAlmanac.Proofs.Sun.ClockTime
import GeoAlmanac.Proofs.Sun.Equinox

/-! The day on the equator, read over the reals. There the hour angle hardly depends on the
declination, so that throughout the year the sun is up for twelve hours and a few minutes; up to
sixty degrees from Greenwich both of its crossings fall on one date. -/

namespace GeoAlmanac
open SolarDay Search

namespace Search

theorem abs_equationOfTime_le {s : Search ℝ} (h : |s.place.longitude| ≤ 180) :
    |Sun.equationOfTime s.day| ≤ 4.5 := by
  obtain ⟨h0, h368⟩ := day_bounds h
  have hnear := abs_le.mp (Sun.culmination_near h0 h368)
  have hculmination := Sun.culmination_eq s.day
  rw [abs_le]
  constructor <;> linarith

theorem nine_tenths_le_cos_declination (s : Search ℝ) : 0.9 ≤ Real.cos s.declination := by
  have hpos : 1 / 2 < Real.cos s.declination := Sun.half_lt_cos_declination s.trueLongitude
  have hsin := abs_le.mp (Sun.abs_sinDeclination_le s.trueLongitude)
  rw [← sin_declination] at hsin
  nlinarith [Real.sin_sq_add_cos_sq s.declination]

/-- On the equator the sun crosses the horizon a little more than a right angle from its
culmination. -/
theorem arc_equator {s : Search ℝ} (hlatitude : s.place.latitude = 0)
    (hzenith : s.zenith = .official) :
    |s.cosHourAngle| ≤ 1 ∧ 90 ≤ s.arc ∧ s.arc ≤ 91 := by
  have hsolve := meridian_mul_cosHourAngle (s := s) (by rw [hlatitude]; norm_num)
  rw [hlatitude, hzenith, toRadians_zero, Real.cos_zero, Real.sin_zero, one_mul, zero_mul,
    sub_zero] at hsolve
  obtain ⟨hl, hu⟩ := cos_official
  have hdecl := s.nine_tenths_le_cos_declination
  have hnonpos : s.cosHourAngle ≤ 0 := by
    by_contra hpos
    nlinarith
  have hlow : -0.01744 ≤ s.cosHourAngle := by
    by_contra hlt
    nlinarith
  have hdegree := (sin_small (show (0 : ℝ) ≤ 1 by norm_num) (by norm_num)).1
  unfold arc
  refine ⟨abs_le.mpr ⟨by linarith, by linarith⟩, ?_, ?_⟩
  · have harc := le_halfArc (c := s.cosHourAngle) le_rfl (by norm_num)
      (by rw [toRadians_zero, Real.sin_zero, neg_zero]; exact hnonpos)
    linarith
  · have harc := halfArc_le (c := s.cosHourAngle) (show (0 : ℝ) ≤ 1 by norm_num) (by norm_num)
      (by linarith)
    linarith

/-- Up to sixty degrees from Greenwich both crossings of a date are found, and the clock shows the
sunset after the sunrise by just the hours of daylight. -/
theorem equator_hours {longitude : ℝ} (hlongitude : |longitude| ≤ 60) (date : Date) :
    let rising : Search ℝ := ⟨⟨0, longitude⟩, date, .official, .sunrise⟩
    let setting : Search ℝ := ⟨⟨0, longitude⟩, date, .official, .sunset⟩
    |rising.cosHourAngle| ≤ 1 ∧ |setting.cosHourAngle| ≤ 1 ∧
      wrapOnce setting.rawHour - wrapOnce rising.rawHour =
        daylight rising setting rising.cosHourAngle setting.cosHourAngle := by
  intro rising setting
  obtain ⟨hcosr, hr, hr'⟩ := arc_equator (s := rising) rfl rfl
  obtain ⟨hcoss, hs, hs'⟩ := arc_equator (s := setting) rfl rfl
  have her := abs_le.mp (abs_equationOfTime_le (s := rising) (hlongitude.trans (by norm_num)))
  have hes := abs_le.mp (abs_equationOfTime_le (s := setting) (hlongitude.trans (by norm_num)))
  have hrangle : rising.hourAngle = 360 - rising.arc := hourAngle_eq_arc rising
  have hsangle : setting.hourAngle = setting.arc := hourAngle_eq_arc setting
  have hplace : rising.place.longitude = longitude ∧ setting.place.longitude = longitude :=
    ⟨rfl, rfl⟩
  obtain ⟨hwest, heast⟩ := abs_le.mp hlongitude
  have hrhour := wrapOnce_rawHour_eq (s := rising) (hlongitude.trans (by norm_num)) 1
    (by rw [hrangle, hplace.1]; push_cast; linarith)
    (by rw [hrangle, hplace.1]; push_cast; linarith)
  have hshour := wrapOnce_rawHour_eq (s := setting) (hlongitude.trans (by norm_num)) 0
    (by rw [hsangle, hplace.2]; push_cast; linarith)
    (by rw [hsangle, hplace.2]; push_cast; linarith)
  refine ⟨hcosr, hcoss, ?_⟩
  rw [hrhour, hshour, hrangle, hsangle]
  change _ = (rising.arc + setting.arc +
    (Sun.equationOfTime setting.day - Sun.equationOfTime rising.day)) / 15
  rw [hplace.1]
  push_cast
  ring

theorem equator_daylight (longitude : ℝ) (date : Date) :
    let rising : Search ℝ := ⟨⟨0, longitude⟩, date, .official, .sunrise⟩
    let setting : Search ℝ := ⟨⟨0, longitude⟩, date, .official, .sunset⟩
    11.99 ≤ daylight rising setting rising.cosHourAngle setting.cosHourAngle ∧
      daylight rising setting rising.cosHourAngle setting.cosHourAngle ≤ 12.15 := by
  intro rising setting
  obtain ⟨-, hr, hr'⟩ := arc_equator (s := rising) rfl rfl
  obtain ⟨-, hs, hs'⟩ := arc_equator (s := setting) rfl rfl
  have hday : setting.day = rising.day + 0.5 := by
    have hrising : rising.day = date.dayNumber + (6.0 - longitude / 15) / 24 := day_eq _
    have hsetting : setting.day = date.dayNumber + (18.0 - longitude / 15) / 24 := day_eq _
    linarith
  have hdrift := abs_le.mp (Sun.abs_equationOfTime_drift_le (show rising.day ≤ setting.day by
    rw [hday]
    linarith))
  rw [hday] at hdrift
  unfold daylight
  rw [hday]
  unfold arc at *
  constructor <;> linarith

end Search

/-- On the equator, up to sixty degrees from Greenwich, every day of the calendar is regular, lies
on one date and lasts for twelve hours to a quarter of an hour. -/
theorem equator_day_near_twelve_hours {longitude : ℝ} (hlongitude : |longitude| ≤ 60)
    (date : Date) : ∃ rise set, (solve ⟨0, longitude⟩ date .official).value = .regular rise set ∧
      rise.date = date ∧ set.date = date ∧
      11 * 3600 + 45 * 60 ≤ (regular rise set).duration ∧
      (regular rise set).duration ≤ 12 * 3600 + 15 * 60 := by
  obtain ⟨hcosr, hcoss, hhours⟩ := equator_hours hlongitude date
  obtain ⟨hlow, hhigh⟩ := equator_daylight longitude date
  have heast : |(⟨0, longitude⟩ : Coordinate ℝ).longitude| ≤ 175 := hlongitude.trans (by norm_num)
  obtain ⟨rise, set, hday, hrise, hset, hduration⟩ :=
    exists_regular_same heast hcosr hcoss (by linarith)
  have hminutes := abs_floor_sub_lt
    (wrapOnce (Search.mk ⟨0, longitude⟩ date .official .sunrise).rawHour)
    (wrapOnce (Search.mk ⟨0, longitude⟩ date .official .sunset).rawHour)
  rw [hhours, abs_lt] at hminutes
  generalize ⌊60 * wrapOnce (Search.mk ⟨0, longitude⟩ date .official .sunset).rawHour⌋ -
    ⌊60 * wrapOnce (Search.mk ⟨0, longitude⟩ date .official .sunrise).rawHour⌋ = minutes at *
  have hmin : (705 : ℝ) < minutes := by linarith
  have hmax : (minutes : ℝ) < 735 := by linarith
  have hmin : 705 < minutes := by exact_mod_cast hmin
  have hmax : minutes < 735 := by exact_mod_cast hmax
  exact ⟨rise, set, hday, hrise, hset, by omega, by omega⟩

/-- The bound on the longitude is attained on either side of Greenwich, also on the last day of the
calendar. -/
theorem equator_day_near_twelve_hours_last : |(-60 : ℝ)| ≤ 60 ∧ |(60 : ℝ)| ≤ 60 ∧
    (∃ rise set, (solve ⟨0, (-60 : ℝ)⟩ Date.last .official).value = .regular rise set ∧
      rise.date = Date.last ∧ set.date = Date.last ∧
      11 * 3600 + 45 * 60 ≤ (regular rise set).duration ∧
      (regular rise set).duration ≤ 12 * 3600 + 15 * 60) ∧
    ∃ rise set, (solve ⟨0, (60 : ℝ)⟩ ⟨2024, 3, 20, by decide⟩ .official).value =
        .regular rise set ∧
      rise.date = ⟨2024, 3, 20, by decide⟩ ∧ set.date = ⟨2024, 3, 20, by decide⟩ ∧
      11 * 3600 + 45 * 60 ≤ (regular rise set).duration ∧
      (regular rise set).duration ≤ 12 * 3600 + 15 * 60 := by
  have hwest : |(-60 : ℝ)| ≤ 60 := by norm_num
  have heast : |(60 : ℝ)| ≤ 60 := by norm_num
  exact ⟨hwest, heast, equator_day_near_twelve_hours hwest Date.last,
    equator_day_near_twelve_hours heast ⟨2024, 3, 20, by decide⟩⟩

end GeoAlmanac
