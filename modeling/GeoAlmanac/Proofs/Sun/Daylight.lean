import GeoAlmanac.Proofs.Sun.Solstice
import GeoAlmanac.Almanac.Build

/-! Whether a regular day has daylight. Sunrise and sunset are compared in whole minutes, so the day
is lost exactly where both crossings of its date fall in one minute, and there are places where they
do. -/

namespace GeoAlmanac
open SolarDay

theorem Instant.not_lt_self (t : Instant) : ¬ t < t :=
  lt_irrefl t.seconds

theorem SolarDay.duration_pos_iff {rise set : Instant} :
    0 < (regular rise set).duration ↔ rise < set :=
  Int.sub_pos

theorem Almanac.Entry.hours_eq (e : Almanac.Entry) : (e.hours : ℝ) = e.day.duration / 3600 := by
  have h : (e.hours : ℝ) = e.day.duration / 3600.0 := rfl
  norm_num [h]

section
variable {α : Type} [Geometric α] [Elementary α]

theorem solve_of_crossings_eq {place : Coordinate α} {date : Date} {zenith : Zenith} {t : Instant}
    (hrise : crossingOn place zenith .sunrise date = .ok t)
    (hset : crossingOn place zenith .sunset date = .ok t) :
    (solve place date zenith).value = .regular t t :=
  solve_eq_iff.mpr (.sameDate hrise hset t.not_lt_self)

/-- The sun of a regular day sets after it rises unless both crossings of the date fall in one
minute. -/
theorem lt_of_solve_eq_regular {place : Coordinate α} {date : Date} {zenith : Zenith}
    {rise set : Instant} (h : (solve place date zenith).value = .regular rise set)
    (hapart : ¬ ∃ t, crossingOn place zenith .sunrise date = .ok t ∧
      crossingOn place zenith .sunset date = .ok t) : rise < set := by
  obtain ⟨hrise, ⟨hset, hlt⟩ | ⟨next, hnext, hset⟩⟩ := (solve_eq_iff.mp h).regular_cases
  · obtain ⟨hrdate, _⟩ := crossingOn_placed hrise
    obtain ⟨hsdate, _⟩ := crossingOn_placed hset
    have hne : rise.secondOfDay ≠ set.secondOfDay := fun hsecond => by
      have heq : set = rise := by
        cases rise
        cases set
        simp_all
      exact hapart ⟨rise, hrise, heq ▸ hset⟩
    have hdur := duration_sameDate (hsdate.trans hrdate.symm)
    have hle : 0 ≤ (regular rise set).duration := sub_nonneg.mpr (not_lt.mp hlt)
    exact duration_pos_iff.mp (by omega)
  · obtain ⟨hrdate, _⟩ := crossingOn_placed hrise
    obtain ⟨hsdate, _⟩ := crossingOn_placed hset
    have hdur := duration_nextDate rise set (by rw [hrdate, hsdate, hnext])
    have hday := rise.lt_day
    exact duration_pos_iff.mp (by omega)

/-- A regular day has daylight exactly if the two crossings of its date fall in different minutes.
Otherwise it lasts from one minute to the same minute. The hours of its row are exact ones. -/
theorem regular_has_daylight_iff (place : Coordinate α) (date : Date) (zenith : Zenith) :
    ((∀ rise set, (solve place date zenith).value = .regular rise set →
        rise < set ∧ 0 < (regular rise set).duration ∧
          (0 : ℝ) < (Almanac.Entry.mk date (.regular rise set)).hours) ↔
      ¬ ∃ t, crossingOn place zenith .sunrise date = .ok t ∧
        crossingOn place zenith .sunset date = .ok t) ∧
    ∀ t, crossingOn place zenith .sunrise date = .ok t →
      crossingOn place zenith .sunset date = .ok t →
      (solve place date zenith).value = .regular t t := by
  refine ⟨⟨?_, ?_⟩, fun t => solve_of_crossings_eq⟩
  · rintro hlaw ⟨t, hrise, hset⟩
    exact t.not_lt_self (hlaw t t (solve_of_crossings_eq hrise hset)).1
  · intro hapart rise set h
    have hlt := lt_of_solve_eq_regular h hapart
    have hdur := duration_pos_iff.mpr hlt
    refine ⟨hlt, hdur, ?_⟩
    rw [Almanac.Entry.hours_eq]
    exact div_pos (by exact_mod_cast hdur) (by norm_num)

end

/-- The exception is met on 22 December 2023. -/
theorem no_daylight_in_december : ∃ place : Coordinate ℝ, |place.latitude| < 90 ∧
    |place.longitude| ≤ 175 ∧ ∃ t : Instant,
      (solve place ⟨2023, 12, 22, by decide⟩ .official).value = .regular t t ∧ ¬ t < t := by
  have hday : (⟨2023, 12, 22, by decide⟩ : Date).dayNumber = 356 := by decide
  obtain ⟨place, hlatitude, hlongitude, t, hrise, hset⟩ :=
    exists_crossings_in_one_minute hday .official
  exact ⟨place, hlatitude, hlongitude, t, solve_of_crossings_eq hrise hset, t.not_lt_self⟩

end GeoAlmanac
