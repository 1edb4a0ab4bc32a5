import GeoAlmanac.Proofs.Calendar.Order
import Mathlib.Data.Prod.Lex

/-! Dates and instants of the whole calendar. A count of days or of seconds, also a negative one,
belongs to the one date or instant that has it; the instants of a date are those from its first
second to that of the next date, in the order of the clock. -/

namespace GeoAlmanac
namespace Date

/-- Going through the months from one of them finds the month and the day that the days before it
count. -/
theorem ofDayOfYear?_eq_some_iff {year : ℤ} {month day left : ℕ} {d : Date} :
    ofDayOfYear? year month day left = some d ↔
      d.year = year ∧ month ≤ d.month ∧ d.month < month + left ∧
        daysBeforeMonth year d.month + d.day = daysBeforeMonth year month + day + 1 := by
  induction left generalizing month day with
  | zero =>
    simp only [ofDayOfYear?, reduceCtorEq, false_iff]
    omega
  | succ left ih =>
    have hday := d.valid.2.2.1
    have hlength := d.valid.2.2.2
    rw [ofDayOfYear?]
    split_ifs with hlt
    · rw [ofParts?_eq_some]
      constructor
      · rintro ⟨hyear, rfl, hd⟩
        omega
      · rintro ⟨hyear, hlow, -, hcount⟩
        have hmonth : d.month = month := by
          by_contra hne
          have hnext := daysBeforeMonth_mono year (show month + 1 ≤ d.month by omega)
          rw [daysBeforeMonth] at hnext
          omega
        rw [hmonth] at hcount
        omega
    · rw [ih, daysBeforeMonth]
      constructor
      · rintro ⟨hyear, hlow, hhigh, hcount⟩
        omega
      · rintro ⟨hyear, hlow, hhigh, hcount⟩
        have hne : d.month ≠ month := by
          intro hmonth
          rw [hyear, hmonth] at hlength
          rw [hmonth] at hcount
          omega
        omega

theorem rest_of_periods {n period day : ℕ} (hperiod : 0 < period) (h : day ≤ (n + 1) * period) :
    min n (day / period) ≤ n ∧ min n (day / period) * period ≤ day ∧
      day - min n (day / period) * period ≤ period ∧
      (day - min n (day / period) * period = period → min n (day / period) = n) := by
  have hwhole := Nat.div_mul_le_self day period
  have hnext := Nat.lt_div_mul_add hperiod (a := day)
  rcases le_total n (day / period) with hle | hle
  · rw [Nat.min_eq_left hle]
    have hmul := Nat.mul_le_mul_right period hle
    rw [Nat.succ_mul] at h
    omega
  · rw [Nat.min_eq_right hle]
    omega

section
variable (q : ℤ) {c f k : ℕ}

theorem daysBeforeYear_of_periods (hc : c ≤ 3) (hf : f ≤ 24) (hk : k ≤ 3) :
    daysBeforeYear (400 * q + 100 * c + 4 * f + k + 1) =
      146097 * q + 36524 * c + 1461 * f + 365 * k := by
  simp only [daysBeforeYear]
  omega

/-- The fourth year of four is a leap year, but for that of the last four of a century, unless the
century is the fourth. -/
theorem daysBeforeYear_of_fourth (hf : f ≤ 24) (h : f = 24 → c = 3) :
    daysBeforeYear (400 * q + 100 * c + 4 * f + (3 : ℕ) + 1 + 1) =
      daysBeforeYear (400 * q + 100 * c + 4 * f + (3 : ℕ) + 1) + 366 := by
  simp only [daysBeforeYear]
  omega

end

theorem daysBeforeYear_add_le (year : ℤ) :
    daysBeforeYear year + 365 ≤ daysBeforeYear (year + 1) := by
  simp only [daysBeforeYear]
  omega

theorem exists_year (days : ℤ) : ∃ (year : ℤ) (day : ℕ),
    ofDaysSinceEpoch? days = ofDayOfYear? year 1 day 12 ∧
      daysBeforeYear year + day = days + epoch ∧ days + epoch < daysBeforeYear (year + 1) := by
  have hbound : ((days + epoch) % 146097).toNat ≤ (3 + 1) * 36524 := by omega
  have hdays : 146097 * ((days + epoch) / 146097) + ((days + epoch) % 146097).toNat =
      days + epoch := by omega
  rw [ofDaysSinceEpoch?]
  generalize (days + epoch) / 146097 = q at *
  generalize ((days + epoch) % 146097).toNat = day at *
  obtain ⟨hc, hcenturies, hcentury, hlastCentury⟩ := rest_of_periods (by decide) hbound
  generalize min 3 (day / 36524) = c at *
  have hf : (day - c * 36524) / 1461 ≤ 24 := by omega
  have hfour := Nat.div_add_mod (day - c * 36524) 1461
  have hbound' : (day - c * 36524) % 1461 ≤ (3 + 1) * 365 := by omega
  generalize (day - c * 36524) / 1461 = f at *
  generalize (day - c * 36524) % 1461 = rest at *
  obtain ⟨hk, hyears, hyear, hlastYear⟩ := rest_of_periods (by decide) hbound'
  generalize min 3 (rest / 365) = k at *
  have hstart := daysBeforeYear_of_periods q hc hf hk
  refine ⟨_, _, rfl, by omega, ?_⟩
  rcases hyear.lt_or_eq with hlt | heq
  · have hnext := daysBeforeYear_add_le (400 * q + 100 * c + 4 * f + k + 1)
    omega
  · obtain rfl := hlastYear heq
    have hnext := daysBeforeYear_of_fourth q (c := c) hf (by omega)
    omega

theorem daysSinceEpoch_mem_year (d : Date) :
    daysBeforeYear d.year ≤ d.daysSinceEpoch + epoch ∧
      d.daysSinceEpoch + epoch < daysBeforeYear (d.year + 1) := by
  obtain ⟨hlow, hhigh⟩ := d.month_bounds
  have hday := d.valid.2.2.1
  have hmonth := d.daysBeforeMonth_add_day_le
  have hlast := daysBeforeMonth_mono d.year (show d.month + 1 ≤ 13 by omega)
  rw [daysBeforeYear_succ, daysSinceEpoch]
  omega

theorem year_unique {y z days : ℤ} (hlow : daysBeforeYear y ≤ days)
    (hhigh : days < daysBeforeYear (y + 1)) (hlow' : daysBeforeYear z ≤ days)
    (hhigh' : days < daysBeforeYear (z + 1)) : y = z := by
  rcases lt_trichotomy y z with hlt | heq | hgt
  · have hmono := daysBeforeYear_mono (show y + 1 ≤ z from hlt)
    omega
  · exact heq
  · have hmono := daysBeforeYear_mono (show z + 1 ≤ y from hgt)
    omega

theorem ofDaysSinceEpoch?_eq_some_iff {days : ℤ} {d : Date} :
    ofDaysSinceEpoch? days = some d ↔ d.daysSinceEpoch = days := by
  obtain ⟨year, day, hdate, hlow, hhigh⟩ := exists_year days
  obtain ⟨hfirst, hlast⟩ := d.month_bounds
  have hday := d.valid.2.2.1
  rw [hdate, ofDayOfYear?_eq_some_iff, show daysBeforeMonth year 1 = 0 from rfl]
  constructor
  · rintro ⟨rfl, -, -, hcount⟩
    rw [daysSinceEpoch]
    omega
  · rintro rfl
    obtain ⟨hlow', hhigh'⟩ := d.daysSinceEpoch_mem_year
    obtain rfl : d.year = year := year_unique hlow' hhigh' (by omega) hhigh
    rw [daysSinceEpoch] at hlow
    omega

def first : Date := ⟨firstYear, 1, 1, by decide⟩

theorem first_le_daysSinceEpoch (d : Date) : first.daysSinceEpoch ≤ d.daysSinceEpoch := by
  obtain ⟨hyear, -, -, -⟩ := d.valid
  have hmono := daysBeforeYear_mono hyear
  have hstart : first.daysSinceEpoch = daysBeforeYear firstYear - epoch := rfl
  rw [hstart, daysSinceEpoch]
  omega

theorem exists_daysSinceEpoch_eq_iff {days : ℤ} : (∃ d : Date, d.daysSinceEpoch = days) ↔
    first.daysSinceEpoch ≤ days ∧ days ≤ last.daysSinceEpoch := by
  constructor
  · rintro ⟨d, rfl⟩
    exact ⟨d.first_le_daysSinceEpoch, d.daysSinceEpoch_le_last⟩
  · rintro ⟨hlow, hhigh⟩
    have hsome := isSome_later? (days - first.daysSinceEpoch).toNat first
    rw [decide_eq_true (by unfold remaining; omega)] at hsome
    obtain ⟨d, hd⟩ := Option.isSome_iff_exists.mp hsome
    have hcount := later?_eq_some_iff.mp hd
    exact ⟨d, by omega⟩

end Date

namespace Instant

theorem eq_iff {t u : Instant} : t = u ↔ t.date = u.date ∧ t.secondOfDay = u.secondOfDay := by
  obtain ⟨d, s, hs⟩ := t
  obtain ⟨e, r, hr⟩ := u
  rw [mk.injEq]

theorem ofSeconds?_eq_some_iff {s : ℤ} {t : Instant} : ofSeconds? s = some t ↔ t.seconds = s := by
  have hlt := t.lt_day
  rw [ofSeconds?, Option.map_eq_some_iff, seconds]
  simp only [Date.ofDaysSinceEpoch?_eq_some_iff, eq_iff]
  constructor
  · rintro ⟨d, hd, rfl, hsecond⟩
    omega
  · intro h
    exact ⟨t.date, by omega, rfl, by omega⟩

theorem exists_ofSeconds?_iff {s : ℤ} : (∃ t, ofSeconds? s = some t) ↔
    Date.first.daysSinceEpoch * 86400 ≤ s ∧ s < (Date.last.daysSinceEpoch + 1) * 86400 := by
  have hdays := @Date.exists_daysSinceEpoch_eq_iff (s / 86400)
  simp only [ofSeconds?, Option.map_eq_some_iff, Date.ofDaysSinceEpoch?_eq_some_iff]
  constructor
  · rintro ⟨t, d, hd, -⟩
    obtain ⟨hlow, hhigh⟩ := hdays.mp ⟨d, hd⟩
    omega
  · rintro ⟨hlow, hhigh⟩
    obtain ⟨d, hd⟩ := hdays.mpr ⟨by omega, by omega⟩
    exact ⟨_, d, hd, rfl⟩

theorem seconds_injective : Function.Injective seconds := by
  intro t u h
  have ht := ofSeconds?_eq_some_iff.mpr h
  have hu := ofSeconds?_eq_some_iff.mpr (rfl : u.seconds = u.seconds)
  exact Option.some_inj.mp (ht.symm.trans hu)

end Instant

/-- The times of a date, to the fractions of their seconds, are those of the 86400 seconds from its
first one. -/
theorem LocalTime.date_eq_iff {t : LocalTime} {d : Date} : t.date = d ↔
    toLex (d.daysSinceEpoch * 86400, 0) ≤ toLex (t.seconds, t.nanosecond) ∧
      toLex (t.seconds, t.nanosecond) < toLex (d.daysSinceEpoch * 86400 + 86400, 0) := by
  have hlt := t.lt_day
  rw [← Date.daysSinceEpoch_injective.eq_iff, Prod.Lex.toLex_le_toLex, Prod.Lex.toLex_lt_toLex]
  dsimp only
  rw [seconds]
  omega

namespace Date
variable {d e : Date} {hour minute hour' minute' : ℕ} {t u : Instant}

theorem at?_eq_some_iff : d.at? hour minute = some t ↔ hour < 24 ∧ minute < 60 ∧ t.date = d ∧
    t.secondOfDay = 3600 * hour + 60 * minute := by
  unfold at?
  split_ifs with h
  · obtain ⟨hhour, hminute⟩ := h
    rw [Option.some_inj, Instant.eq_iff]
    constructor
    · rintro ⟨rfl, hsecond⟩
      dsimp only at hsecond
      exact ⟨hhour, hminute, rfl, by omega⟩
    · rintro ⟨-, -, rfl, hsecond⟩
      exact ⟨rfl, by dsimp only; omega⟩
  · simp only [false_iff]
    omega

theorem map_date_at? (d : Date) (hour minute : ℕ) :
    ((d.at? hour minute).map fun t => ofUniversalTime t.universal) =
        (if hour < 24 ∧ minute < 60 then some d else none) ∧
      ((d.at? hour minute).map fun t => ofLocalTime t.clock) =
        (if hour < 24 ∧ minute < 60 then some d else none) := by
  unfold at?
  split_ifs <;> exact ⟨rfl, rfl⟩

theorem seconds_of_at? (h : d.at? hour minute = some t) : hour < 24 ∧ minute < 60 ∧
    t.seconds = d.daysSinceEpoch * 86400 + (3600 * hour + 60 * minute : ℕ) := by
  obtain ⟨hhour, hminute, rfl, hsecond⟩ := at?_eq_some_iff.mp h
  rw [Instant.seconds, hsecond]
  exact ⟨hhour, hminute, rfl⟩

theorem lt_iff_of_at? (ht : d.at? hour minute = some t) (hu : e.at? hour' minute' = some u) :
    t < u ↔ d.Before e ∨ d = e ∧ (hour < hour' ∨ hour = hour' ∧ minute < minute') := by
  obtain ⟨hhour, hminute, hseconds⟩ := seconds_of_at? ht
  obtain ⟨hhour', hminute', hseconds'⟩ := seconds_of_at? hu
  change t.seconds < u.seconds ↔ _
  rw [before_iff, ← daysSinceEpoch_injective.eq_iff, hseconds, hseconds']
  omega

theorem eq_iff_of_at? (ht : d.at? hour minute = some t) (hu : e.at? hour' minute' = some u) :
    t = u ↔ d = e ∧ hour = hour' ∧ minute = minute' := by
  obtain ⟨hhour, hminute, hseconds⟩ := seconds_of_at? ht
  obtain ⟨hhour', hminute', hseconds'⟩ := seconds_of_at? hu
  rw [← Instant.seconds_injective.eq_iff, ← daysSinceEpoch_injective.eq_iff, hseconds, hseconds']
  omega

theorem map_seconds_at?_next (h : d.next? = some e) (hour minute : ℕ) :
    (e.at? hour minute).map Instant.seconds =
      (d.at? hour minute).map fun t => t.seconds + 86400 := by
  have hnext := daysSinceEpoch_next h
  unfold at?
  split_ifs
  · simp only [Option.map_some, Option.some_inj, Instant.seconds]
    omega
  · rfl

theorem at?_midnight (d : Date) : ∃ t, d.at? 0 0 = some t ∧ t.seconds = d.daysSinceEpoch * 86400 :=
  ⟨⟨d, 0, by decide⟩, rfl, by simp [Instant.seconds]⟩

/-- Dates and instants fit together over the whole calendar. Each date has its instant at every hour
and minute of a day, from which the date is kept, in the order of date, hour and minute, and 86400
seconds later on the next date. Every count of seconds from the first second of the calendar to the
last has its instant. The date kept of a time, local or universal, is the one whose midnight is less
than 86400 seconds before it. Between two seconds times are ordered by their nanoseconds. -/
theorem instants_fit_dates (d : Date) :
    (∀ hour minute,
      ((d.at? hour minute).map fun t => ofUniversalTime t.universal) =
          (if hour < 24 ∧ minute < 60 then some d else none) ∧
        ((d.at? hour minute).map fun t => ofLocalTime t.clock) =
          if hour < 24 ∧ minute < 60 then some d else none) ∧
    (∀ e hour minute hour' minute' t u,
      d.at? hour minute = some t → e.at? hour' minute' = some u →
        (t < u ↔ d.Before e ∨ d = e ∧ (hour < hour' ∨ hour = hour' ∧ minute < minute')) ∧
        (t = u ↔ d = e ∧ hour = hour' ∧ minute = minute')) ∧
    (∀ e, d.next? = some e → ∀ hour minute, (e.at? hour minute).map Instant.seconds =
      (d.at? hour minute).map fun t => t.seconds + 86400) ∧
    (∀ s, (∃ t, Instant.ofSeconds? s = some t) ↔
      first.daysSinceEpoch * 86400 ≤ s ∧ s < (last.daysSinceEpoch + 1) * 86400) ∧
    (∀ s t, Instant.ofSeconds? s = some t ↔ t.seconds = s) ∧
    ∃ midnight, d.at? 0 0 = some midnight ∧ ∀ t : UniversalTime,
      ofLocalTime t.clock = ofUniversalTime t ∧
        (ofUniversalTime t = d ↔
          toLex (midnight.seconds, 0) ≤ toLex (t.clock.seconds, t.clock.nanosecond) ∧
            toLex (t.clock.seconds, t.clock.nanosecond) < toLex (midnight.seconds + 86400, 0)) := by
  refine ⟨map_date_at? d, fun e hour minute hour' minute' t u ht hu => ?_,
    fun e => map_seconds_at?_next, fun s => Instant.exists_ofSeconds?_iff,
    fun s t => Instant.ofSeconds?_eq_some_iff, ?_⟩
  · exact ⟨lt_iff_of_at? ht hu, eq_iff_of_at? ht hu⟩
  · obtain ⟨midnight, hat, hseconds⟩ := at?_midnight d
    refine ⟨midnight, hat, fun t => ⟨rfl, ?_⟩⟩
    rw [hseconds]
    exact LocalTime.date_eq_iff

/-- The leap day of the year -4 and the day after it. -/
def leapDay : Date := ⟨-4, 2, 29, by decide⟩
def dayAfterLeapDay : Date := ⟨-4, 3, 1, by decide⟩

/-- The last minute of a leap day comes before the first of the next date, whose own last minute is
a day later. -/
theorem instants_fit_dates_leapDay : leapDay.next? = some dayAfterLeapDay ∧ ∃ t u,
    leapDay.at? 23 59 = some t ∧ dayAfterLeapDay.at? 0 0 = some u ∧ t < u ∧
      (dayAfterLeapDay.at? 23 59).map Instant.seconds = some (t.seconds + 86400) := by
  obtain ⟨-, horder, hnext, -⟩ := instants_fit_dates leapDay
  have hdate : leapDay.next? = some dayAfterLeapDay := rfl
  have hlate : leapDay.at? 23 59 = some ⟨leapDay, 86340, by decide⟩ := rfl
  have hearly : dayAfterLeapDay.at? 0 0 = some ⟨dayAfterLeapDay, 0, by decide⟩ := rfl
  have hbefore : leapDay.Before dayAfterLeapDay := .inr ⟨rfl, .inl (by decide)⟩
  refine ⟨hdate, _, _, hlate, hearly, ?_, ?_⟩
  · exact (horder _ _ _ _ _ _ _ hlate hearly).1.mpr (.inl hbefore)
  · rw [hnext _ hdate, hlate]
    rfl

end Date
end GeoAlmanac
