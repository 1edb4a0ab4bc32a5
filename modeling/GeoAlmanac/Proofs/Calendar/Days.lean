import GeoAlmanac.Calendar.Instant
import Mathlib.Tactic.IntervalCases

/-! Consecutive dates: what the day after a date is, when there is none, and how the count of days
and the number of the day within the year go on. -/

namespace GeoAlmanac

theorem isLeapYear_iff (year : Int) :
    isLeapYear year = true ↔ year % 4 = 0 ∧ (year % 100 ≠ 0 ∨ year % 400 = 0) := by
  simp [isLeapYear]

theorem month_of_monthLength_pos {year : Int} {month : Nat} (h : 0 < monthLength year month) :
    1 ≤ month ∧ month ≤ 12 := by
  unfold monthLength at h
  split at h <;> omega

theorem monthLength_bounds (year : Int) {month : Nat} (h : 1 ≤ month ∧ month ≤ 12) :
    28 ≤ monthLength year month ∧ monthLength year month ≤ 31 := by
  obtain ⟨hl, hu⟩ := h
  unfold monthLength
  interval_cases month <;> simp only <;> try omega
  split <;> omega

namespace Date

theorem month_bounds (d : Date) : 1 ≤ d.month ∧ d.month ≤ 12 := by
  have h := d.valid
  exact month_of_monthLength_pos (h.2.2.1.trans h.2.2.2)

theorem ofParts?_eq_some {year : Int} {month day : Nat} {d : Date} :
    ofParts? year month day = some d ↔ d.year = year ∧ d.month = month ∧ d.day = day := by
  unfold ofParts?
  constructor
  · intro h
    split at h
    · cases h
      exact ⟨rfl, rfl, rfl⟩
    · cases h
  · rintro ⟨rfl, rfl, rfl⟩
    rw [dif_pos d.valid]

theorem ofParts?_eq_none {year : Int} {month day : Nat} :
    ofParts? year month day = none ↔ ¬ Valid year month day := by
  unfold ofParts?
  split <;> simp [*]

/-- The day after a date is the next one of its month, the first one of the next month, or the
first one of the next year. -/
theorem next?_cases {d e : Date} (h : d.next? = some e) :
    (d.day < monthLength d.year d.month ∧
      e.year = d.year ∧ e.month = d.month ∧ e.day = d.day + 1) ∨
    (d.day = monthLength d.year d.month ∧ d.month < 12 ∧
      e.year = d.year ∧ e.month = d.month + 1 ∧ e.day = 1) ∨
    (d.day = 31 ∧ d.month = 12 ∧ e.year = d.year + 1 ∧ e.month = 1 ∧ e.day = 1) := by
  have hm := d.month_bounds
  have hd := d.valid.2.2.2
  unfold next? at h
  split at h
  next hlt => exact .inl ⟨hlt, ofParts?_eq_some.mp h⟩
  next hlt =>
    split at h
    next hm12 => exact .inr (.inl ⟨by omega, hm12, ofParts?_eq_some.mp h⟩)
    next hm12 =>
      have h12 : d.month = 12 := by omega
      rw [h12] at hlt hd
      simp only [monthLength] at hlt hd
      exact .inr (.inr ⟨by omega, h12, ofParts?_eq_some.mp h⟩)

theorem next?_eq_none_iff {d : Date} :
    d.next? = none ↔ d.year = lastYear ∧ d.month = 12 ∧ d.day = 31 := by
  have hm := d.month_bounds
  obtain ⟨hfirst, hlast, hday, hlen⟩ := d.valid
  unfold next?
  constructor
  · intro h
    split at h
    next hlt => exact absurd ⟨hfirst, hlast, by omega, hlt⟩ (ofParts?_eq_none.mp h)
    next hlt =>
      split at h
      next hm12 =>
        have hmonth : 1 ≤ d.month + 1 ∧ d.month + 1 ≤ 12 := by omega
        have hfit := (monthLength_bounds d.year hmonth).1
        exact absurd ⟨hfirst, hlast, by omega, by omega⟩ (ofParts?_eq_none.mp h)
      next hm12 =>
        have h12 : d.month = 12 := by omega
        have hover : ¬ d.year + 1 ≤ lastYear := fun hy =>
          ofParts?_eq_none.mp h ⟨by omega, hy, by omega, by simp [monthLength]⟩
        rw [h12] at hlt hlen
        simp only [monthLength] at hlt hlen
        exact ⟨by omega, h12, by omega⟩
  · rintro ⟨hy, hmonth, hd⟩
    have hover : ¬ Valid (lastYear + 1) 1 1 := fun hv => by
      have := hv.2.1
      omega
    simp [hy, hmonth, hd, monthLength, ofParts?_eq_none.mpr hover]

theorem daysBeforeYear_succ (year : Int) :
    daysBeforeYear (year + 1) = daysBeforeYear year + daysBeforeMonth year 13 := by
  have hleap := isLeapYear_iff year
  simp only [daysBeforeYear, daysBeforeMonth, monthLength]
  by_cases h : isLeapYear year = true
  · have hdiv := hleap.mp h
    simp only [h, if_true]
    omega
  · have hdiv := mt hleap.mpr h
    simp only [h]
    norm_num
    omega

/-- Each date counts one day more than the one before it. -/
theorem daysSinceEpoch_next {d e : Date} (h : d.next? = some e) :
    e.daysSinceEpoch = d.daysSinceEpoch + 1 := by
  have hday := d.valid.2.2.1
  unfold daysSinceEpoch
  rcases next?_cases h with ⟨_, hy, hm, hd⟩ | ⟨hlen, _, hy, hm, hd⟩ | ⟨hd31, h12, hy, hm, hd⟩
  · rw [hy, hm, hd]
    omega
  · rw [hy, hm, hd, daysBeforeMonth]
    omega
  · have hyear := daysBeforeYear_succ d.year
    rw [hy, hm, hd, h12, hd31]
    simp only [daysBeforeMonth, monthLength] at hyear ⊢
    omega

theorem dayNumber_bounds (d : Date) : 1 ≤ d.dayNumber ∧ d.dayNumber ≤ 366 := by
  obtain ⟨_, _, hday, hlen⟩ := d.valid
  obtain ⟨hl, hu⟩ := d.month_bounds
  unfold dayNumber
  generalize d.month = month at *
  interval_cases month <;> simp only [monthLength] at hlen <;> norm_num <;> try omega
  split at hlen <;> omega

/-- From a date to the next the number goes up by one, by two over a leap day that only the almanac
rule has, and down by a year at the end of one. -/
theorem dayNumber_next {d e : Date} (h : d.next? = some e) :
    e.dayNumber = d.dayNumber + 1 ∨ e.dayNumber = d.dayNumber + 2 ∨
      e.dayNumber = d.dayNumber - 364 ∨ e.dayNumber = d.dayNumber - 365 := by
  have hmonth := d.month_bounds
  have hleap := isLeapYear_iff d.year
  unfold dayNumber
  rcases next?_cases h with ⟨_, hy, hm, hd⟩ | ⟨hlen, h12, hy, hm, hd⟩ | ⟨hd31, h12, hy, hm, hd⟩
  · rw [hy, hm, hd]
    push_cast
    omega
  · rw [hy, hm, hd, hlen]
    generalize d.month = month at *
    interval_cases month <;> simp only [monthLength] <;> norm_num <;> try omega
    split
    next hyear =>
      have hfour := (hleap.mp hyear).1
      omega
    next => omega
  · rw [hy, hm, hd, h12, hd31]
    norm_num
    omega

end Date
end GeoAlmanac
