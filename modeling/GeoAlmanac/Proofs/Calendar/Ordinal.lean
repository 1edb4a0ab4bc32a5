import GeoAlmanac.Proofs.Calendar.Order

/-! The day number of the almanac rule and the ordinal of a date in its year. The rule inserts a leap
day every fourth year, so it is one ahead after February of a year of a century that has none; in
any other year the two agree. -/

namespace GeoAlmanac.Date

/-- The place of a date in its year: how many dates of the year have come, the date among them. -/
noncomputable def ordinal (d : Date) : ℕ :=
  {e : Date | e.year = d.year ∧ ¬ d.Before e}.ncard

/-- The first date of the year of a date. -/
def newYear (d : Date) : Date :=
  ⟨d.year, 1, 1, d.valid.1, d.valid.2.1, le_rfl, by simp [monthLength]⟩

theorem daysSinceEpoch_newYear (d : Date) :
    d.newYear.daysSinceEpoch = daysBeforeYear d.year - epoch := by
  simp [daysSinceEpoch, newYear, daysBeforeMonth, monthLength]

theorem year_eq_iff_of_not_before {d e : Date} (h : ¬ d.Before e) :
    e.year = d.year ↔ ¬ e.Before d.newYear := by
  have hmonth := e.month_bounds
  have hday := e.valid.2.2.1
  simp only [Before, newYear] at *
  omega

theorem ordinal_eq_days (d : Date) :
    (d.ordinal : ℤ) = d.daysSinceEpoch - d.newYear.daysSinceEpoch + 1 := by
  have hdates : {e : Date | e.year = d.year ∧ ¬ d.Before e} =
      {e : Date | ¬ e.Before d.newYear ∧ ¬ d.Before e} := by
    ext e
    exact and_congr_left year_eq_iff_of_not_before
  have hfirst : ¬ d.Before d.newYear := by
    have hmonth := d.month_bounds
    have hday := d.valid.2.2.1
    simp only [Before, newYear]
    omega
  rw [before_iff, not_lt] at hfirst
  unfold ordinal
  rw [hdates, ncard_between]
  omega

theorem ordinal_eq (d : Date) : d.ordinal = daysBeforeMonth d.year d.month + d.day := by
  have hdays := d.ordinal_eq_days
  have hday := d.valid.2.2.1
  rw [daysSinceEpoch_newYear] at hdays
  unfold daysSinceEpoch at hdays
  omega

theorem ordinal_next {d e : Date} (h : d.next? = some e) (hyear : e.year = d.year) :
    e.ordinal = d.ordinal + 1 := by
  have hd := d.ordinal_eq_days
  have he := e.ordinal_eq_days
  have hnext := daysSinceEpoch_next h
  rw [daysSinceEpoch_newYear] at hd he
  rw [hyear] at he
  omega

theorem ordinal_next_year {d e : Date} (h : d.next? = some e) (hyear : e.year ≠ d.year) :
    e.year = d.year + 1 ∧ e.month = 1 ∧ e.ordinal = 1 := by
  rcases next?_cases h with ⟨_, hy, _⟩ | ⟨_, _, hy, _⟩ | ⟨_, _, hy, hm, hday⟩
  · exact absurd hy hyear
  · exact absurd hy hyear
  · refine ⟨hy, hm, ?_⟩
    rw [ordinal_eq, hm, hday]
    simp [daysBeforeMonth, monthLength]

/-- The almanac rule counts every day before the date, and a leap day too many after February of a
fourth year without one. -/
theorem dayNumber_eq (d : Date) : d.dayNumber = d.ordinal +
    (if 3 ≤ d.month ∧ d.year % 4 = 0 ∧ isLeapYear d.year = false then 1 else 0) := by
  obtain ⟨hlow, hhigh⟩ := d.month_bounds
  have hleap := isLeapYear_iff d.year
  rw [ordinal_eq]
  unfold dayNumber
  generalize d.month = month at *
  cases hyear : isLeapYear d.year with
  | true =>
    have hfour := (hleap.mp hyear).1
    interval_cases month <;> simp [daysBeforeMonth, monthLength, hyear, hfour] <;> omega
  | false =>
    interval_cases month <;> simp [daysBeforeMonth, monthLength, hyear] <;> omega

/-- The leap day of a year is as the four-year rule has it. -/
def KeepsFourYearRule (year : ℤ) : Prop :=
  isLeapYear year = true ↔ year % 4 = 0

theorem dayNumber_of_keepsFourYearRule {d : Date} (h : KeepsFourYearRule d.year) :
    d.dayNumber = d.ordinal := by
  have hno : ¬ (3 ≤ d.month ∧ d.year % 4 = 0 ∧ isLeapYear d.year = false) := by
    rintro ⟨_, hfour, hcommon⟩
    rw [h.mpr hfour] at hcommon
    cases hcommon
  rw [dayNumber_eq, if_neg hno, add_zero]

/-- The day number is the ordinal of the date, and one more from March on in a fourth year that has
no leap day. So it never leaves the days of a year; and in a year that keeps the four-year rule it
goes up by one from date to date and starts anew with the next year. -/
theorem dayNumber_eq_ordinal (d : Date) :
    d.dayNumber = d.ordinal +
      (if 3 ≤ d.month ∧ d.year % 4 = 0 ∧ isLeapYear d.year = false then 1 else 0) ∧
    (1 ≤ d.dayNumber ∧ d.dayNumber ≤ 366) ∧
    (KeepsFourYearRule d.year → d.dayNumber = d.ordinal ∧
      match d.next? with
      | some e =>
        if e.year = d.year then e.dayNumber = d.dayNumber + 1
        else e.year = d.year + 1 ∧ e.dayNumber = 1
      | none => d = last) := by
  refine ⟨d.dayNumber_eq, d.dayNumber_bounds, fun hrule =>
    ⟨dayNumber_of_keepsFourYearRule hrule, ?_⟩⟩
  cases hnext : d.next? with
  | none => exact next?_eq_none_iff_last.mp hnext
  | some e =>
    dsimp only
    split_ifs with hyear
    · rw [dayNumber_of_keepsFourYearRule (hyear.symm ▸ hrule),
        dayNumber_of_keepsFourYearRule hrule, ordinal_next hnext hyear]
      push_cast
      rfl
    · obtain ⟨hy, hmonth, hordinal⟩ := ordinal_next_year hnext hyear
      refine ⟨hy, ?_⟩
      rw [dayNumber_eq, hordinal, hmonth]
      norm_num

/-- The year 2000 has its leap day and the year 1900 has none. -/
theorem dayNumber_eq_ordinal_centuries :
    KeepsFourYearRule 2000 ∧
      ((⟨2000, 12, 31, by decide⟩ : Date).dayNumber = 366 ∧
        (⟨2000, 12, 31, by decide⟩ : Date).ordinal = 366) ∧
      (⟨2000, 12, 31, by decide⟩ : Date).next? = some ⟨2001, 1, 1, by decide⟩ ∧
      (⟨2001, 1, 1, by decide⟩ : Date).dayNumber = 1 ∧
      ¬ KeepsFourYearRule 1900 ∧
      (⟨1900, 3, 1, by decide⟩ : Date).dayNumber =
        (⟨1900, 3, 1, by decide⟩ : Date).ordinal + 1 := by
  have hrule : KeepsFourYearRule 2000 := by
    unfold KeepsFourYearRule
    decide
  have hlast : (⟨2000, 12, 31, by decide⟩ : Date).dayNumber = 366 := by decide
  have hnext : (⟨2000, 12, 31, by decide⟩ : Date).next? = some ⟨2001, 1, 1, by decide⟩ := by decide
  obtain ⟨_, _, hkeeps⟩ := dayNumber_eq_ordinal ⟨2000, 12, 31, by decide⟩
  obtain ⟨hordinal, hstep⟩ := hkeeps hrule
  obtain ⟨hahead, _⟩ := dayNumber_eq_ordinal ⟨1900, 3, 1, by decide⟩
  rw [hnext] at hstep
  refine ⟨hrule, ⟨hlast, ?_⟩, hnext, hstep.2, ?_, hahead⟩
  · rw [hlast] at hordinal
    exact_mod_cast hordinal.symm
  · unfold KeepsFourYearRule
    decide

end GeoAlmanac.Date
