import GeoAlmanac.Sun.Day
import GeoAlmanac.Proofs.Calendar.Days

/-! How the two crossings of a date make up its day. The rules of the pairing are a relation between
the outcomes of single searches and a day; the day that is solved for is the only one they allow.
Nothing here depends on the numbers the formulas are evaluated in. -/

namespace GeoAlmanac

/-- The rules by which a sunrise is paired with a sunset. -/
inductive Pairing (rising setting : Date → Except Absence Instant) (date : Date) :
    SolarDay → Prop where
  | noSunrise {reason : Absence} : rising date = .error reason →
      Pairing rising setting date reason.solarDay
  | noSunset {rise : Instant} {reason : Absence} : rising date = .ok rise →
      setting date = .error reason → Pairing rising setting date reason.solarDay
  | sameDate {rise set : Instant} : rising date = .ok rise → setting date = .ok set →
      ¬ set < rise → Pairing rising setting date (.regular rise set)
  | endOfCalendar {rise set : Instant} : rising date = .ok rise → setting date = .ok set →
      set < rise → date.next? = none → Pairing rising setting date .unresolved
  | noSunsetNext {rise set : Instant} {next : Date} {reason : Absence} :
      rising date = .ok rise → setting date = .ok set → set < rise → date.next? = some next →
      setting next = .error reason → Pairing rising setting date reason.solarDay
  | nextDate {rise early set : Instant} {next : Date} :
      rising date = .ok rise → setting date = .ok early → early < rise →
      date.next? = some next → setting next = .ok set →
      Pairing rising setting date (.regular rise set)

/-- The rules leave no choice. -/
theorem Pairing.unique {rising setting : Date → Except Absence Instant} {date : Date}
    {first second : SolarDay} (h : Pairing rising setting date first)
    (h' : Pairing rising setting date second) : first = second := by
  cases h <;> cases h' <;> simp_all

theorem Absence.solarDay_ne_regular {reason : Absence} {rise set : Instant} :
    reason.solarDay ≠ .regular rise set := by
  cases reason <;> simp [Absence.solarDay]

theorem Absence.solarDay_eq_unresolved {reason : Absence} :
    reason.solarDay = .unresolved ↔ reason = .outsideDay := by
  cases reason <;> simp [Absence.solarDay]

theorem Pairing.unresolved_cases {rising setting : Date → Except Absence Instant} {date : Date}
    (h : Pairing rising setting date .unresolved) :
    rising date = .error .outsideDay ∨ (∃ d, setting d = .error .outsideDay) ∨
      date.next? = none := by
  generalize hday : SolarDay.unresolved = day at h
  cases h with
  | noSunrise hr =>
    rw [Absence.solarDay_eq_unresolved.mp hday.symm] at hr
    exact .inl hr
  | noSunset _ hs =>
    rw [Absence.solarDay_eq_unresolved.mp hday.symm] at hs
    exact .inr (.inl ⟨_, hs⟩)
  | noSunsetNext _ _ _ _ hs =>
    rw [Absence.solarDay_eq_unresolved.mp hday.symm] at hs
    exact .inr (.inl ⟨_, hs⟩)
  | endOfCalendar _ _ _ hn => exact .inr (.inr hn)
  | sameDate _ _ _ => cases hday
  | nextDate _ _ _ _ _ => cases hday

theorem Pairing.regular_cases {rising setting : Date → Except Absence Instant} {date : Date}
    {rise set : Instant} (h : Pairing rising setting date (.regular rise set)) :
    rising date = .ok rise ∧
      ((setting date = .ok set ∧ ¬ set < rise) ∨
        ∃ next, date.next? = some next ∧ setting next = .ok set) := by
  generalize hday : SolarDay.regular rise set = day at h
  cases h with
  | noSunrise _ | noSunset _ _ | noSunsetNext _ _ _ _ _ =>
    exact absurd hday.symm Absence.solarDay_ne_regular
  | endOfCalendar _ _ _ _ => cases hday
  | sameDate hr hs hlt =>
    cases hday
    exact ⟨hr, .inl ⟨hs, hlt⟩⟩
  | nextDate hr _ _ hn hs =>
    cases hday
    exact ⟨hr, .inr ⟨_, hn, hs⟩⟩

theorem Date.atHour?_eq_some {α : Type} [Arithmetic α] {date : Date} {hour : α} {t : Instant}
    (h : date.atHour? hour = some t) : t.date = date ∧ t.secondOfDay % 60 = 0 := by
  unfold Date.atHour? Date.at? at h
  dsimp only at h
  split at h
  · cases h
    exact ⟨rfl, by simp only; omega⟩
  · cases h

namespace SolarDay

/-- How a day lies in the calendar: a sunrise is a minute of its date, the sunset a minute of that
date or the next, not before the sunrise and less than two days after it. Any other day has neither
and lasts no time. -/
def Placed (date : Date) : SolarDay → Prop
  | .regular rise set =>
    (rise.secondOfDay % 60 = 0 ∧ set.secondOfDay % 60 = 0) ∧
      (rise.date = date ∧ (set.date = date ∨ date.next? = some set.date)) ∧
      0 ≤ (regular rise set).duration ∧ (regular rise set).duration < 48 * 3600
  | day => day.sunrise? = none ∧ day.sunset? = none ∧ day.duration = 0

theorem placed_of_absence (date : Date) (reason : Absence) : reason.solarDay.Placed date := by
  cases reason <;> exact ⟨rfl, rfl, rfl⟩

/-- Two instants of one date are less than a day apart. -/
theorem duration_sameDate {rise set : Instant} (hdate : set.date = rise.date) :
    (regular rise set).duration = (set.secondOfDay : Int) - rise.secondOfDay := by
  simp only [duration, Instant.seconds, hdate]
  omega

theorem duration_nextDate (rise set : Instant) (hnext : rise.date.next? = some set.date) :
    (regular rise set).duration = 86400 + set.secondOfDay - rise.secondOfDay := by
  simp only [duration, Instant.seconds, Date.daysSinceEpoch_next hnext]
  omega

end SolarDay

section
variable {α : Type} [Geometric α] [Elementary α]

/-- The search of one crossing on any date. -/
def SolarDay.crossingOn (place : Coordinate α) (zenith : Zenith) (phase : Phase) (date : Date) :
    Except Absence Instant :=
  (Search.mk place date zenith phase).run.value

open SolarDay

/-- A crossing that is found is a whole minute of its date. -/
theorem crossingOn_placed {place : Coordinate α} {zenith : Zenith} {phase : Phase} {date : Date}
    {t : Instant} (h : crossingOn place zenith phase date = .ok t) :
    t.date = date ∧ t.secondOfDay % 60 = 0 := by
  unfold crossingOn Search.run at h
  dsimp only at h
  cases hc : (Search.mk place date zenith phase).crossing with
  | polarNight c => simp [hc, Crossing.instant] at h
  | polarDay c => simp [hc, Crossing.instant] at h
  | crosses day hour =>
    simp only [hc, Crossing.instant] at h
    split at h
    · split at h
      next t' ht =>
        cases h
        exact Date.atHour?_eq_some ht
      next => cases h
    · cases h

/-- A pairing of crossings lies in the calendar as it should. -/
theorem Pairing.placed {place : Coordinate α} {date : Date} {zenith : Zenith} {day : SolarDay}
    (h : Pairing (crossingOn place zenith .sunrise) (crossingOn place zenith .sunset) date day) :
    day.Placed date := by
  cases h with
  | noSunrise _ | noSunset _ _ | noSunsetNext _ _ _ _ _ => exact placed_of_absence date _
  | endOfCalendar _ _ _ _ => exact ⟨rfl, rfl, rfl⟩
  | @sameDate rise set hr hs hlt =>
    obtain ⟨hrd, hrm⟩ := crossingOn_placed hr
    obtain ⟨hsd, hsm⟩ := crossingOn_placed hs
    have hdur := duration_sameDate (hsd.trans hrd.symm)
    have hle : 0 ≤ (regular rise set).duration := sub_nonneg.mpr (not_lt.mp hlt)
    have := set.lt_day
    exact ⟨⟨hrm, hsm⟩, ⟨hrd, .inl hsd⟩, hle, by omega⟩
  | @nextDate rise early set next hr _ _ hn hs =>
    obtain ⟨hrd, hrm⟩ := crossingOn_placed hr
    obtain ⟨hsd, hsm⟩ := crossingOn_placed hs
    have hnext : date.next? = some set.date := hsd ▸ hn
    have hdur := duration_nextDate rise set (hrd ▸ hnext)
    have := rise.lt_day
    have := set.lt_day
    exact ⟨⟨hrm, hsm⟩, ⟨hrd, .inr hnext⟩, by omega, by omega⟩

/-- What is solved for obeys the rules. -/
theorem pairing_solve (place : Coordinate α) (date : Date) (zenith : Zenith) :
    Pairing (crossingOn place zenith .sunrise) (crossingOn place zenith .sunset) date
      (solve place date zenith).value := by
  unfold solve
  dsimp only
  split
  next reason hr => exact .noSunrise hr
  next rise hr =>
    split
    next reason hs => exact .noSunset hr hs
    next set hs =>
      split
      next hlt =>
        split
        next hn => exact .endOfCalendar hr hs hlt hn
        next next hn =>
          split
          next reason hf => exact .noSunsetNext hr hs hlt hn hf
          next set' hf => exact .nextDate hr hs hlt hn hf
      next hlt => exact .sameDate hr hs hlt

/-- The rules allow exactly the day that is solved for. -/
theorem solve_eq_iff {place : Coordinate α} {date : Date} {zenith : Zenith} {day : SolarDay} :
    (solve place date zenith).value = day ↔
      Pairing (crossingOn place zenith .sunrise) (crossingOn place zenith .sunset) date day :=
  ⟨fun h => h ▸ pairing_solve place date zenith,
    fun h => (pairing_solve place date zenith).unique h⟩

end
end GeoAlmanac
