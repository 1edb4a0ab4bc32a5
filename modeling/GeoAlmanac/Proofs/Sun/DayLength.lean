import GeoAlmanac.Proofs.Sun.ComputedCrossing
import GeoAlmanac.Proofs.Sun.Equinox

/-! The length of the day under different zenith distances, in binary64. A regular day lasts for the
two halves of the sun's arc and the drift of its culmination, to a minute and up to whole days; so a
deeper zenith distance lengthens it unless the pairing adds a day to the shorter one. On Hudson Bay
it does so at the September equinox: by the official zenith distance the sun sets just after
midnight in universal time on this date and just before it on the next, by the civil one after it on
both. -/

namespace GeoAlmanac
open Binary64 SolarDay Search
open scoped Real

namespace Search

theorem clock_sub (rising setting : Search ℝ) (hrising : rising.phase = .sunrise)
    (hsetting : setting.phase = .sunset) (hplace : rising.place = setting.place) (c d : ℝ) :
    setting.clock d - rising.clock c = daylight rising setting c d - 24 := by
  unfold clock daylight
  rw [hrising, hsetting, hplace]
  norm_num [Phase.hourAngle]
  ring

theorem later_sunset (place : Coordinate ℝ) {date later : Date}
    (h : later = date ∨ date.next? = some later) (z z' : Zenith) :
    Sun.Later 0.5 (Search.mk place date z .sunrise).day (Search.mk place later z' .sunset).day := by
  have hr : (Search.mk place date z .sunrise).day =
      date.dayNumber + (6.0 - place.longitude / 15) / 24 := day_eq _
  have hs : (Search.mk place later z' .sunset).day =
      later.dayNumber + (18.0 - place.longitude / 15) / 24 := day_eq _
  have hdays : (later.dayNumber : ℝ) = date.dayNumber ∨ (later.dayNumber : ℝ) = date.dayNumber + 1 ∨
      (later.dayNumber : ℝ) = date.dayNumber + 2 ∨ (later.dayNumber : ℝ) = date.dayNumber - 364 ∨
      (later.dayNumber : ℝ) = date.dayNumber - 365 := by
    rcases h with rfl | hnext
    · exact .inl rfl
    · have hnumber := Date.dayNumber_next hnext
      exact .inr (by exact_mod_cast hnumber)
  have hyear : 365.25 ≤ Sun.meanYear ∧ Sun.meanYear ≤ 365.26 := by
    unfold Sun.meanYear
    norm_num
  obtain ⟨hyear, hyear'⟩ := hyear
  unfold Sun.Later
  rw [hr, hs]
  rcases hdays with hd | hd | hd | hd | hd <;> rw [hd]
  · exact ⟨_, by linarith, by linarith, .inl rfl⟩
  · exact ⟨_, by linarith, by linarith, .inl rfl⟩
  · exact ⟨_, by linarith, by linarith, .inl rfl⟩
  · exact ⟨_, by linarith, by linarith, .inr rfl⟩
  · exact ⟨_, by linarith, by linarith, .inr rfl⟩

end Search

/-- A length of so many seconds for hours of daylight: whole minutes below two days, hardly more
than one from the daylight with whole days added to it or taken away. -/
structure ShowsDaylight (seconds : ℤ) (hours : ℝ) : Prop where
  near : ∃ minutes days : ℤ, seconds = 60 * minutes ∧ 0 ≤ minutes ∧ minutes < 2880 ∧
    |(minutes : ℝ) - 60 * (hours + 24 * days)| < 1.0000001

section
variable {seconds : ℤ} {hours : ℝ} (h : ShowsDaylight seconds hours)
include h

/-- A day shorter than a whole turn shows its daylight, or a full day more. -/
theorem ShowsDaylight.short (h0 : 0.0002 ≤ hours) (h24 : hours ≤ 23.75) :
    ∃ minutes : ℤ, seconds = 60 * minutes ∧ ((minutes : ℝ) < 60 * hours + 1.0000001 ∨
      1440 ≤ minutes ∧ (minutes : ℝ) < 60 * hours + 1441.0000001) := by
  obtain ⟨minutes, days, hseconds, hminutes, h48, hnear⟩ := h.near
  obtain ⟨hl, hu⟩ := abs_lt.mp hnear
  have h48 : (minutes : ℝ) + 1 ≤ 2880 := by exact_mod_cast h48
  have hpos : (0 : ℝ) ≤ minutes := by exact_mod_cast hminutes
  have hlow : (-1 : ℝ) < days := by linarith
  have hhigh : (days : ℝ) < 2 := by linarith
  have hlow : -1 < days := by exact_mod_cast hlow
  have hhigh : days < 2 := by exact_mod_cast hhigh
  refine ⟨minutes, hseconds, ?_⟩
  obtain rfl | rfl : days = 0 ∨ days = 1 := by omega
  · left
    push_cast at hu
    linarith
  · right
    push_cast at hl hu
    refine ⟨?_, by linarith⟩
    have hlast : (1439 : ℝ) < minutes := by linarith
    have hlast : 1439 < minutes := by exact_mod_cast hlast
    omega

/-- A day that is not the shortest shows its daylight or more, unless this comes full circle. -/
theorem ShowsDaylight.long (h24 : hours ≤ 24.03) :
    ∃ minutes : ℤ, seconds = 60 * minutes ∧
      (minutes ≤ 2 ∧ 23.98 ≤ hours ∨ 60 * hours - 1.0000001 < (minutes : ℝ)) := by
  obtain ⟨minutes, days, hseconds, hminutes, _, hnear⟩ := h.near
  obtain ⟨hl, hu⟩ := abs_lt.mp hnear
  refine ⟨minutes, hseconds, ?_⟩
  rcases lt_or_ge days 0 with hneg | hpos
  · left
    have hdays : (days : ℝ) ≤ -1 := by exact_mod_cast Int.le_sub_one_of_lt hneg
    have hfirst : (0 : ℝ) ≤ minutes := by exact_mod_cast hminutes
    have hsmall : (minutes : ℝ) < 3 := by linarith
    have hsmall : minutes < 3 := by exact_mod_cast hsmall
    exact ⟨by omega, by linarith⟩
  · right
    have hdays : (0 : ℝ) ≤ days := by exact_mod_cast hpos
    linarith

end

/-- Eighteen minutes more of daylight are a longer day, unless the shorter one has a full day too
much or the longer one comes full circle. -/
theorem ShowsDaylight.le_cases {seconds seconds' : ℤ} {hours hours' : ℝ}
    (h : ShowsDaylight seconds hours) (h' : ShowsDaylight seconds' hours') (h0 : 0.0002 ≤ hours)
    (hlonger : hours + 0.3 ≤ hours') (h24 : hours' ≤ 24.03) :
    seconds ≤ seconds' ∨ (24 * 3600 ≤ seconds ∧ seconds ≤ seconds' + 24 * 3600) ∨
      seconds' ≤ 120 ∧ 23.98 ≤ hours' := by
  obtain ⟨minutes, hminutes, hshort⟩ := h.short h0 (by linarith)
  obtain ⟨minutes', hminutes', hlong⟩ := h'.long h24
  rcases hlong with ⟨hfew, hfull⟩ | hlong
  · exact .inr (.inr ⟨by omega, hfull⟩)
  rcases hshort with hshort | ⟨hday, hshort⟩
  · have hlt : (minutes : ℝ) < minutes' := by linarith
    have hlt : minutes < minutes' := by exact_mod_cast hlt
    exact .inl (by omega)
  · have hlt : (minutes : ℝ) < minutes' + 1440 := by linarith
    have hlt : minutes < minutes' + 1440 := by exact_mod_cast hlt
    exact .inr (.inl ⟨by omega, by omega⟩)

/-- The crossings of a regular day, each on the date that its instant falls on. -/
theorem crossings_of_regular {α : Type} [Geometric α] [Elementary α] {place : Coordinate α}
    {date : Date} {zenith : Zenith} {rise set : Instant}
    (h : (solve place date zenith).value = .regular rise set) :
    crossingOn place zenith .sunrise date = .ok rise ∧
      crossingOn place zenith .sunset set.date = .ok set := by
  obtain ⟨hrise, ⟨hset, -⟩ | ⟨next, -, hset⟩⟩ := (solve_eq_iff.mp h).regular_cases
  · rw [(crossingOn_placed hset).1]
    exact ⟨hrise, hset⟩
  · rw [(crossingOn_placed hset).1]
    exact ⟨hrise, hset⟩

section
variable [Elementary Float] (h : Sun.AccurateFunctions) {place : Coordinate Float}
  (hplace : place.Accepted) {date : Date} {zenith : Zenith} {rise set : Instant}
  (hday : (solve place date zenith).value = .regular rise set)
include h hplace hday

/-- What the length of a regular day says about its crossings. -/
theorem showsDaylight_of_regular {rising setting : Search Float}
    (hrising : rising = ⟨place, date, zenith, .sunrise⟩)
    (hsetting : setting = ⟨place, set.date, zenith, .sunset⟩)
    (hrise : rising.FollowsLongitude) (hset : setting.FollowsLongitude) :
    |value rising.cosHourAngle| ≤ 1 ∧ |value setting.cosHourAngle| ≤ 1 ∧
      ShowsDaylight (regular rise set).duration (daylight rising.exact setting.exact
        (value rising.cosHourAngle) (value setting.cosHourAngle)) := by
  obtain ⟨-, ⟨hrdate, hdate⟩, hduration0, hduration48⟩ := (solve_eq_iff.mp hday).placed
  obtain ⟨hr, hs⟩ := crossings_of_regular hday
  have hr : rising.run.value = .ok rise := hrising ▸ hr
  have hs : setting.run.value = .ok set := hsetting ▸ hs
  obtain ⟨hc, -, minute, n, hsecond, -, hlow, hhigh⟩ :=
    minute_of_run h (by rwa [hrising]) hrise hr
  obtain ⟨hd, -, minute', n', hsecond', -, hlow', hhigh'⟩ :=
    minute_of_run h (by rwa [hsetting]) hset hs
  have hclock := clock_sub rising.exact setting.exact
    (by rw [hrising, exact]) (by rw [hsetting, exact]) (by rw [hrising, hsetting, exact, exact])
    (value rising.cosHourAngle) (value setting.cosHourAngle)
  refine ⟨hc, hd, ⟨?_⟩⟩
  rcases hdate with hsame | hnext
  · have hduration := duration_sameDate (hsame.trans hrdate.symm)
    refine ⟨minute' - minute, n' - n - 1, by omega, by omega, by omega, abs_lt.mpr ⟨?_, ?_⟩⟩
    · push_cast
      linarith
    · push_cast
      linarith
  · have hduration := duration_nextDate rise set (hrdate ▸ hnext)
    refine ⟨1440 + minute' - minute, n' - n, by omega, by omega, by omega,
      abs_lt.mpr ⟨?_, ?_⟩⟩
    · push_cast
      linarith
    · push_cast
      linarith

end

/-- The place on Hudson Bay, in doubles. -/
def bayside : Coordinate Float := ⟨60.0, -90.1875⟩

theorem equinox_valid : Date.Valid 2023 9 22 := by
  decide

theorem dayAfterEquinox_valid : Date.Valid 2023 9 23 := by
  decide

def equinox : Date := ⟨2023, 9, 22, equinox_valid⟩

def dayAfterEquinox : Date := ⟨2023, 9, 23, dayAfterEquinox_valid⟩

theorem bayside_accepted : bayside.Accepted :=
  Coordinate.accepted_iff.mpr ⟨⟨rfl, rfl, by decide, by decide⟩, ⟨rfl, rfl, by decide, by decide⟩⟩

theorem value_west : value bayside.longitude = -90.1875 := by
  have hwest : value 90.1875 = 90.1875 := by
    change signFactor .positive * ((6346381115523072 : ℕ) * 2 ^ (-46 : ℤ)) = (90.1875 : ℝ)
    norm_num [signFactor]
  exact (isFinite_neg (x := 90.1875) rfl).2.trans (congrArg Neg.neg hwest)

theorem north_near : |value (toRadians bayside.latitude) - π / 3| ≤ 1e-9 := by
  have hsixty : Near 60.0 (60 : ℝ) 6e-14 := near_decimal 600 1 (by norm_num) (by norm_num)
  have hradians := Sun.toRadians_near (δ := 1e-9) hsixty (by norm_num) (by norm_num) (by norm_num)
  rw [show π / 3 = toRadians (60 : ℝ) by rw [toRadians_eq]; ring]
  exact hradians.close

namespace Search
variable {s : Search Float} (hplace : s.place = bayside)
include hplace

theorem exact_day_eq : s.exact.day = s.date.dayNumber + (s.phase.localHour + 6.0125) / 24 := by
  rw [day_eq, exact, hplace, value_west]
  norm_num

theorem clock_eq_bayside (c : ℝ) : s.exact.clock c =
    (s.phase.hourAngle c + 180.0 + Sun.equationOfTime s.exact.day + 90.1875) / 15.0 := by
  rw [clock, show s.exact.place.longitude = -90.1875 by rw [exact, hplace, value_west],
    sub_neg_eq_add]
  rfl

section
variable [Elementary Float] (h : Sun.AccurateFunctions) (hl : 265.4 ≤ s.exact.day)
  (hu : s.exact.day ≤ 267.1)
include h hl hu

/-- About the equinox the longitude is near a half turn, one turn short of the unreduced one. -/
theorem longitude_near_equinox :
    Near s.trueLongitude (Sun.unreduced s.exact.day + 360 * (-1 : ℤ)) 5e-11 ∧
      178 ≤ value s.trueLongitude ∧ value s.trueLongitude ≤ 182 := by
  obtain ⟨h0, h360, n, hn⟩ := trueLongitude_near (hplace ▸ bayside_accepted) h
  obtain ⟨hcentre, hcentre'⟩ :=
    Sun.centre_near_equinox (show 265 ≤ s.exact.day by linarith) (by linarith)
  have hlongitude : Sun.unreduced s.exact.day =
    0.9856 * s.exact.day + 279.345 + Sun.centre s.exact.day := rfl
  obtain ⟨hclose, hclose'⟩ := abs_le.mp hn.close
  have hlow : (-2 : ℝ) < n := by linarith
  have hhigh : (n : ℝ) < 0 := by linarith
  have hlow : -2 < n := by exact_mod_cast hlow
  have hhigh : n < 0 := by exact_mod_cast hhigh
  obtain rfl : n = -1 := by omega
  push_cast at *
  exact ⟨hn, by linarith, by linarith⟩

theorem follows_near_equinox (htangents : Sun.NearestTangents) : s.FollowsLongitude := by
  obtain ⟨hn, hlow, hhigh⟩ := longitude_near_equinox hplace h hl hu
  obtain ⟨-, hnear⟩ := Sun.rightAscension_near_longitude hn.finite (by linarith) (by linarith)
    htangents
  rw [if_neg (by linarith), add_zero] at hnear
  exact ⟨hnear.trans_lt (by norm_num)⟩

variable (hz : s.zenith = .official ∨ s.zenith = .civil)
include hz

theorem computed_arc_near_equinox : |value s.cosHourAngle| ≤ 1 ∧
    90 ≤ halfArc (value s.cosHourAngle) ∧ halfArc (value s.cosHourAngle) ≤ 112 ∧
      -2.06 ≤ Sun.equationOfTime s.exact.day ∧ Sun.equationOfTime s.exact.day ≤ -1.75 :=
  arc_near_equinox (solves_exact (hplace ▸ bayside_accepted) h).2 (hplace ▸ north_near) hl hu hz

/-- A crossing about the equinox is found in its minute, so many days off the clock. -/
theorem exists_run_near_equinox (htangents : Sun.NearestTangents) {k : ℤ}
    (hk : k = -1 ∨ k = 0) {a b : ℝ} (ha : 0.001 ≤ a) (hb : b ≤ 23.999)
    (hlow : 15 * a ≤ s.phase.hourAngle (value s.cosHourAngle) +
      Sun.equationOfTime s.exact.day + 270.1875 + 360 * k)
    (hhigh : s.phase.hourAngle (value s.cosHourAngle) +
      Sun.equationOfTime s.exact.day + 270.1875 + 360 * k ≤ 15 * b) :
    ∃ t, s.run.value = .ok t ∧ t.date = s.date ∧ 3600 * a - 60.0000006 < (t.secondOfDay : ℝ) ∧
      (t.secondOfDay : ℝ) ≤ 3600 * b + 0.0000006 := by
  obtain ⟨hn, -⟩ := longitude_near_equinox hplace h hl hu
  obtain ⟨hc, -⟩ := computed_arc_near_equinox hplace h hl hu hz
  have hfollows := follows_near_equinox hplace h hl hu htangents
  have haccepted : s.place.Accepted := hplace ▸ bayside_accepted
  have hclock := clock_eq_bayside hplace (value s.cosHourAngle)
  have hafter : a ≤ s.exact.clock (value s.cosHourAngle) + 24 * k := by linarith
  have hbefore : s.exact.clock (value s.cosHourAngle) + 24 * k ≤ b := by linarith
  obtain ⟨t, ht⟩ := exists_run h haccepted hfollows hn hc (k := k) (by omega)
    (ha.trans hafter) (hbefore.trans hb)
  obtain ⟨hdate, minute, hsecond, hminute, hminute'⟩ :=
    minute_within_day h haccepted hfollows ht (ha.trans hafter) (hbefore.trans hb)
  refine ⟨t, ht, hdate, ?_⟩
  rw [hsecond]
  push_cast
  constructor <;> linarith

end

end Search

/-- A sunset of the date that comes before the sunrise on the clock makes the day end with that of
the next date, however late this is. -/
theorem solve_of_early_sunset {α : Type} [Geometric α] [Elementary α] {place : Coordinate α}
    {zenith : Zenith} {date next : Date} {rise early set : Instant}
    (hnext : date.next? = some next) (hr : crossingOn place zenith .sunrise date = .ok rise)
    (he : crossingOn place zenith .sunset date = .ok early)
    (hs : crossingOn place zenith .sunset next = .ok set)
    (hlt : early.secondOfDay < rise.secondOfDay) :
    (solve place date zenith).value = .regular rise set ∧
      (regular rise set).duration = 86400 + set.secondOfDay - rise.secondOfDay := by
  have hrdate := (crossingOn_placed hr).1
  have hearly : early < rise := by
    change early.seconds < rise.seconds
    unfold Instant.seconds
    rw [hrdate, (crossingOn_placed he).1]
    omega
  exact ⟨solve_eq_iff.mpr (.nextDate hr he hearly hnext hs),
    duration_nextDate rise set (by rw [hrdate, (crossingOn_placed hs).1, hnext])⟩

theorem equinox_day_bounds (zenith : Zenith) :
    let day (date : Date) (phase : Phase) := (exact ⟨bayside, date, zenith, phase⟩).day
    (265.5 ≤ day equinox .sunrise ∧ day equinox .sunrise ≤ 265.501) ∧
      (266 ≤ day equinox .sunset ∧ day equinox .sunset ≤ 266.001) ∧
      267 ≤ day dayAfterEquinox .sunset ∧ day dayAfterEquinox .sunset ≤ 267.001 := by
  have hequinox : equinox.dayNumber = 265 := by decide
  have hnext : dayAfterEquinox.dayNumber = 266 := by decide
  intro day
  simp only [day]
  rw [exact_day_eq rfl, exact_day_eq rfl, exact_day_eq rfl, hequinox, hnext]
  norm_num [Phase.localHour]

section
variable [Elementary Float] (h : Sun.AccurateFunctions) (htangents : Sun.NearestTangents)
include h htangents

theorem follows_on_equinox (zenith : Zenith) :
    FollowsLongitude ⟨bayside, equinox, zenith, .sunrise⟩ ∧
      FollowsLongitude ⟨bayside, dayAfterEquinox, zenith, .sunset⟩ := by
  obtain ⟨⟨hl, hu⟩, -, hl', hu'⟩ := equinox_day_bounds zenith
  exact ⟨follows_near_equinox rfl h (hl.trans' (by norm_num)) (hu.trans (by norm_num)) htangents,
    follows_near_equinox rfl h (hl'.trans' (by norm_num)) (hu'.trans (by norm_num)) htangents⟩

/-- The sun rises before noon in universal time. -/
theorem exists_sunrise_equinox {zenith : Zenith} (hz : zenith = .official ∨ zenith = .civil) :
    ∃ rise, crossingOn bayside zenith .sunrise equinox = .ok rise ∧ rise.date = equinox ∧
      36000 < rise.secondOfDay ∧ rise.secondOfDay < 43200 := by
  obtain ⟨⟨hl, hu⟩, -⟩ := equinox_day_bounds zenith
  have hl := hl.trans' (show 265.4 ≤ (265.5 : ℝ) by norm_num)
  have hu := hu.trans (show 265.501 ≤ (267.1 : ℝ) by norm_num)
  obtain ⟨-, harc, harc', heq, heq'⟩ := computed_arc_near_equinox rfl h hl hu hz
  obtain ⟨rise, hr, hdate, hlow, hhigh⟩ := exists_run_near_equinox rfl h hl hu hz htangents
    (.inl rfl) (a := 10.4) (b := 11.9) (by norm_num) (by norm_num)
    (by rw [Phase.hourAngle]; push_cast; linarith)
    (by rw [Phase.hourAngle]; push_cast; linarith)
  have hlow : (36000 : ℝ) < rise.secondOfDay := by linarith
  have hhigh : (rise.secondOfDay : ℝ) < 43200 := by linarith
  exact ⟨rise, hr, hdate, by exact_mod_cast hlow, by exact_mod_cast hhigh⟩

/-- A sunset whose half arc makes up for the drift of the culmination comes after midnight. -/
theorem exists_sunset_after_midnight {zenith : Zenith} (hz : zenith = .official ∨ zenith = .civil)
    {date : Date} (hl : 265.4 ≤ (exact ⟨bayside, date, zenith, .sunset⟩).day)
    (hu : (exact ⟨bayside, date, zenith, .sunset⟩).day ≤ 267.1)
    (hlate : 90 ≤ halfArc (value (cosHourAngle ⟨bayside, date, zenith, .sunset⟩)) +
      Sun.equationOfTime (exact ⟨bayside, date, zenith, .sunset⟩).day) :
    ∃ set, crossingOn bayside zenith .sunset date = .ok set ∧ set.date = date ∧
      set.secondOfDay < 7200 := by
  obtain ⟨-, harc, harc', heq, heq'⟩ := computed_arc_near_equinox rfl h hl hu hz
  obtain ⟨set, hs, hdate, hlow, hhigh⟩ := exists_run_near_equinox rfl h hl hu hz htangents
    (.inl rfl) (a := 0.012) (b := 1.9) (by norm_num) (by norm_num)
    (by rw [Phase.hourAngle]; push_cast; linarith)
    (by rw [Phase.hourAngle]; push_cast; linarith)
  have hhigh : (set.secondOfDay : ℝ) < 7200 := by linarith
  exact ⟨set, hs, hdate, by exact_mod_cast hhigh⟩

theorem exists_official_sunset_before_midnight :
    ∃ set, crossingOn bayside .official .sunset dayAfterEquinox = .ok set ∧
      set.date = dayAfterEquinox ∧ 79200 < set.secondOfDay := by
  obtain ⟨-, -, hl, hu⟩ := equinox_day_bounds .official
  have hsolves := (solves_exact (s := ⟨bayside, dayAfterEquinox, .official, .sunset⟩)
    bayside_accepted h).2
  have hearly := sunset_after_equinox hsolves north_near rfl hl hu
  have hl := hl.trans' (show 265.4 ≤ (267 : ℝ) by norm_num)
  have hu := hu.trans (show 267.001 ≤ (267.1 : ℝ) by norm_num)
  obtain ⟨-, harc, harc', heq, heq'⟩ := computed_arc_near_equinox rfl h hl hu (.inl rfl)
  obtain ⟨set, hs, hdate, hlow, -⟩ := exists_run_near_equinox rfl h hl hu (.inl rfl) htangents
    (.inr rfl) (a := 23.8) (b := 23.999) (by norm_num) (by norm_num)
    (by rw [Phase.hourAngle]; push_cast; linarith)
    (by rw [Phase.hourAngle]; push_cast; linarith)
  have hlow : (79200 : ℝ) < set.secondOfDay := by linarith
  exact ⟨set, hs, hdate, by exact_mod_cast hlow⟩

theorem exists_civil_sunset_after_midnight {date : Date}
    (hl : 265.4 ≤ (exact ⟨bayside, date, .civil, .sunset⟩).day)
    (hu : (exact ⟨bayside, date, .civil, .sunset⟩).day ≤ 267.1) :
    ∃ set, crossingOn bayside .civil .sunset date = .ok set ∧ set.date = date ∧
      set.secondOfDay < 7200 := by
  let official : Search Float := ⟨bayside, date, .official, .sunset⟩
  let civil : Search Float := ⟨bayside, date, .civil, .sunset⟩
  obtain ⟨hc, harc, -⟩ := computed_arc_near_equinox (s := official) rfl h hl hu (.inl rfl)
  obtain ⟨hd, -, -, heq, -⟩ := computed_arc_near_equinox (s := civil) rfl h hl hu (.inr rfl)
  have hlonger := arc_add_le (solves_exact (s := official) bayside_accepted h).2
    (solves_exact (s := civil) bayside_accepted h).2 hc hd
    (by norm_num [exact, official, civil, Zenith.degrees]) (Sun.later_self civil.exact.day)
    (Sun.later_self civil.exact.day) le_rfl le_rfl
  exact exists_sunset_after_midnight h htangents (.inr rfl) hl hu (by linarith)

/-- By the official zenith distance the day of the equinox ends with the late sunset of the next
date, by the civil one with an early one. -/
theorem equinox_days :
    (∃ rise set, (solve bayside equinox .official).value = .regular rise set ∧
      set.date = dayAfterEquinox ∧ 24 * 3600 < (regular rise set).duration) ∧
    ∃ rise set, (solve bayside equinox .civil).value = .regular rise set ∧
      set.date = dayAfterEquinox ∧ 120 < (regular rise set).duration ∧
        (regular rise set).duration < 24 * 3600 := by
  have hnext : equinox.next? = some dayAfterEquinox := by decide
  constructor
  · obtain ⟨-, ⟨hl, hu⟩, -⟩ := equinox_day_bounds .official
    have hsolves :=
      (solves_exact (s := ⟨bayside, equinox, .official, .sunset⟩) bayside_accepted h).2
    have hlate := sunset_before_equinox hsolves north_near rfl hl hu
    obtain ⟨rise, hr, -, hrise, hrise'⟩ := exists_sunrise_equinox h htangents (.inl rfl)
    obtain ⟨early, he, -, hearly⟩ := exists_sunset_after_midnight h htangents (.inl rfl)
      (hl.trans' (by norm_num)) (hu.trans (by norm_num)) hlate
    obtain ⟨set, hs, hdate, hset⟩ := exists_official_sunset_before_midnight h htangents
    obtain ⟨hday, hduration⟩ := solve_of_early_sunset hnext hr he hs (by omega)
    exact ⟨rise, set, hday, hdate, by omega⟩
  · obtain ⟨-, ⟨hl, hu⟩, hl', hu'⟩ := equinox_day_bounds .civil
    obtain ⟨rise, hr, -, hrise, hrise'⟩ := exists_sunrise_equinox h htangents (.inr rfl)
    obtain ⟨early, he, -, hearly⟩ := exists_civil_sunset_after_midnight h htangents
      (hl.trans' (by norm_num)) (hu.trans (by norm_num))
    obtain ⟨set, hs, hdate, hset⟩ := exists_civil_sunset_after_midnight h htangents
      (hl'.trans' (by norm_num)) (hu'.trans (by norm_num))
    obtain ⟨hday, hduration⟩ := solve_of_early_sunset hnext hr he hs (by omega)
    exact ⟨rise, set, hday, hdate, by omega, by omega⟩

end

theorem Zenith.degrees_lt {z₁ z₂ : Zenith} (h : (z₁.degrees : Float) < z₂.degrees) :
    (z₁.degrees : ℝ) < z₂.degrees := by
  have hlt := (lt_iff_value z₁.degrees_near.finite z₂.degrees_near.finite).mp h
  obtain ⟨hlow, -⟩ := abs_le.mp z₁.degrees_near.close
  obtain ⟨-, hhigh⟩ := abs_le.mp z₂.degrees_near.close
  have hgap : (z₁.degrees : ℝ) < z₂.degrees ∨ z₁ = z₂ ∨ (z₂.degrees : ℝ) + 5 ≤ z₁.degrees := by
    cases z₁ <;> cases z₂ <;> norm_num [Zenith.degrees]
  rcases hgap with hdarker | rfl | hlighter
  · exact hdarker
  · exact absurd hlt (lt_irrefl _)
  · linarith

section
variable [Elementary Float] (h : Sun.AccurateFunctions) {place : Coordinate Float}
  (hplace : place.Accepted) (date : Date) {z₁ z₂ : Zenith}
include h hplace

/-- A deeper zenith distance lengthens the day. The exceptions come from the pairing: the sunset of
the next date can be taken where that of the date was already past midnight, and then the day of the
smaller distance has a full day too much; and where the deeper day all but comes full circle, from
one lower culmination to the next, its two crossings can be paired with each other, two minutes
apart or less. -/
theorem darker_zenith_lengthens_day (hdarker : (z₁.degrees : Float) < z₂.degrees)
    {rise₁ set₁ rise₂ set₂ : Instant} (h₁ : (solve place date z₁).value = .regular rise₁ set₁)
    (h₂ : (solve place date z₂).value = .regular rise₂ set₂)
    (hrise : FollowsLongitude ⟨place, date, z₁, .sunrise⟩)
    (hset₁ : FollowsLongitude ⟨place, set₁.date, z₁, .sunset⟩)
    (hset₂ : FollowsLongitude ⟨place, set₂.date, z₂, .sunset⟩) :
    (regular rise₁ set₁).duration ≤ (regular rise₂ set₂).duration ∨
      (date.next? = some set₁.date ∧ 24 * 3600 ≤ (regular rise₁ set₁).duration ∧
        (regular rise₁ set₁).duration ≤ (regular rise₂ set₂).duration + 24 * 3600) ∨
      ((regular rise₂ set₂).duration ≤ 120 ∧
        |value (hourAngle ⟨place, date, z₂, .sunrise⟩) - 180| < 1 ∧
        |value (hourAngle ⟨place, set₂.date, z₂, .sunset⟩) - 180| < 1) := by
  obtain ⟨hc₁, hd₁, hday₁⟩ := showsDaylight_of_regular h hplace h₁ rfl rfl hrise hset₁
  obtain ⟨hc₂, hd₂, hday₂⟩ := showsDaylight_of_regular h hplace h₂ rfl rfl ⟨hrise.close⟩ hset₂
  have hzenith := Zenith.degrees_lt hdarker
  have hplaced₁ := (solve_eq_iff.mp h₁).placed
  have hlater₁ := later_sunset (exact ⟨place, date, z₁, .sunrise⟩).place hplaced₁.2.1.2 z₁ z₁
  have hlater₂ := later_sunset (exact ⟨place, date, z₁, .sunrise⟩).place
    (solve_eq_iff.mp h₂).placed.2.1.2 z₁ z₂
  have hr₁ := (solves_exact (s := ⟨place, date, z₁, .sunrise⟩) hplace h).2
  obtain ⟨hfinite, hr₂⟩ := solves_exact (s := ⟨place, date, z₂, .sunrise⟩) hplace h
  have hs₁ := (solves_exact (s := ⟨place, set₁.date, z₁, .sunset⟩) hplace h).2
  obtain ⟨hfinite', hs₂⟩ := solves_exact (s := ⟨place, set₂.date, z₂, .sunset⟩) hplace h
  have hnonneg := daylight_ge hr₁ hs₁ hc₁ hd₁ rfl hlater₁
  have hfull := daylight_le hlater₂ (value (cosHourAngle ⟨place, date, z₂, .sunrise⟩))
    (value (cosHourAngle ⟨place, set₂.date, z₂, .sunset⟩))
  have hlonger := daylight_add_le hr₁ hs₁ hr₂ hs₂ hc₁ hd₁ hc₂ hd₂ rfl hlater₁ hlater₂ hzenith
    hzenith
  rcases hday₁.le_cases hday₂ hnonneg hlonger hfull with hle | ⟨hlong, hle⟩ | ⟨hfew, hcircle⟩
  · exact .inl hle
  · refine .inr (.inl ⟨hplaced₁.2.1.2.resolve_left fun hsame => ?_, hlong, hle⟩)
    have hduration := duration_sameDate (hsame.trans hplaced₁.2.1.1.symm)
    have := set₁.lt_day
    omega
  · obtain ⟨harc, harc'⟩ := halfArc_of_full_circle hlater₂ hcircle
    exact .inr (.inr ⟨hfew, hourAngle_near_midnight h hfinite hc₂ harc,
      hourAngle_near_midnight h hfinite' hd₂ harc'⟩)

end

/-- The day of the equinox on Hudson Bay is one of those that have a full day too much. -/
theorem darker_zenith_lengthens_day_hudsonBay :
    @Sun.AccurateFunctions Sun.nearestFunctions ∧ bayside.Accepted ∧
    (Zenith.official.degrees : Float) < Zenith.civil.degrees ∧
    ∃ rise₁ set₁ rise₂ set₂ : Instant,
      (@solve Float _ Sun.nearestFunctions bayside equinox .official).value =
        .regular rise₁ set₁ ∧
      (@solve Float _ Sun.nearestFunctions bayside equinox .civil).value = .regular rise₂ set₂ ∧
      @FollowsLongitude Sun.nearestFunctions ⟨bayside, equinox, .official, .sunrise⟩ ∧
      @FollowsLongitude Sun.nearestFunctions ⟨bayside, set₁.date, .official, .sunset⟩ ∧
      @FollowsLongitude Sun.nearestFunctions ⟨bayside, set₂.date, .civil, .sunset⟩ ∧
      24 * 3600 ≤ (regular rise₁ set₁).duration ∧
      (regular rise₁ set₁).duration ≤ (regular rise₂ set₂).duration + 24 * 3600 := by
  have haccurate := Sun.accurateFunctions_nearestFunctions
  have htangents := Sun.nearestTangents_nearestFunctions
  have hdarker : (Zenith.official.degrees : Float) < Zenith.civil.degrees := by decide +kernel
  obtain ⟨⟨rise₁, set₁, h₁, hdate₁, hlong⟩, rise₂, set₂, h₂, hdate₂, hsome, hshort⟩ :=
    @equinox_days Sun.nearestFunctions haccurate htangents
  obtain ⟨hrise, hset₁⟩ := @follows_on_equinox Sun.nearestFunctions haccurate htangents .official
  obtain ⟨-, hset₂⟩ := @follows_on_equinox Sun.nearestFunctions haccurate htangents .civil
  rw [← hdate₁] at hset₁
  rw [← hdate₂] at hset₂
  refine ⟨haccurate, bayside_accepted, hdarker, rise₁, set₁, rise₂, set₂, h₁, h₂, hrise, hset₁,
    hset₂, hlong.le, ?_⟩
  rcases @darker_zenith_lengthens_day Sun.nearestFunctions haccurate bayside bayside_accepted
    equinox .official .civil hdarker rise₁ set₁ rise₂ set₂ h₁ h₂ hrise hset₁ hset₂
    with hle | hle | ⟨hfew, -⟩
  · omega
  · exact hle.2.2
  · omega

/-- The civil twilight of the equinox on Hudson Bay is given as shorter than the day between its two
ends. -/
theorem civil_shorter_on_hudsonBay :
    bayside.Accepted ∧ (Zenith.official.degrees : Float) < Zenith.civil.degrees ∧
    ∃ rise₁ set₁ rise₂ set₂ : Instant,
      (@solve Float _ Sun.nearestFunctions bayside equinox .official).value =
        .regular rise₁ set₁ ∧
      (@solve Float _ Sun.nearestFunctions bayside equinox .civil).value = .regular rise₂ set₂ ∧
      ¬ (regular rise₁ set₁).duration ≤ (regular rise₂ set₂).duration := by
  obtain ⟨⟨rise₁, set₁, h₁, -, hlong⟩, rise₂, set₂, h₂, -, -, hshort⟩ :=
    @equinox_days Sun.nearestFunctions Sun.accurateFunctions_nearestFunctions
      Sun.nearestTangents_nearestFunctions
  exact ⟨bayside_accepted, by decide +kernel, rise₁, set₁, rise₂, set₂, h₁, h₂, by omega⟩

end GeoAlmanac
