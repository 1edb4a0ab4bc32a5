import GeoAlmanac.Proofs.Sun.RightAscension
import GeoAlmanac.Proofs.Sun.Pairing

/-! The universal time of a crossing, read over the reals. The sun culminates within three tenths of
an hour of the local mean noon throughout the year, and a crossing follows the culmination of its
date or of the date before by at most a day. Away from the date line the time so obtained is at most
one day off its date. -/

namespace GeoAlmanac
open scoped Real

namespace Sun

/-- The two terms by which the true longitude differs from the mean one, in degrees. -/
noncomputable def centre (t : ℝ) : ℝ :=
  1.916 * Real.sin (toRadians (meanAnomaly t)) +
    0.020 * Real.sin (2.0 * toRadians (meanAnomaly t))

theorem abs_centre_le (t : ℝ) : |centre t| ≤ 1.936 := by
  obtain ⟨hl, hu⟩ := abs_le.mp (Real.abs_sin_le_one (toRadians (meanAnomaly t)))
  obtain ⟨hl2, hu2⟩ := abs_le.mp (Real.abs_sin_le_one (2.0 * toRadians (meanAnomaly t)))
  unfold centre
  rw [abs_le]
  constructor <;> linarith

/-- The true longitude before it is reduced to one turn. -/
noncomputable def unreduced (t : ℝ) : ℝ :=
  0.9856 * t + 279.345 + centre t

theorem unreduced_eq (t : ℝ) : unreduced t =
    meanAnomaly t + 1.916 * Real.sin (toRadians (meanAnomaly t)) +
      0.020 * Real.sin (2.0 * toRadians (meanAnomaly t)) + 282.634 := by
  unfold unreduced centre
  rw [show (meanAnomaly t : ℝ) = 0.9856 * t - 3.289 from rfl]
  ring

theorem trueLongitude_eq (t : ℝ) :
    trueLongitude t = unreduced t - 360 * ⌊unreduced t / 360⌋ := by
  rw [← Angle.wrap_eq, unreduced_eq]
  rfl

theorem turns_of_mem {t : ℝ} (h0 : 0 ≤ t) (h368 : t ≤ 368) :
    ⌊unreduced t / 360⌋ = 0 ∨ ⌊unreduced t / 360⌋ = 1 := by
  obtain ⟨hl, hu⟩ := abs_le.mp (abs_centre_le t)
  have hlow : 0 ≤ ⌊unreduced t / 360⌋ := Int.floor_nonneg.mpr (by unfold unreduced; linarith)
  have hhigh : ⌊unreduced t / 360⌋ < 2 :=
    Int.floor_lt.mpr (by unfold unreduced; push_cast; linarith)
  omega

/-- The local mean time at which the sun culminates, in hours. -/
noncomputable def culmination (t : ℝ) : ℝ :=
  rightAscension (trueLongitude t) - 0.06571 * t - 6.622

/-- The sun culminates near the mean noon of the date or, once its longitude has passed a whole
turn, of the date before. -/
theorem culmination_near {t : ℝ} (h0 : 0 ≤ t) (h368 : t ≤ 368) :
    |culmination t - (12 - 24 * ⌊unreduced t / 360⌋)| ≤ 0.3 := by
  obtain ⟨hl, hu⟩ := abs_le.mp (abs_centre_le t)
  have hnear := rightAscension_near (trueLongitude t)
  have htrue : trueLongitude t = 0.9856 * t + 279.345 + centre t - 360 * ⌊unreduced t / 360⌋ :=
    trueLongitude_eq t
  obtain ⟨hra, hra'⟩ := abs_le.mp hnear
  unfold culmination
  rw [abs_le]
  constructor <;> linarith

end Sun

namespace Search

theorem day_eq (s : Search ℝ) :
    s.day = s.date.dayNumber + (s.phase.localHour - s.place.longitude / 15) / 24 := by
  have hday : s.day =
      s.date.dayNumber + (s.phase.localHour - s.place.longitude / 15.0) / 24.0 := rfl
  norm_num [hday]

theorem rawHour_eq (s : Search ℝ) :
    s.rawHour = s.hourAngle / 15 + Sun.culmination s.day - s.place.longitude / 15 := by
  have hraw : s.rawHour = s.hourAngle / 15.0 +
      Sun.rightAscension (Sun.trueLongitude s.day) - 0.06571 * s.day - 6.622 -
        s.place.longitude / 15.0 := rfl
  unfold Sun.culmination
  norm_num only at hraw ⊢
  linarith

theorem day_bounds {s : Search ℝ} (h : |s.place.longitude| ≤ 180) : 0 ≤ s.day ∧ s.day ≤ 368 := by
  obtain ⟨hl, hu⟩ := abs_le.mp h
  obtain ⟨hd1, hd366⟩ := s.date.dayNumber_bounds
  have hd1 : (1 : ℝ) ≤ s.date.dayNumber := by exact_mod_cast hd1
  have hd366 : (s.date.dayNumber : ℝ) ≤ 366 := by exact_mod_cast hd366
  have hhour : (6 : ℝ) ≤ s.phase.localHour ∧ (s.phase.localHour : ℝ) ≤ 18 := by
    cases s.phase <;> norm_num [Phase.localHour]
  rw [day_eq]
  constructor <;> linarith

theorem toDegrees_arccos_bounds (x : ℝ) :
    0 ≤ toDegrees (Real.arccos x) ∧ toDegrees (Real.arccos x) ≤ 180 := by
  have hl := toDegrees_le (Real.arccos_nonneg x)
  have hu := toDegrees_le (Real.arccos_le_pi x)
  rw [toDegrees_eq 0, zero_mul] at hl
  exact ⟨hl, toDegrees_half ▸ hu⟩

/-- The hour angle lies within one turn: a setting sun in the half turn after its culmination, a
rising one in the half turn before the next. -/
theorem hourAngle_half (s : Search ℝ) :
    match s.phase with
    | .sunset => 0 ≤ s.hourAngle ∧ s.hourAngle ≤ 180
    | .sunrise => 180 ≤ s.hourAngle ∧ s.hourAngle ≤ 360 := by
  obtain ⟨hl, hu⟩ := toDegrees_arccos_bounds s.cosHourAngle
  unfold hourAngle
  simp only [acos_eq]
  cases s.phase <;> norm_num only <;> constructor <;> linarith

theorem hourAngle_bounds (s : Search ℝ) : 0 ≤ s.hourAngle ∧ s.hourAngle ≤ 360 := by
  have hhalf := s.hourAngle_half
  split at hhalf <;> constructor <;> linarith

theorem rawHour_bounds {s : Search ℝ} (h : |s.place.longitude| ≤ 175) :
    -24 ≤ s.rawHour ∧ s.rawHour < 48 := by
  obtain ⟨hl, hu⟩ := abs_le.mp h
  obtain ⟨hd0, hd368⟩ := day_bounds (h.trans (by norm_num))
  obtain ⟨hh0, hh360⟩ := s.hourAngle_bounds
  obtain ⟨hcl, hcu⟩ := abs_le.mp (Sun.culmination_near hd0 hd368)
  rw [rawHour_eq]
  rcases Sun.turns_of_mem hd0 hd368 with hk | hk
  · rw [hk] at hcl hcu
    push_cast at hcl hcu
    constructor <;> linarith
  · rw [hk] at hcl hcu
    push_cast at hcl hcu
    constructor <;> linarith

theorem exists_wrapOnce_eq (hour : ℝ) : ∃ n : ℤ, wrapOnce hour = hour + 24 * n := by
  unfold wrapOnce
  norm_num only
  split_ifs
  · exact ⟨1, by push_cast; ring⟩
  · exact ⟨-1, by push_cast; ring⟩
  · exact ⟨0, by push_cast; ring⟩

theorem wrapOnce_mem {hour : ℝ} (hl : -24 ≤ hour) (hu : hour < 48) :
    0 ≤ wrapOnce hour ∧ wrapOnce hour < 24 := by
  unfold wrapOnce
  norm_num only
  split_ifs <;> constructor <;> linarith

theorem wrapOnce_eq_of_days {hour hour' : ℝ} (h : 0 ≤ wrapOnce hour ∧ wrapOnce hour < 24)
    (h' : 0 ≤ wrapOnce hour' ∧ wrapOnce hour' < 24) {n : ℤ} (hdays : hour' - hour = 24 * n) :
    wrapOnce hour' = wrapOnce hour := by
  obtain ⟨a, ha⟩ := exists_wrapOnce_eq hour
  obtain ⟨b, hb⟩ := exists_wrapOnce_eq hour'
  have hwhole : wrapOnce hour' - wrapOnce hour = 24 * (n + b - a : ℤ) := by
    push_cast
    linarith
  have hzero : n + b - a = 0 := by
    have hl : (-1 : ℝ) < (n + b - a : ℤ) := by linarith
    have hu : ((n + b - a : ℤ) : ℝ) < 1 := by linarith
    have hl : -1 < n + b - a := by exact_mod_cast hl
    have hu : n + b - a < 1 := by exact_mod_cast hu
    omega
  rw [hzero] at hwhole
  push_cast at hwhole
  linarith

end Search

theorem toNat_toUInt32 {n : ℤ} (h0 : 0 ≤ n) (hn : n < 2 ^ 32) :
    ((Arithmetic.toUInt32 (n : ℝ)).toNat : ℤ) = n := by
  obtain ⟨k, rfl⟩ := Int.eq_ofNat_of_zero_le h0
  have hk : k < 2 ^ 32 := by exact_mod_cast hn
  have hfloor : ⌊((k : ℤ) : ℝ)⌋₊ = k := by simp
  change ((UInt32.ofNat (min ⌊((k : ℤ) : ℝ)⌋₊ (2 ^ 32 - 1))).toNat : ℤ) = k
  rw [hfloor, min_eq_left (by omega), UInt32.toNat_ofNat_of_lt' hk]

theorem Date.exists_atHour? (date : Date) {hour : ℝ} (h0 : 0 ≤ hour) (h24 : hour < 24) :
    ∃ t, date.atHour? hour = some t ∧ t.date = date ∧ (t.secondOfDay : ℤ) = 60 * ⌊60 * hour⌋ := by
  have hlow := Int.floor_le hour
  have hhigh := Int.lt_floor_add_one hour
  have hwhole0 : 0 ≤ ⌊hour⌋ := Int.floor_nonneg.mpr h0
  have hwhole : ⌊hour⌋ < 24 := Int.floor_lt.mpr (by exact_mod_cast h24)
  have hminute0 : 0 ≤ ⌊(hour - ⌊hour⌋) * 60⌋ := Int.floor_nonneg.mpr (by linarith)
  have hminute : ⌊(hour - ⌊hour⌋) * 60⌋ < 60 := Int.floor_lt.mpr (by push_cast; linarith)
  have hfloor : ⌊60 * hour⌋ = ⌊hour⌋ * 60 + ⌊(hour - ⌊hour⌋) * 60⌋ := by
    rw [← Int.floor_intCast_add]
    congr 1
    push_cast
    ring
  have hw := toNat_toUInt32 hwhole0 (by omega)
  have hm := toNat_toUInt32 hminute0 (by omega)
  unfold Date.atHour? Date.at?
  simp only [floor_eq]
  norm_num only
  rw [dif_pos (by omega)]
  exact ⟨_, rfl, rfl, by push_cast; omega⟩

theorem isHourOfDay_iff (hour : ℝ) : isHourOfDay hour = true ↔ 0 ≤ hour ∧ hour < 24 := by
  norm_num [isHourOfDay]

theorem Crossing.instant_crosses (date : Date) (day : ℝ) {hour : ℝ} (h0 : 0 ≤ hour)
    (h24 : hour < 24) : ∃ t, (Crossing.crosses day hour).instant date = .ok t ∧
      t.date = date ∧ (t.secondOfDay : ℤ) = 60 * ⌊60 * hour⌋ := by
  obtain ⟨t, ht, hplaced⟩ := date.exists_atHour? h0 h24
  exact ⟨t, by simp [Crossing.instant, isHourOfDay_iff, h0, h24, ht], hplaced⟩

theorem Search.crossing_cases (s : Search ℝ) :
    (∃ c, s.crossing = .polarNight c) ∨ (∃ c, s.crossing = .polarDay c) ∨
      s.crossing = .crosses s.day (wrapOnce s.rawHour) := by
  unfold Search.crossing
  dsimp only
  split_ifs
  · exact .inl ⟨_, rfl⟩
  · exact .inr (.inl ⟨_, rfl⟩)
  · exact .inr (.inr rfl)

theorem Search.crossing_of_abs_le {s : Search ℝ} (h : |s.cosHourAngle| ≤ 1) :
    s.crossing = .crosses s.day (wrapOnce s.rawHour) := by
  obtain ⟨hl, hu⟩ := abs_le.mp h
  unfold crossing
  norm_num only
  rw [if_neg (not_lt.mpr hu), if_neg (not_lt.mpr hl)]

theorem Search.crossing_in_day {s : Search ℝ} (h : |s.place.longitude| ≤ 175) :
    0 ≤ wrapOnce s.rawHour ∧ wrapOnce s.rawHour < 24 :=
  wrapOnce_mem (rawHour_bounds h).1 (rawHour_bounds h).2

theorem crossingOn_ne_outsideDay {place : Coordinate ℝ} (h : |place.longitude| ≤ 175)
    (zenith : Zenith) (phase : Phase) (date : Date) :
    SolarDay.crossingOn place zenith phase date ≠ .error .outsideDay := by
  obtain ⟨h0, h24⟩ := Search.crossing_in_day (s := ⟨place, date, zenith, phase⟩) h
  unfold SolarDay.crossingOn Search.run
  rcases (Search.mk place date zenith phase).crossing_cases with ⟨c, hc⟩ | ⟨c, hc⟩ | hc
  · simp [hc, Crossing.instant]
  · simp [hc, Crossing.instant]
  · obtain ⟨t, ht, _⟩ :=
      Crossing.instant_crosses date (Search.mk place date zenith phase).day h0 h24
    simp [hc, ht]

/-- One turn is enough five degrees away from the date line, and so only the end of the calendar
leaves a day unresolved there. -/
theorem unresolved_only_at_end {place : Coordinate ℝ} (h : |place.longitude| ≤ 175) (date : Date)
    (zenith : Zenith) :
    (∀ phase : Phase,
      (∃ c, (Search.mk place date zenith phase).crossing = .polarNight c) ∨
      (∃ c, (Search.mk place date zenith phase).crossing = .polarDay c) ∨
      ∃ day hour, (Search.mk place date zenith phase).crossing = .crosses day hour ∧
        0 ≤ hour ∧ hour < 24) ∧
    (∀ phase : Phase, (Search.mk place date zenith phase).run.value ≠ .error .outsideDay) ∧
    ((SolarDay.solve place date zenith).value = .unresolved →
      date.year = lastYear ∧ date.month = 12 ∧ date.day = 31) := by
  refine ⟨fun phase => ?_, fun phase => crossingOn_ne_outsideDay h zenith phase date,
    fun hday => ?_⟩
  · rcases (Search.mk place date zenith phase).crossing_cases with hc | hc | hc
    · exact .inl hc
    · exact .inr (.inl hc)
    · exact .inr (.inr ⟨_, _, hc, Search.crossing_in_day h⟩)
  · rcases (solve_eq_iff.mp hday).unresolved_cases with hr | ⟨d, hs⟩ | hnone
    · exact absurd hr (crossingOn_ne_outsideDay h zenith .sunrise date)
    · exact absurd hs (crossingOn_ne_outsideDay h zenith .sunset d)
    · exact Date.next?_eq_none_iff.mp hnone

/-- The bound on the longitude is attained by a place in the far east of Siberia. -/
theorem unresolved_only_at_end_chukotka :
    |(⟨64, -175⟩ : Coordinate ℝ).longitude| ≤ 175 ∧
      (SolarDay.solve ⟨64, (-175 : ℝ)⟩ ⟨2024, 2, 29, by decide⟩ .official).value ≠ .unresolved := by
  have h : |(⟨64, -175⟩ : Coordinate ℝ).longitude| ≤ 175 := by norm_num
  refine ⟨h, fun hday => ?_⟩
  have hend := (unresolved_only_at_end h ⟨2024, 2, 29, by decide⟩ .official).2.2 hday
  exact absurd hend.1 (by decide)

end GeoAlmanac
