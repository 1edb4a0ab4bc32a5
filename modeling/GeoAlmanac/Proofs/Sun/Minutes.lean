import GeoAlmanac.Proofs.Binary64.WholeParts
import GeoAlmanac.Proofs.Sphere.Doubles
import GeoAlmanac.Proofs.Sun.Pairing

/-! The minute in which the hour of a crossing falls, in binary64. Taking whole hours away is exact;
the product by sixty is rounded and can reach the next minute, but it never reaches the next hour.
So every hour that a search settles on is a minute of its date, for any coordinates and whatever
the elementary functions answer. -/

namespace GeoAlmanac
open Binary64

section
variable {α : Type} [Arithmetic α]

/-- The whole hours of an hour, and the whole minutes of what is left. -/
def wholeHours (hour : α) : α :=
  floor hour

def wholeMinutes (hour : α) : α :=
  floor ((hour - wholeHours hour) * 60.0)

/-- The hour that a crossing settles on, or why it settles on none. -/
def Crossing.hour : Crossing α → Except Absence α
  | .polarNight _ => .error .polarNight
  | .polarDay _ => .error .polarDay
  | .crosses _ hour => if isHourOfDay hour then .ok hour else .error .outsideDay

end

/-- What a clock of whole minutes shows at an hour of the day, `hour` and `minute`. It may be early
by less than a minute, and late by no more than the rounding of one product. -/
structure Shows (time : Float) (hour minute : ℕ) : Prop where
  whole : ⌊value time⌋ = hour
  hours : (wholeHours time).isFinite = true ∧ value (wholeHours time) = hour
  minutes : (wholeMinutes time).isFinite = true ∧ value (wholeMinutes time) = minute
  hour_le : hour ≤ 23
  minute_le : minute ≤ 59
  early : 60 * value time - 1 < (60 * hour + minute : ℕ)
  late : ((60 * hour + minute : ℕ) : ℝ) ≤ 60 * value time + 2 ^ (-47 : ℤ)

theorem isHourOfDay_value {time : Float} (h : isHourOfDay time = true) :
    time.isFinite = true ∧ 0 ≤ value time ∧ value time < 24 := by
  obtain ⟨h0, h24⟩ := Bool.and_eq_true_iff.mp h
  have h0 : (0.0 : Float) ≤ time := of_decide_eq_true h0
  have h24 : time < (24.0 : Float) := of_decide_eq_true h24
  have hfinite : time.isFinite = true := isFinite_of_le_of_le rfl rfl h0 (Binary64.le_of_lt h24)
  have hday : value 24.0 = 24 := (ofInt_natCast (n := 24) (by decide)).2
  exact ⟨hfinite, (le_iff_value rfl hfinite).mp h0, hday ▸ (lt_iff_value hfinite rfl).mp h24⟩

theorem exists_floor_eq {x : ℝ} (h0 : 0 ≤ x) {n : ℕ} (h : x < n) : ∃ k : ℕ, ⌊x⌋ = k ∧ k < n :=
  ⟨⌊x⌋₊, (Int.natCast_floor_eq_floor h0).symm, (Nat.floor_lt h0).mpr h⟩

theorem exists_shows {time : Float} (h : isHourOfDay time = true) :
    ∃ hour minute, Shows time hour minute := by
  obtain ⟨hfinite, h0, h24⟩ := isHourOfDay_value h
  obtain ⟨hproduct, hvalue, h60⟩ := sixty_fract_value hfinite h0
  have hfract := Int.fract_nonneg (value time)
  have hrounded : 0 ≤ rounded (Int.fract (value time) * 60) := rounded_nonneg (by positivity)
  obtain ⟨hour, hhour, hhour24⟩ := exists_floor_eq (n := 24) h0 (by exact_mod_cast h24)
  obtain ⟨minute, hminute, hminute60⟩ :=
    exists_floor_eq (n := 60) hrounded (by exact_mod_cast h60)
  have hhours := floorOf_value hfinite h0
  have hminutes := floorOf_value hproduct (hvalue ▸ hrounded)
  rw [hhour] at hhours
  rw [hvalue, hminute] at hminutes
  have hsmall : Int.fract (value time) * 60 < 2 ^ (6 : ℤ) := by
    have := Int.fract_lt_one (value time)
    norm_num
    linarith
  obtain ⟨hearly, hlate⟩ :=
    floor_rounded_bounds (mul_nonneg hfract (by norm_num)) (by norm_num) (by norm_num) hsmall
  have hsplit := Int.floor_add_fract (value time)
  rw [hhour] at hsplit
  rw [hminute] at hearly hlate
  refine ⟨hour, minute, hhour, hhours, hminutes, by omega, by omega, ?_, ?_⟩
  · push_cast at *
    linarith
  · have hfine : (2 : ℝ) ^ (6 - 54 : ℤ) ≤ 2 ^ (-47 : ℤ) :=
      zpow_le_zpow_right₀ (by norm_num) (by norm_num)
    push_cast at *
    linarith

theorem Shows.eq_of_parts {time : Float} {hour minute h m : ℕ} (hshows : Shows time hour minute)
    (hh : wholeHours time = Float.ofInt h) (hm : wholeMinutes time = Float.ofInt m)
    (hh53 : h < 2 ^ 53) (hm53 : m < 2 ^ 53) : hour = h ∧ minute = m := by
  have hhour := hshows.hours.2
  have hminute := hshows.minutes.2
  rw [hh, (ofInt_natCast hh53).2] at hhour
  rw [hm, (ofInt_natCast hm53).2] at hminute
  exact ⟨by exact_mod_cast hhour.symm, by exact_mod_cast hminute.symm⟩

/-- The shown minute is the instant on the date. -/
theorem Shows.atHour? {time : Float} {hour minute : ℕ} (h : Shows time hour minute) (date : Date) :
    ∃ t, date.atHour? time = some t ∧ t.date = date ∧
      t.secondOfDay = 3600 * hour + 60 * minute := by
  have hcount {x : Float} {n : ℕ} (hx : x.isFinite = true ∧ value x = n) (hn : n ≤ 59) :
      x.toUInt32.toNat = n := by
    have hsmall : (n : ℝ) < 2 ^ 32 := by exact_mod_cast hn.trans_lt (by norm_num)
    have := toNat_toUInt32_float hx.1 (hx.2 ▸ Nat.cast_nonneg n) (hx.2 ▸ hsmall)
    rw [hx.2, Int.floor_natCast] at this
    exact_mod_cast this
  have hhour := hcount h.hours (h.hour_le.trans (by norm_num))
  have hminute := hcount h.minutes h.minute_le
  have hat : date.atHour? time = date.at? hour minute := by
    rw [← hhour, ← hminute]
    rfl
  have hle := h.hour_le
  have hle' := h.minute_le
  refine ⟨_, hat.trans (dif_pos ⟨by omega, by omega⟩), rfl, ?_⟩
  dsimp only
  omega

section
variable [Elementary Float]

/-- Every hour that a search settles on falls in a minute of its date; a search fails only where it
settles on none, and none of its reports is of an hour without a minute. -/
theorem settled_hours_placed (s : Search Float) :
    (∀ time : Float, isHourOfDay time = true → ∃ hour minute, Shows time hour minute) ∧
    (∀ time, s.crossing.hour = .ok time → ∃ hour minute t, Shows time hour minute ∧
      s.run.value = .ok t ∧ t.date = s.date ∧ t.secondOfDay = 3600 * hour + 60 * minute) ∧
    (∀ reason, s.crossing.hour = .error reason → s.run.value = .error reason) ∧
    ∀ s' time, .unplaced s' time ∉ s.run.events := by
  refine ⟨fun _ h => exists_shows h, ?_⟩
  unfold Search.run
  dsimp only
  cases s.crossing with
  | polarNight c => simp [Crossing.hour, Crossing.instant, Crossing.events]
  | polarDay c => simp [Crossing.hour, Crossing.instant, Crossing.events]
  | crosses day time =>
    cases htime : isHourOfDay time with
    | false => simp [Crossing.hour, Crossing.instant, Crossing.events, htime]
    | true =>
      obtain ⟨hour, minute, hshows⟩ := exists_shows htime
      obtain ⟨t, ht, hdate, hsecond⟩ := hshows.atHour? s.date
      simp only [Crossing.hour, Crossing.instant, Crossing.events, htime, ht, if_true]
      refine ⟨?_, by simp, by simp⟩
      rintro _ ⟨⟩
      exact ⟨hour, minute, t, hshows, rfl, hdate, hsecond⟩

end

/-- The last double before a minute past midnight. -/
def underOneMinute : Float :=
  0.016666666666666666

/-- A sunset on the equator, at a longitude that need not be one. -/
def equatorSunset (longitude : Float) : Search Float :=
  ⟨⟨0.0, longitude⟩, ⟨2023, 6, 21, by decide⟩, .official, .sunset⟩

theorem crossing_equatorSunset :
    @Search.crossing Float _ fewAngles (equatorSunset 0.0) =
      .crosses 172.75 6.026597500000001 := by
  have hday : @Search.day Float _ (equatorSunset 0.0) = 172.75 := by decide +kernel
  have hhour : Search.wrapOnce (@Search.rawHour Float _ fewAngles (equatorSunset 0.0)) =
      6.026597500000001 := by
    decide +kernel
  unfold Search.crossing
  dsimp only
  rw [if_neg (by decide +kernel), if_neg (by decide +kernel), hday, hhour]

theorem crossing_equatorSunset_lost :
    (@Search.crossing Float _ fewAngles (equatorSunset (0.0 / 0.0))).hour =
      .error .outsideDay := by
  have hhour : isHourOfDay (Search.wrapOnce
      (@Search.rawHour Float _ fewAngles (equatorSunset (0.0 / 0.0)))) = false := by
    decide +kernel
  unfold Search.crossing
  dsimp only
  rw [if_neg (by decide +kernel), if_neg (by decide +kernel)]
  simp only [Crossing.hour, hhour, Bool.false_eq_true, if_false]

/-- Before a minute past midnight the clock already shows 0:01. A sunset at six is placed, one at a
longitude that is no number has no hour to place. -/
theorem settled_hours_placed_equator :
    isHourOfDay underOneMinute = true ∧ 60 * value underOneMinute < 1 ∧
      Shows underOneMinute 0 1 ∧
      (@Search.crossing Float _ fewAngles (equatorSunset 0.0)).hour = .ok 6.026597500000001 ∧
      (∃ t, (@Search.run Float _ fewAngles (equatorSunset 0.0)).value = .ok t ∧
        t.text = "2023-06-21T06:01:00Z") ∧
      (@Search.crossing Float _ fewAngles (equatorSunset (0.0 / 0.0))).hour =
        .error .outsideDay ∧
      (@Search.run Float _ fewAngles (equatorSunset (0.0 / 0.0))).value = .error .outsideDay := by
  have hday : isHourOfDay underOneMinute = true := by decide +kernel
  have hbefore : 60 * value underOneMinute < 1 := by
    change 60 * (signFactor .positive * ((4803839602528529 : ℕ) * 2 ^ (-58 : ℤ))) < (1 : ℝ)
    norm_num [signFactor]
  obtain ⟨hshows, hplaced, _⟩ :=
    @settled_hours_placed fewAngles (equatorSunset 0.0)
  obtain ⟨_, _, hlost, _⟩ := @settled_hours_placed fewAngles (equatorSunset (0.0 / 0.0))
  have hsunset : isHourOfDay (6.026597500000001 : Float) = true := by decide +kernel
  have hhour : (@Search.crossing Float _ fewAngles (equatorSunset 0.0)).hour =
      .ok 6.026597500000001 := by
    simp only [crossing_equatorSunset, Crossing.hour, hsunset, if_true]
  obtain ⟨hour, minute, hearly⟩ := hshows underOneMinute hday
  obtain ⟨rfl, rfl⟩ := hearly.eq_of_parts (h := 0) (m := 1) (by decide +kernel) (by decide +kernel)
    (by decide) (by decide)
  obtain ⟨hour, minute, t, hsix, ht, hdate, hsecond⟩ := hplaced _ hhour
  obtain ⟨rfl, rfl⟩ := hsix.eq_of_parts (h := 6) (m := 1) (by decide +kernel) (by decide +kernel)
    (by decide) (by decide)
  refine ⟨hday, hbefore, hearly, hhour, ⟨t, ht, ?_⟩, crossing_equatorSunset_lost,
    hlost _ crossing_equatorSunset_lost⟩
  unfold Instant.text
  rw [hdate, hsecond]
  rfl

end GeoAlmanac
