import GeoAlmanac.Proofs.Calendar.Days
import Mathlib.Data.Set.Card
import Mathlib.Order.Interval.Finset.Defs
import Mathlib.Data.Int.Interval

/-! The order of the dates and the count of days. A date is earlier than another exactly if fewer
days have passed, so that the count tells dates apart; counting on from a date reaches every later
date of the calendar, each of them once. -/

namespace GeoAlmanac.Date

theorem daysBeforeMonth_mono (year : Int) {m n : ℕ} (h : m ≤ n) :
    daysBeforeMonth year m ≤ daysBeforeMonth year n := by
  induction h with
  | refl => exact le_rfl
  | step _ ih => exact ih.trans (Nat.le_add_right _ _)

theorem daysBeforeYear_mono {y z : Int} (h : y ≤ z) : daysBeforeYear y ≤ daysBeforeYear z := by
  simp only [daysBeforeYear]
  omega

/-- Earlier by the year, then by the month, then by the day. -/
def Before (d e : Date) : Prop :=
  d.year < e.year ∨ d.year = e.year ∧ (d.month < e.month ∨ d.month = e.month ∧ d.day < e.day)

theorem before_trichotomy (d e : Date) : d.Before e ∨ d = e ∨ e.Before d := by
  obtain ⟨y, m, k, h⟩ := d
  obtain ⟨y', m', k', h'⟩ := e
  simp only [Before, mk.injEq]
  omega

theorem daysBeforeMonth_add_day_le (d : Date) :
    daysBeforeMonth d.year d.month + d.day ≤ daysBeforeMonth d.year (d.month + 1) :=
  Nat.add_le_add_left d.valid.2.2.2 _

theorem daysSinceEpoch_lt_of_before {d e : Date} (h : d.Before e) :
    d.daysSinceEpoch < e.daysSinceEpoch := by
  have hmonth := d.daysBeforeMonth_add_day_le
  obtain ⟨hlow, hhigh⟩ := d.month_bounds
  have hday := d.valid.2.2.1
  have hday' := e.valid.2.2.1
  unfold daysSinceEpoch
  rcases h with hyear | ⟨hyear, hmonths | ⟨hmonths, hdays⟩⟩
  · have hyears := daysBeforeYear_mono (show d.year + 1 ≤ e.year from hyear)
    have hlast := daysBeforeMonth_mono d.year (show d.month + 1 ≤ 13 by omega)
    rw [daysBeforeYear_succ] at hyears
    omega
  · have hnext := daysBeforeMonth_mono e.year (show d.month + 1 ≤ e.month from hmonths)
    rw [hyear] at hmonth ⊢
    omega
  · rw [hyear, hmonths]
    omega

/-- The count of days goes with the order of the calendar. -/
theorem before_iff {d e : Date} : d.Before e ↔ d.daysSinceEpoch < e.daysSinceEpoch := by
  refine ⟨daysSinceEpoch_lt_of_before, fun h => ?_⟩
  rcases before_trichotomy d e with hlt | rfl | hgt
  · exact hlt
  · exact absurd h (lt_irrefl _)
  · exact absurd (daysSinceEpoch_lt_of_before hgt) h.not_gt

theorem daysSinceEpoch_injective : Function.Injective daysSinceEpoch := by
  intro d e h
  rcases before_trichotomy d e with hlt | heq | hgt
  · exact absurd h (before_iff.mp hlt).ne
  · exact heq
  · exact absurd h (before_iff.mp hgt).ne'

def last : Date := ⟨lastYear, 12, 31, by decide⟩

theorem next?_eq_none_iff_last {d : Date} : d.next? = none ↔ d = last := by
  rw [next?_eq_none_iff]
  obtain ⟨y, m, k, h⟩ := d
  simp [last]

/-- How many dates the calendar has from a date on. -/
def remaining (d : Date) : ℕ :=
  (last.daysSinceEpoch - d.daysSinceEpoch).toNat + 1

theorem daysSinceEpoch_le_last (d : Date) : d.daysSinceEpoch ≤ last.daysSinceEpoch := by
  rcases before_trichotomy d last with hlt | rfl | hgt
  · exact (before_iff.mp hlt).le
  · exact le_rfl
  · obtain ⟨_, hyear, _, hday⟩ := d.valid
    obtain ⟨_, hmonth⟩ := d.month_bounds
    rcases hgt with hy | ⟨hy, hm | ⟨hm, hd⟩⟩ <;> simp only [last] at *
    · omega
    · omega
    · rw [← hm] at hday
      simp only [monthLength] at hday
      omega

theorem remaining_last : last.remaining = 1 := by
  simp [remaining]

theorem remaining_of_next {d e : Date} (h : d.next? = some e) : d.remaining = e.remaining + 1 := by
  have hnext := daysSinceEpoch_next h
  have hlast := e.daysSinceEpoch_le_last
  unfold remaining
  omega

/-- The date a number of days later, if the calendar has it. -/
def later? (n : ℕ) (d : Date) : Option Date :=
  (Option.bind · next?)^[n] (some d)

@[simp] theorem later?_zero (d : Date) : d.later? 0 = some d := rfl

theorem iterate_none (n : ℕ) : (Option.bind · next?)^[n] none = none := by
  induction n with
  | zero => rfl
  | succ n ih => rw [Function.iterate_succ_apply]; exact ih

theorem later?_succ (n : ℕ) (d : Date) : d.later? (n + 1) = d.next?.bind (later? n) := by
  unfold later?
  rw [Function.iterate_succ_apply]
  change (Option.bind · next?)^[n] d.next? = _
  cases d.next? with
  | none => exact iterate_none n
  | some e => rfl

theorem map_daysSinceEpoch_later? (n : ℕ) (d : Date) :
    (d.later? n).map daysSinceEpoch =
      if n < d.remaining then some (d.daysSinceEpoch + n) else none := by
  induction n generalizing d with
  | zero => simp [remaining]
  | succ n ih =>
    rw [later?_succ]
    cases hnext : d.next? with
    | none =>
      rw [next?_eq_none_iff_last.mp hnext, remaining_last]
      simp
    | some e =>
      simp only [Option.bind_some, ih, remaining_of_next hnext, daysSinceEpoch_next hnext,
        Nat.add_lt_add_iff_right]
      push_cast
      split_ifs
      · congr 1
        omega
      · rfl

theorem later?_eq_some_iff {n : ℕ} {d e : Date} :
    d.later? n = some e ↔ e.daysSinceEpoch = d.daysSinceEpoch + n := by
  have hcount := map_daysSinceEpoch_later? n d
  have hlast := e.daysSinceEpoch_le_last
  constructor
  · intro h
    rw [h, Option.map_some] at hcount
    split_ifs at hcount
    exact Option.some_inj.mp hcount
  · intro h
    rw [if_pos (by unfold remaining; omega), ← h] at hcount
    obtain ⟨f, hf, hdays⟩ := Option.map_eq_some_iff.mp hcount
    rw [hf, daysSinceEpoch_injective hdays]

theorem isSome_later? (n : ℕ) (d : Date) : (d.later? n).isSome = decide (n < d.remaining) := by
  have hcount := map_daysSinceEpoch_later? n d
  rw [← Option.isSome_map (f := daysSinceEpoch), hcount]
  split_ifs with h <;> simp [h]

theorem ncard_between (d e : Date) : {f : Date | ¬ f.Before d ∧ ¬ e.Before f}.ncard =
    (e.daysSinceEpoch - d.daysSinceEpoch + 1).toNat := by
  have himage : daysSinceEpoch '' {f | ¬ f.Before d ∧ ¬ e.Before f} =
      Finset.Icc d.daysSinceEpoch e.daysSinceEpoch := by
    ext days
    simp only [Set.mem_image, Set.mem_ofPred_eq, before_iff, not_lt, Finset.coe_Icc, Set.mem_Icc]
    constructor
    · rintro ⟨f, hf, rfl⟩
      exact hf
    · rintro ⟨hlow, hhigh⟩
      have hlast := e.daysSinceEpoch_le_last
      have hsome := isSome_later? (days - d.daysSinceEpoch).toNat d
      rw [decide_eq_true (by unfold remaining; omega)] at hsome
      obtain ⟨f, hf⟩ := Option.isSome_iff_exists.mp hsome
      have hdays := later?_eq_some_iff.mp hf
      exact ⟨f, ⟨by omega, by omega⟩, by omega⟩
  rw [← Set.ncard_image_of_injective _ daysSinceEpoch_injective, himage, Set.ncard_coe_finset,
    Int.card_Icc]
  omega

theorem ncard_not_before (d : Date) : {e : Date | ¬ e.Before d}.ncard = d.remaining := by
  have hall : {e : Date | ¬ e.Before d} = {e : Date | ¬ e.Before d ∧ ¬ last.Before e} := by
    ext e
    simp [before_iff, e.daysSinceEpoch_le_last]
  have hlast := d.daysSinceEpoch_le_last
  rw [hall, ncard_between]
  unfold remaining
  omega

end GeoAlmanac.Date
