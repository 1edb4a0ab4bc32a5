import GeoAlmanac.Almanac.Build
import GeoAlmanac.Proofs.Calendar.Order

/-! The almanac of a request day by day: as many entries as are asked for or as the calendar still
has dates, each the solved day of the next date, so that an almanac can be built in parts. -/

namespace GeoAlmanac.Almanac

@[simp] theorem dates_zero (d? : Option Date) : dates 0 d? = [] := by
  cases d? <;> rfl

@[simp] theorem dates_none (n : ℕ) : dates n none = [] := by
  cases n <;> rfl

@[simp] theorem dates_succ (n : ℕ) (d : Date) :
    dates (n + 1) (some d) = d :: dates n d.next? := rfl

theorem getElem?_dates (n i : ℕ) (d : Date) :
    (dates n (some d))[i]? = if i < n then d.later? i else none := by
  induction n generalizing i d with
  | zero => simp
  | succ n ih =>
    cases i with
    | zero => simp
    | succ i =>
      rw [dates_succ, List.getElem?_cons_succ, Date.later?_succ]
      cases d.next? with
      | none => simp
      | some e => simp [ih]

theorem length_dates (n : ℕ) (d : Date) :
    (dates n (some d)).length = min n d.remaining := by
  induction n generalizing d with
  | zero => simp
  | succ n ih =>
    rw [dates_succ, List.length_cons]
    cases hnext : d.next? with
    | none => simp [Date.next?_eq_none_iff_last.mp hnext, Date.remaining_last]
    | some e =>
      rw [ih, Date.remaining_of_next hnext]
      omega

theorem dates_add (n m : ℕ) (d : Date) :
    dates (n + m) (some d) = dates n (some d) ++ dates m (d.later? n) := by
  induction n generalizing d with
  | zero => simp
  | succ n ih =>
    rw [Nat.add_right_comm, dates_succ, dates_succ, Date.later?_succ]
    cases d.next? with
    | none => simp
    | some e => simp [ih]

theorem map_daysSinceEpoch_dates (n : ℕ) (d : Date) :
    (dates n (some d)).map Date.daysSinceEpoch =
      (List.range (dates n (some d)).length).map fun i : ℕ => d.daysSinceEpoch + i := by
  apply List.ext_getElem?
  intro i
  have hcount := Date.map_daysSinceEpoch_later? i d
  rw [List.getElem?_map, List.getElem?_map, getElem?_dates, length_dates]
  by_cases h : i < min n d.remaining
  · obtain ⟨hn, hd⟩ := lt_min_iff.mp h
    rw [if_pos hn, hcount, if_pos hd, List.getElem?_range h]
    rfl
  · rw [List.getElem?_eq_none (by rw [List.length_range]; exact not_lt.mp h)]
    split_ifs with hn
    · rw [hcount, if_neg fun hd => h (lt_min hn hd)]
      rfl
    · rfl

section
variable {α : Type} [Geometric α] [Elementary α]

/-- The entry of a date for the site and the zenith distance of a request. -/
def Request.solved (r : Request α) (date : Date) : Entry :=
  ⟨date, (SolarDay.solve r.site date r.zenith).value⟩

theorem Request.build_value (r : Request α) :
    r.build.value = (dates r.days (some r.start)).map r.solved := by
  simp only [Request.build, List.map_map]
  rfl

/-- The almanac of a request has as many entries as days are asked for, or as dates are left in
the calendar. Its entries are the solved days of the dates reached from the first one by so many
steps as their place says, and these dates are consecutive days. An almanac of more days is that
of fewer days and that of the rest from the date reached, which is empty where none is. -/
theorem build_consecutive_days (r : Request α) :
    r.build.value.length = min r.days {d : Date | ¬ d.Before r.start}.ncard ∧
    (∀ i : ℕ, r.build.value[i]? = if i < r.days then (r.start.later? i).map fun date =>
        ⟨date, (SolarDay.solve r.site date r.zenith).value⟩ else none) ∧
    (r.build.value.map fun e => e.date.daysSinceEpoch) =
      (List.range r.build.value.length).map (fun i : ℕ => r.start.daysSinceEpoch + i) ∧
    ∀ n m : ℕ, ({ r with days := n + m } : Request α).build.value =
      ({ r with days := n } : Request α).build.value ++
        match r.start.later? n with
        | some date => ({ r with start := date, days := m } : Request α).build.value
        | none => [] := by
  refine ⟨?_, fun i => ?_, ?_, fun n m => ?_⟩
  · rw [r.build_value, List.length_map, length_dates, Date.ncard_not_before]
  · rw [r.build_value, List.getElem?_map, getElem?_dates]
    split_ifs <;> rfl
  · rw [r.build_value, List.map_map, List.length_map]
    exact map_daysSinceEpoch_dates r.days r.start
  · simp only [Request.build_value, dates_add, List.map_append]
    cases r.start.later? n with
    | none => rw [dates_none]; rfl
    | some date => rfl

end
end GeoAlmanac.Almanac
