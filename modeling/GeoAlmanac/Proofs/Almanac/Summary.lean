import GeoAlmanac.Proofs.Sun.Daylight
import GeoAlmanac.Proofs.Almanac.Table
import GeoAlmanac.Almanac.Summary

/-! The summary of an almanac against its table. The days are counted by their kind where the table
names it, and the longest and the shortest regular day are rows of the table. They are found in
binary64 as in exact arithmetic, since the hours of a day keep the order of its whole minutes. -/

namespace GeoAlmanac.Almanac
open Binary64

/-- The lines of a table below its header, cut into their fields. -/
def rowsOf (text : String) : List (List (List Char)) :=
  (text.toList.splitOn '\n').tail.dropLast.map (·.splitOn ',')

theorem rowsOf_table (zenith : Zenith) (entries : List Entry) :
    rowsOf (table zenith entries) =
      entries.map fun e => (e.row zenith).fields.map String.toList := by
  have hline : (fun e : Entry => (e.row zenith).line.toList.splitOn ',') =
      fun e => (e.row zenith).fields.map String.toList :=
    funext fun e => splitOn_line zenith e
  rw [rowsOf, splitOn_table, lines, List.map_cons, List.cons_append, List.tail_cons,
    List.dropLast_concat, List.map_map, List.map_map, ← hline]
  simp only [Function.comp_def]

/-- How many rows name a condition. -/
def countOf (condition : String) (rows : List (List (List Char))) : ℕ :=
  rows.countP fun fields => fields.getLast? = some condition.toList

theorem countOf_table (condition : String) (zenith : Zenith) (entries : List Entry) :
    countOf condition (rowsOf (table zenith entries)) =
      entries.countP fun e => e.day.label = condition := by
  rw [countOf, rowsOf_table, List.countP_map]
  apply List.countP_congr
  intro e _
  simp [Row.fields, Entry.row, String.toList_inj]

theorem isRegular_iff (e : Entry) : e.isRegular = true ↔ e.day.label = "regular" := by
  unfold Entry.isRegular
  cases e.day with
  | regular rise set => simp [SolarDay.label]
  | polarDay | polarNight | unresolved => simp [SolarDay.label]

theorem label_eq_iff (day : SolarDay) :
    (day.label = "polar_day" ↔ day = .polarDay) ∧
      (day.label = "polar_night" ↔ day = .polarNight) ∧
      (day.label = "unresolved" ↔ day = .unresolved) := by
  cases day <;> simp [SolarDay.label]

theorem countP_kinds (entries : List Entry) :
    entries.countP Entry.isRegular + (entries.countP fun e => e.day = .polarDay) +
      (entries.countP fun e => e.day = .polarNight) +
      (entries.countP fun e => e.day = .unresolved) = entries.length := by
  induction entries with
  | nil => rfl
  | cons e entries ih =>
    simp only [List.countP_cons, List.length_cons]
    rw [← ih]
    unfold Entry.isRegular
    cases e.day <;> simp <;> omega

section
variable {α : Type} [Arithmetic α]

/-- Up to a bound, a function of whole numbers keeps their order. -/
structure KeepsOrder (f : ℕ → α) (bound : ℕ) : Prop where
  lt_iff : ∀ m < bound, ∀ n < bound, (f m < f n ↔ m < n)
  le_iff : ∀ m < bound, ∀ n < bound, (f m ≤ f n ↔ m ≤ n)

variable {f : ℕ → α} {bound : ℕ}

theorem KeepsOrder.foldl_larger (hf : KeepsOrder f bound) {ms : List ℕ} (hms : ∀ m ∈ ms, m < bound)
    {a : ℕ} (ha : a < bound) : (ms.map f).foldl larger (f a) = f (ms.foldl max a) := by
  induction ms generalizing a with
  | nil => rfl
  | cons m ms ih =>
    obtain ⟨hm, hms⟩ := List.forall_mem_cons.mp hms
    have hstep : larger (f a) (f m) = f (max a m) := by
      simp only [larger, hf.lt_iff a ha m hm]
      split_ifs with h
      · rw [max_eq_right h.le]
      · rw [max_eq_left (not_lt.mp h)]
    rw [List.map_cons, List.foldl_cons, hstep, List.foldl_cons]
    exact ih hms (max_lt ha hm)

theorem KeepsOrder.foldl_smaller (hf : KeepsOrder f bound) {ms : List ℕ}
    (hms : ∀ m ∈ ms, m < bound) {a : ℕ} (ha : a < bound) :
    (ms.map f).foldl smaller (f a) = f (ms.foldl min a) := by
  induction ms generalizing a with
  | nil => rfl
  | cons m ms ih =>
    obtain ⟨hm, hms⟩ := List.forall_mem_cons.mp hms
    have hstep : smaller (f a) (f m) = f (min a m) := by
      simp only [smaller, hf.lt_iff m hm a ha]
      split_ifs with h
      · rw [min_eq_right h.le]
      · rw [min_eq_left (not_lt.mp h)]
    rw [List.map_cons, List.foldl_cons, hstep, List.foldl_cons]
    exact ih hms ((min_le_left a m).trans_lt ha)

/-- The hours of whole minutes. -/
def hoursOf (m : ℕ) : α :=
  Arithmetic.ofInt (60 * m) / 3600.0

end

theorem keepsOrder_float : KeepsOrder (hoursOf : ℕ → Float) 2880 := by
  have hfinite {m : ℕ} (hm : m < 2880) : (hoursOf m : Float).isFinite = true := (hours_near hm).1
  have hmono : StrictMonoOn (fun m => value (hoursOf m)) (Set.Iio 2880) := by
    intro m hm n hn h
    have hm := (abs_lt.mp (hours_near hm).2).2
    have hn := (abs_lt.mp (hours_near hn).2).1
    have hgap : (m : ℝ) + 1 ≤ n := by exact_mod_cast h
    have htiny : (2 : ℝ) ^ (-42 : ℤ) < 1 / 2 := by norm_num
    change value (Arithmetic.ofInt (60 * m) / 3600.0) < value (Arithmetic.ofInt (60 * n) / 3600.0)
    linarith
  constructor
  · intro m hm n hn
    exact (lt_iff_value (hfinite hm) (hfinite hn)).trans (hmono.lt_iff_lt hm hn)
  · intro m hm n hn
    exact (le_iff_value (hfinite hm) (hfinite hn)).trans (hmono.le_iff_le hm hn)

theorem hoursOf_real (m : ℕ) : (hoursOf m : ℝ) = m / 60 := by
  have h : (hoursOf m : ℝ) = ((60 * m : ℤ) : ℝ) / 3600.0 := rfl
  rw [h]
  push_cast
  norm_num
  ring

theorem keepsOrder_real (bound : ℕ) : KeepsOrder (hoursOf : ℕ → ℝ) bound := by
  constructor <;> intro m _ n _ <;> rw [hoursOf_real, hoursOf_real]
  · rw [div_lt_div_iff_of_pos_right (by norm_num), Nat.cast_lt]
  · rw [div_le_div_iff_of_pos_right (by norm_num), Nat.cast_le]

/-- The whole minutes of a day. -/
def Entry.minutes (e : Entry) : ℕ :=
  (e.day.duration / 60).toNat

theorem minutes_of_placed {e : Entry} (h : e.day.Placed e.date) :
    e.day.duration = 60 * e.minutes ∧ e.minutes < 2880 := by
  unfold Entry.minutes
  cases hday : e.day with
  | regular rise set =>
    rw [hday] at h
    obtain ⟨⟨hrise, hset⟩, -, hlow, hhigh⟩ := h
    simp only [SolarDay.duration, Instant.seconds] at *
    omega
  | polarDay | polarNight | unresolved => simp [SolarDay.duration]

section
variable {α : Type} [Arithmetic α]

theorem hours_of_placed {e : Entry} (h : e.day.Placed e.date) :
    (e.hours : α) = hoursOf e.minutes := by
  rw [Entry.hours, (minutes_of_placed h).1]
  rfl

/-- Two days whose hours are the longest and the shortest of a summary. -/
structure Spans (s : Summary α) (entries : List Entry) (long short : Entry) : Prop where
  longest : s.longestHours = long.hours
  shortest : s.shortestHours = short.hours
  between : ∀ e ∈ entries, e.isRegular = true → short.hours ≤ (e.hours : α) ∧
    (e.hours : α) ≤ long.hours

theorem foldl_max_eq {ms : List ℕ} {a m : ℕ} (hm : m ∈ a :: ms) (hle : ∀ n ∈ a :: ms, n ≤ m) :
    ms.foldl max a = m := by
  have h : (a :: ms).max? = some m := List.max?_eq_some_iff.mpr ⟨hm, hle⟩
  rwa [List.max?_cons', Option.some_inj] at h

theorem foldl_min_eq {ms : List ℕ} {a m : ℕ} (hm : m ∈ a :: ms) (hle : ∀ n ∈ a :: ms, m ≤ n) :
    ms.foldl min a = m := by
  have h : (a :: ms).min? = some m := List.min?_eq_some_iff.mpr ⟨hm, hle⟩
  rwa [List.min?_cons', Option.some_inj] at h

theorem exists_extremes {entries : List Entry} (h : entries.filter Entry.isRegular ≠ []) :
    ∃ long ∈ entries.filter Entry.isRegular, ∃ short ∈ entries.filter Entry.isRegular,
      (∀ e ∈ entries.filter Entry.isRegular, e.minutes ≤ long.minutes) ∧
      ∀ e ∈ entries.filter Entry.isRegular, short.minutes ≤ e.minutes := by
  obtain ⟨e, he⟩ := List.exists_mem_of_ne_nil _ h
  obtain ⟨long, hlong, hmost⟩ := (entries.filter Entry.isRegular).toFinset.exists_max_image
    Entry.minutes ⟨e, List.mem_toFinset.mpr he⟩
  obtain ⟨short, hshort, hfewest⟩ := (entries.filter Entry.isRegular).toFinset.exists_min_image
    Entry.minutes ⟨e, List.mem_toFinset.mpr he⟩
  simp only [List.mem_toFinset] at hlong hmost hshort hfewest
  exact ⟨long, hlong, short, hshort, hmost, hfewest⟩

theorem summarize_no_regular (r : Request α) {entries : List Entry}
    (h : entries.filter Entry.isRegular = []) :
    (r.summarize entries).regularDays = 0 ∧ (r.summarize entries).longestHours = 0.0 ∧
      (r.summarize entries).shortestHours = 0.0 := by
  simp [Request.summarize, h, least]

theorem spans_summarize (hf : KeepsOrder (hoursOf : ℕ → α) 2880) (h0 : hoursOf 0 = (0.0 : α))
    (r : Request α) {entries : List Entry} (hplaced : ∀ e ∈ entries, e.day.Placed e.date)
    {long short : Entry} (hlong : long ∈ entries.filter Entry.isRegular)
    (hshort : short ∈ entries.filter Entry.isRegular)
    (hmost : ∀ e ∈ entries.filter Entry.isRegular, e.minutes ≤ long.minutes)
    (hfewest : ∀ e ∈ entries.filter Entry.isRegular, short.minutes ≤ e.minutes) :
    Spans (r.summarize entries) entries long short := by
  have hof {e : Entry} (he : e ∈ entries.filter Entry.isRegular) :
      (e.hours : α) = hoursOf e.minutes ∧ e.minutes < 2880 :=
    have he := hplaced e (List.mem_of_mem_filter he)
    ⟨hours_of_placed he, (minutes_of_placed he).2⟩
  have hhours : (entries.filter Entry.isRegular).map (Entry.hours : Entry → α) =
      ((entries.filter Entry.isRegular).map Entry.minutes).map hoursOf := by
    rw [List.map_map]
    exact List.map_congr_left fun e he => (hof he).1
  have hbound : ∀ m ∈ (entries.filter Entry.isRegular).map Entry.minutes, m < 2880 :=
    List.forall_mem_map.mpr fun e he => (hof he).2
  constructor
  · change ((entries.filter Entry.isRegular).map Entry.hours).foldl larger 0.0 = _
    rw [hhours, ← h0, hf.foldl_larger hbound (by norm_num), (hof hlong).1]
    congr 1
    refine foldl_max_eq (List.mem_cons_of_mem _ (List.mem_map_of_mem hlong)) ?_
    exact List.forall_mem_cons.mpr ⟨Nat.zero_le _, List.forall_mem_map.mpr hmost⟩
  · change least ((entries.filter Entry.isRegular).map Entry.hours) = _
    have hmem := List.mem_map_of_mem (f := Entry.minutes) hshort
    have hle := List.forall_mem_map.mpr hfewest
    rw [hhours, (hof hshort).1]
    generalize (entries.filter Entry.isRegular).map Entry.minutes = ms at *
    cases ms with
    | nil => exact absurd hmem (List.not_mem_nil)
    | cons m ms =>
      obtain ⟨hm, hms⟩ := List.forall_mem_cons.mp hbound
      change (ms.map hoursOf).foldl smaller (hoursOf m) = _
      rw [hf.foldl_smaller hms hm, foldl_min_eq hmem hle]
  · intro e he hregular
    have he := List.mem_filter.mpr ⟨he, hregular⟩
    rw [(hof he).1, (hof hlong).1, (hof hshort).1, hf.le_iff _ (hof hshort).2 _ (hof he).2,
      hf.le_iff _ (hof he).2 _ (hof hlong).2]
    exact ⟨hfewest e he, hmost e he⟩

end

/-- The request with its place as exact numbers. -/
noncomputable def Request.exactly (r : Request Float) : Request ℝ where
  siteName := r.siteName
  site := ⟨value r.site.latitude, value r.site.longitude⟩
  start := r.start
  days := r.days
  zenith := r.zenith

theorem foldl_add_eq_sum (xs : List ℝ) (a : ℝ) : xs.foldl (· + ·) a = a + xs.sum := by
  induction xs generalizing a with
  | nil => simp
  | cons x xs ih => rw [List.foldl_cons, ih, List.sum_cons, add_assoc]

theorem sum_hours_regular (entries : List Entry) :
    ((entries.filter Entry.isRegular).map (Entry.hours : Entry → ℝ)).sum =
      (entries.map (Entry.hours : Entry → ℝ)).sum := by
  induction entries with
  | nil => rfl
  | cons e entries ih =>
    rw [List.map_cons, List.sum_cons, ← ih]
    by_cases h : e.isRegular = true
    · rw [List.filter_cons_of_pos h, List.map_cons, List.sum_cons]
    · have hzero : (e.hours : ℝ) = 0 := by
        rw [Entry.hours_eq]
        unfold Entry.isRegular at h
        cases hday : e.day <;> simp_all [SolarDay.duration]
      rw [List.filter_cons_of_neg h, hzero, zero_add]

theorem totalHours_eq (r : Request ℝ) (entries : List Entry) :
    (r.summarize entries).totalHours = (entries.map (Entry.hours : Entry → ℝ)).sum := by
  change ((entries.filter Entry.isRegular).map Entry.hours).foldl (· + ·) (-0.0) = _
  rw [foldl_add_eq_sum, sum_hours_regular]
  norm_num

theorem totalHours_between {r : Request ℝ} {entries : List Entry} {long short : Entry}
    (h : Spans (r.summarize entries) entries long short) :
    (r.summarize entries).shortestHours * (r.summarize entries).regularDays ≤
        (r.summarize entries).totalHours ∧
      (r.summarize entries).totalHours ≤
        (r.summarize entries).longestHours * (r.summarize entries).regularDays := by
  have hregular : ((r.summarize entries).regularDays : ℕ) =
      ((entries.filter Entry.isRegular).map (Entry.hours : Entry → ℝ)).length := rfl
  have hbetween : ∀ x ∈ (entries.filter Entry.isRegular).map (Entry.hours : Entry → ℝ),
      short.hours ≤ x ∧ x ≤ long.hours := by
    refine List.forall_mem_map.mpr fun e he => ?_
    obtain ⟨he, hregular⟩ := List.mem_filter.mp he
    exact h.between e he hregular
  rw [totalHours_eq, ← sum_hours_regular, h.longest, h.shortest, hregular, mul_comm,
    ← nsmul_eq_mul, mul_comm, ← nsmul_eq_mul]
  exact ⟨List.card_nsmul_le_sum _ _ fun x hx => (hbetween x hx).1,
    List.sum_le_card_nsmul _ _ fun x hx => (hbetween x hx).2⟩

theorem counts_eq_countOf {α : Type} [Arithmetic α] (r : Request α) (zenith : Zenith)
    (entries : List Entry) :
    let rows := rowsOf (table zenith entries)
    (r.summarize entries).days = rows.length ∧
      (r.summarize entries).regularDays = countOf "regular" rows ∧
      (r.summarize entries).polarDays = countOf "polar_day" rows ∧
      (r.summarize entries).polarNights = countOf "polar_night" rows ∧
      (r.summarize entries).unresolvedDays = countOf "unresolved" rows := by
  refine ⟨?_, ?_, ?_, ?_, ?_⟩
  · rw [rowsOf_table, List.length_map]
    rfl
  · simp only [countOf_table, Request.summarize, List.length_map, ← List.countP_eq_length_filter]
    apply List.countP_congr
    intro e _
    rw [isRegular_iff, decide_eq_true_iff]
  · simp only [countOf_table, Request.summarize, label_eq_iff]
  · simp only [countOf_table, Request.summarize, label_eq_iff]
  · simp only [countOf_table, Request.summarize, label_eq_iff]

section
variable [Elementary Float]

/-- The summary of a request agrees with its table. It counts the rows, and the rows of each
condition. If no row is regular, both extremes are zero; otherwise they are the hours of two regular
rows, and those of any other lie between them, in binary64 as in exact arithmetic. The exact total
is the sum of the hours of all rows and lies between those of as many shortest and as many longest
days as there are regular ones. -/
theorem summary_agrees_with_table (r : Request Float) :
    let entries := r.build.value
    let rows := rowsOf (table r.zenith entries)
    let s := r.summarize entries
    let exact := r.exactly.summarize entries
    (s.days = rows.length ∧ s.regularDays = countOf "regular" rows ∧
      s.polarDays = countOf "polar_day" rows ∧ s.polarNights = countOf "polar_night" rows ∧
      s.unresolvedDays = countOf "unresolved" rows ∧
      s.regularDays + s.polarDays + s.polarNights + s.unresolvedDays = s.days) ∧
    ((countOf "regular" rows = 0 ∧ (s.longestHours = 0.0 ∧ s.shortestHours = 0.0) ∧
        exact.longestHours = 0 ∧ exact.shortestHours = 0) ∨
      ∃ long ∈ entries, ∃ short ∈ entries, long.isRegular = true ∧ short.isRegular = true ∧
        Spans s entries long short ∧ Spans exact entries long short) ∧
    exact.totalHours = (entries.map Entry.hours).sum ∧
    exact.shortestHours * exact.regularDays ≤ exact.totalHours ∧
    exact.totalHours ≤ exact.longestHours * exact.regularDays := by
  intro entries rows s exact
  obtain ⟨hdays, hregular, hpolarDay, hpolarNight, hunresolved⟩ :=
    counts_eq_countOf r r.zenith entries
  have hkinds : s.regularDays + s.polarDays + s.polarNights + s.unresolvedDays = s.days := by
    have h := countP_kinds entries
    rwa [List.countP_eq_length_filter, ← List.length_map (Entry.hours : Entry → Float)] at h
  have hplaced : ∀ e ∈ entries, e.day.Placed e.date := fun e => placed_of_mem_build
  refine ⟨⟨hdays, hregular, hpolarDay, hpolarNight, hunresolved, hkinds⟩, ?_⟩
  rw [totalHours_eq]
  by_cases hnone : entries.filter Entry.isRegular = []
  · obtain ⟨hcount, hlong, hshort⟩ := summarize_no_regular r hnone
    obtain ⟨-, hlongExact, hshortExact⟩ := summarize_no_regular r.exactly hnone
    have hzero : (0.0 : ℝ) = 0 := by norm_num
    rw [hzero] at hlongExact hshortExact
    have hsum := sum_hours_regular entries
    rw [hnone, List.map_nil, List.sum_nil] at hsum
    refine ⟨.inl ⟨hregular ▸ hcount, ⟨hlong, hshort⟩, hlongExact, hshortExact⟩, rfl, ?_⟩
    rw [← hsum, hlongExact, hshortExact, zero_mul]
    exact ⟨le_rfl, le_rfl⟩
  · obtain ⟨long, hlong, short, hshort, hmost, hfewest⟩ := exists_extremes hnone
    have hspans := spans_summarize keepsOrder_float (by decide +kernel) r hplaced hlong hshort
      hmost hfewest
    have hspansExact := spans_summarize (keepsOrder_real 2880) (by norm_num [hoursOf_real])
      r.exactly hplaced hlong hshort hmost hfewest
    have hbetween := totalHours_between hspansExact
    rw [totalHours_eq] at hbetween
    obtain ⟨hlong, hlongRegular⟩ := List.mem_filter.mp hlong
    obtain ⟨hshort, hshortRegular⟩ := List.mem_filter.mp hshort
    exact ⟨.inr ⟨long, hlong, short, hshort, hlongRegular, hshortRegular, hspans, hspansExact⟩,
      rfl, hbetween⟩

end

end GeoAlmanac.Almanac
