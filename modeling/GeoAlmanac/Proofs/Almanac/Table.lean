import GeoAlmanac.Almanac.Table
import GeoAlmanac.Proofs.Calendar.Reading
import GeoAlmanac.Proofs.Decimal.Fixed
import GeoAlmanac.Proofs.Sun.Pairing

/-! The table of an almanac read back. A line is six fields, none of which holds a comma or a line
feed; they say what the entry is, and the hours of a regular day say its minutes. -/

namespace GeoAlmanac.Almanac
open Decimal Binary64

/-- A text that can stand in a field. -/
def Plain (cs : List Char) : Prop :=
  ∀ c ∈ cs, c ≠ ',' ∧ c ≠ '\n'

instance (cs : List Char) : Decidable (Plain cs) :=
  List.decidableBAll _ cs

theorem Plain.append {cs ds : List Char} (hc : Plain cs) (hd : Plain ds) : Plain (cs ++ ds) :=
  fun c h => (List.mem_append.mp h).elim (hc c) (hd c)

theorem Plain.comma {cs : List Char} (h : Plain cs) : ',' ∉ cs := fun hc => (h _ hc).1 rfl

theorem Plain.lineFeed {cs : List Char} (h : Plain cs) : '\n' ∉ cs := fun hc => (h _ hc).2 rfl

theorem Plain.cons {c : Char} {cs : List Char} (hc : c ≠ ',' ∧ c ≠ '\n') (h : Plain cs) :
    Plain (c :: cs) :=
  List.forall_mem_cons.mpr ⟨hc, h⟩

theorem plain_of_isDigit {c : Char} (hc : c.isDigit = true) : c ≠ ',' ∧ c ≠ '\n' := by
  constructor <;> rintro rfl <;> exact absurd hc (by decide)

theorem plain_digits {ds : List Char} (h : AllDigits ds) : Plain ds := fun c hc =>
  plain_of_isDigit (h c hc)

theorem plain_date (d : Date) : Plain d.text.toList := by
  intro c hc
  rcases dateText_chars hc with hdigit | rfl | rfl
  · exact plain_of_isDigit hdigit
  · decide
  · decide

theorem plain_instant (t : Instant) : Plain t.text.toList := by
  have hdigits := fun n => plain_digits (digits_padded 2 n)
  rw [Instant.toList_text]
  exact (plain_date t.date).append (.cons (by decide) ((hdigits _).append (.cons (by decide)
    ((hdigits _).append (.cons (by decide) ((hdigits _).append (.cons (by decide) nofun)))))))

theorem plain_fixed (x : Float) : Plain (fixed 4 x).toList := by
  have hbody (m : ℕ) (e : ℤ) : Plain (withPoint 4 (fixedUnits 4 m e)).toList := by
    rw [toList_withPoint (by norm_num)]
    exact (plain_digits (digits_toDigits _)).append
      (.cons (by decide) (plain_digits (digits_padded _ _)))
  have hsign (s : Float.Model.UnpackedFloat.Sign) : Plain (signedText.signText s).toList := by
    cases s <;> decide
  unfold fixed signedText
  rw [String.toList_append]
  cases x.toModel.unpack with
  | notANumber => exact (by decide : Plain "NaN".toList)
  | infinity s => exact (hsign s).append (by decide : Plain "inf".toList)
  | zero s => exact (hsign s).append (hbody 0 0)
  | finite s m e _ => exact (hsign s).append (hbody m e)

/-- The minutes that the hours of a day come from. -/
def readMinutes (cs : List Char) : Option ℕ :=
  (units? 4 cs).map fun units => roundDiv .toEven (60 * units) (tenTo 4)

theorem readMinutes_withPoint {m u : ℕ} (h : |(u : ℚ) / 10 ^ 4 - m / 60| < 1 / 2 / 10 ^ 4) :
    readMinutes (withPoint 4 u).toList = some m := by
  have hscale : (m : ℚ) - (60 * u : ℕ) / (tenTo 4 : ℕ) = -60 * ((u : ℚ) / 10 ^ 4 - m / 60) := by
    have hten : ((tenTo 4 : ℕ) : ℚ) = 10 ^ 4 := by norm_num [tenTo]
    rw [hten]
    push_cast
    ring
  have hnear : |(m : ℚ) - (60 * u : ℕ) / (tenTo 4 : ℕ)| < 1 / 2 := by
    rw [hscale, abs_mul]
    calc |(-60 : ℚ)| * |(u : ℚ) / 10 ^ 4 - m / 60| ≤ |(-60 : ℚ)| * (1 / 2 / 10 ^ 4) :=
          mul_le_mul_of_nonneg_left h.le (abs_nonneg _)
      _ < 1 / 2 := by norm_num
  rw [readMinutes, units?_withPoint (by norm_num), Option.map_some,
    roundDiv_eq .toEven (by decide) hnear]

example : readMinutes "15.1167".toList = some 907 := by decide +kernel

theorem fixed_zero_hours : fixed 4 (Arithmetic.ofInt 0 / 3600.0) = "0.0000" := by
  decide +kernel

/-- The hours of less than two days are computed closely. -/
theorem hours_near {m : ℕ} (hm : m < 2880) :
    let x : Float := Arithmetic.ofInt (60 * m) / 3600.0
    x.isFinite = true ∧ |60 * value x - m| < 2 ^ (-42 : ℤ) := by
  intro x
  have hquotient : ((60 * m : ℕ) : ℝ) / (3600 : ℕ) = m / 60 := by
    push_cast
    ring
  have hsmall : ((60 * m : ℕ) : ℝ) / (3600 : ℕ) < 2 ^ (6 : ℤ) := by
    have : (m : ℝ) < 2880 := by exact_mod_cast hm
    rw [hquotient]
    norm_num
    linarith
  have hhour : (3600.0 : Float) = Float.ofInt (3600 : ℕ) := by rfl
  obtain ⟨hx, hnear⟩ := ofInt_div_near (by omega) (by norm_num) (by norm_num) (by norm_num)
    (by norm_num) hsmall
  rw [← hhour] at hx hnear
  obtain ⟨hbelow, habove⟩ := abs_le.mp (hquotient ▸ hnear)
  have hsixty : 60 * (2 : ℝ) ^ (6 - 54 : ℤ) < 2 ^ (-42 : ℤ) := by norm_num
  refine ⟨hx, abs_lt.mpr ⟨?_, ?_⟩⟩
  · change _ < 60 * value (Float.ofInt (60 * m : ℕ) / 3600.0) - m
    linarith
  · change 60 * value (Float.ofInt (60 * m : ℕ) / 3600.0) - m < _
    linarith

/-- The whole minutes of less than two days are written as hours with four places. The rounding of
the double quotient cannot reach the middle between two texts, as the exact quotient is a third of
a unit away from a text at most. -/
theorem hours_text {m : ℕ} (hm : m < 2880) : ∃ u : ℕ,
    |(u : ℚ) / 10 ^ 4 - m / 60| < 1 / 2 / 10 ^ 4 ∧
      fixed 4 (Arithmetic.ofInt (60 * m) / 3600.0) = withPoint 4 u := by
  obtain rfl | hpos := Nat.eq_zero_or_pos m
  · exact ⟨0, by norm_num, fixed_zero_hours⟩
  obtain ⟨hx, hnear⟩ := hours_near hm
  obtain ⟨hbelow, habove⟩ := abs_lt.mp hnear
  have htiny : (2 : ℝ) ^ (-42 : ℤ) < 1 / 10 ^ 6 := by norm_num
  obtain ⟨u, hu, hu'⟩ : ∃ u : ℕ, 3 * u ≤ 500 * m + 1 ∧ 500 * m ≤ 3 * u + 1 :=
    ⟨(500 * m + 1) / 3, by omega, by omega⟩
  refine ⟨u, ?_, fixed_eq hx ?_ ?_⟩
  · have hu : (3 : ℚ) * u ≤ 500 * m + 1 := by exact_mod_cast hu
    have hu' : (500 : ℚ) * m ≤ 3 * u + 1 := by exact_mod_cast hu'
    rw [abs_lt]
    constructor <;> linarith
  · have hone : (1 : ℝ) ≤ m := by exact_mod_cast hpos
    linarith
  · have hu : (3 : ℝ) * u ≤ 500 * m + 1 := by exact_mod_cast hu
    have hu' : (500 : ℝ) * m ≤ 3 * u + 1 := by exact_mod_cast hu'
    rw [abs_lt]
    constructor <;> linarith

def Row.fields (r : Row) : List String :=
  [r.date, r.zenith, r.sunrise.getD "", r.sunset.getD "", fixed 4 r.hours, r.condition]

theorem Row.line_eq (r : Row) : r.line = ",".intercalate r.fields := by
  simp [Row.line, Row.fields, String.append_assoc]

theorem plain_label (day : SolarDay) : Plain day.label.toList := by
  cases day with
  | regular _ _ => exact (by decide : Plain "regular".toList)
  | _ => decide

theorem plain_name (zenith : Zenith) : Plain zenith.name.toList := by
  cases zenith <;> decide

theorem plain_event (t? : Option Instant) : Plain ((t?.map Instant.text).getD "").toList := by
  cases t? with
  | none => exact (by decide : Plain "".toList)
  | some t => exact plain_instant t

theorem plain_fields (zenith : Zenith) (e : Entry) :
    ∀ field ∈ (e.row zenith).fields, Plain field.toList := by
  simp only [Row.fields, Entry.row, List.forall_mem_cons, List.not_mem_nil, false_implies,
    implies_true, and_true]
  exact ⟨plain_date _, plain_name _, plain_event _, plain_event _, plain_fixed _, plain_label _⟩

/-- A line is cut at its commas into the fields it was made of. -/
theorem splitOn_line (zenith : Zenith) (e : Entry) :
    (e.row zenith).line.toList.splitOn ',' = (e.row zenith).fields.map String.toList := by
  have hcommas : ∀ cs ∈ (e.row zenith).fields.map String.toList, ',' ∉ cs := by
    intro cs hcs
    obtain ⟨field, hfield, rfl⟩ := List.mem_map.mp hcs
    exact (plain_fields zenith e field hfield).comma
  rw [Row.line_eq, String.toList_intercalate]
  exact List.splitOn_intercalate ',' hcommas (by simp [Row.fields])

theorem lineFeed_notMem_line (zenith : Zenith) (e : Entry) :
    '\n' ∉ (e.row zenith).line.toList := by
  have hfields := fun field h => (plain_fields zenith e field h).lineFeed
  simp only [Row.fields, List.forall_mem_cons] at hfields
  obtain ⟨hdate, hzenith, hrise, hset, hhours, hcondition, _⟩ := hfields
  simp [Row.line, hdate, hzenith, hrise, hset, hhours, hcondition]

theorem splitOn_join (ls : List String) (h : ∀ l ∈ ls, '\n' ∉ l.toList) :
    (String.join (ls.map (· ++ "\n"))).toList.splitOn '\n' = ls.map String.toList ++ [[]] := by
  induction ls with
  | nil => rfl
  | cons l ls ih =>
    obtain ⟨hl, hls⟩ := List.forall_mem_cons.mp h
    rw [List.map_cons, String.join_cons, String.toList_append, String.toList_append,
      List.append_assoc]
    change (l.toList ++ '\n' :: (String.join (ls.map (· ++ "\n"))).toList).splitOn '\n' = _
    rw [List.splitOn_append_cons_self_of_not_mem hl, ih hls]
    rfl

theorem splitOn_table (zenith : Zenith) (entries : List Entry) :
    (table zenith entries).toList.splitOn '\n' =
      (lines zenith entries).map String.toList ++ [[]] := by
  refine splitOn_join _ (List.forall_mem_cons.mpr ⟨by decide, ?_⟩)
  intro l hl
  obtain ⟨e, _, rfl⟩ := List.mem_map.mp hl
  exact lineFeed_notMem_line zenith e

/-- Reads the crossings and the label of a day. -/
def readDay (rise set label : List Char) : Option SolarDay :=
  if rise = [] ∧ set = [] then
    [SolarDay.polarDay, .polarNight, .unresolved].find? fun day => day.label.toList == label
  else if label = "regular".toList then
    match Instant.read? rise, Instant.read? set with
    | some rise, some set => some (.regular rise set)
    | _, _ => none
  else none

/-- Reads the fields of a line: the zenith and the entry. The hours are left aside here. -/
def readFields : List (List Char) → Option (Zenith × Entry)
  | [date, zenith, rise, set, _, label] =>
    match CommandLine.readDate date, Zenith.ofText? (String.ofList zenith),
      readDay rise set label with
    | .ok date, .ok zenith, some day => some (zenith, ⟨date, day⟩)
    | _, _, _ => none
  | _ => none

/-- Reads a table: the columns, then lines of fields, and nothing after the last line feed. -/
def readTable (text : String) : Option (List (Zenith × Entry)) :=
  match text.toList.splitOn '\n' with
  | header :: rest =>
    if header = columns.toList ∧ rest.getLast? = some [] then
      rest.dropLast.mapM fun line => readFields (line.splitOn ',')
    else none
  | [] => none

theorem readDay_fields (day : SolarDay) :
    readDay ((day.sunrise?.map Instant.text).getD "").toList
      ((day.sunset?.map Instant.text).getD "").toList day.label.toList = some day := by
  cases day with
  | regular rise set =>
    have hrise : rise.text.toList ≠ [] := by
      rw [Instant.toList_text]
      exact List.append_ne_nil_of_right_ne_nil _ (List.cons_ne_nil _ _)
    change readDay rise.text.toList set.text.toList "regular".toList = _
    rw [readDay, if_neg fun h => hrise h.1, if_pos rfl, Instant.read?_text, Instant.read?_text]
  | polarDay | polarNight | unresolved => decide

theorem ofText?_name (zenith : Zenith) : Zenith.ofText? zenith.name = .ok zenith := by
  cases zenith <;> rfl

theorem readFields_row (zenith : Zenith) (e : Entry) :
    readFields ((e.row zenith).fields.map String.toList) = some (zenith, e) := by
  simp only [Row.fields, Entry.row, List.map_cons, List.map_nil, readFields, readDate_text,
    String.ofList_toList, ofText?_name, readDay_fields]

theorem readTable_table (zenith : Zenith) (entries : List Entry) :
    readTable (table zenith entries) = some (entries.map (zenith, ·)) := by
  have hread : ((fun line => readFields (line.splitOn ',')) ∘
      fun e : Entry => (e.row zenith).line.toList) = fun e => some (zenith, e) :=
    funext fun e => by rw [Function.comp_apply, splitOn_line, readFields_row]
  have hlines : (table zenith entries).toList.splitOn '\n' =
      columns.toList :: (entries.map (fun e => (e.row zenith).line.toList) ++ [[]]) := by
    rw [splitOn_table, lines, List.map_cons, List.map_map, List.cons_append]
    rfl
  unfold readTable
  rw [hlines]
  change (if _ then _ else _) = _
  rw [if_pos ⟨rfl, List.getLast?_concat⟩, List.dropLast_concat, List.mapM_map, hread]
  exact List.mapM_pure

theorem table_injective (zenith : Zenith) : Function.Injective (table zenith) := by
  intro es es' h
  have hread := readTable_table zenith es
  rw [h, readTable_table] at hread
  exact (List.map_injective_iff.mpr (Prod.mk_right_injective zenith) (Option.some.inj hread)).symm

/-- What the fields of a line show of the length of a day: of a regular day its whole minutes as
hours, correctly rounded to four places, which no other minutes have; of any other day no instants
and zero hours. -/
def ShowsLength (rise set hours : String) : SolarDay → Prop
  | .regular sunrise sunset =>
    rise = sunrise.text ∧ set = sunset.text ∧
      ∃ m u : ℕ, sunset.seconds - sunrise.seconds = 60 * m ∧ hours = withPoint 4 u ∧
        |(u : ℚ) / 10 ^ 4 - m / 60| < 1 / 2 / 10 ^ 4 ∧ readMinutes hours.toList = some m
  | _ => rise = "" ∧ set = "" ∧ hours = "0.0000"

theorem showsLength_of_placed {date : Date} {day : SolarDay} (h : day.Placed date) :
    ShowsLength ((day.sunrise?.map Instant.text).getD "") ((day.sunset?.map Instant.text).getD "")
      (fixed 4 (Arithmetic.ofInt day.duration / 3600.0)) day := by
  cases day with
  | regular sunrise sunset =>
    obtain ⟨⟨hrise, hset⟩, -, hlow, hhigh⟩ := h
    have hduration : (SolarDay.regular sunrise sunset).duration =
        sunset.seconds - sunrise.seconds := rfl
    obtain ⟨m, hm⟩ : ∃ m : ℕ, sunset.seconds - sunrise.seconds = 60 * m := by
      refine ⟨((sunset.seconds - sunrise.seconds) / 60).toNat, ?_⟩
      simp only [Instant.seconds] at *
      omega
    obtain ⟨u, hnear, htext⟩ := hours_text (m := m) (by omega)
    rw [hduration, hm, htext]
    exact ⟨rfl, rfl, m, u, hm, rfl, hnear, readMinutes_withPoint hnear⟩
  | polarDay | polarNight | unresolved => exact ⟨rfl, rfl, fixed_zero_hours⟩

section
variable {α : Type} [Geometric α] [Elementary α]

theorem placed_of_mem_build {r : Request α} {e : Entry} (h : e ∈ r.build.value) :
    e.day.Placed e.date := by
  obtain ⟨solved, hsolved, rfl⟩ := List.mem_map.mp h
  obtain ⟨date, -, rfl⟩ := List.mem_map.mp hsolved
  exact (pairing_solve r.site date r.zenith).placed

/-- The table of a request loses nothing: it is a line of columns and a line of six fields for
each entry in order, from which the entries and the zenith are read back, so that the tables of one
zenith differ as their entries do; and the hours of every regular day show its minutes. -/
theorem build_table_lossless (r : Request α) :
    let entries := r.build.value
    (table r.zenith entries).toList.splitOn '\n' =
        (columns :: entries.map fun e => (e.row r.zenith).line).map String.toList ++ [[]] ∧
      (∀ e ∈ entries, ∃ rise set hours : String,
        (e.row r.zenith).line.toList.splitOn ',' =
          [e.date.text, r.zenith.name, rise, set, hours, e.day.label].map String.toList ∧
        readFields ((e.row r.zenith).line.toList.splitOn ',') = some (r.zenith, e) ∧
        ShowsLength rise set hours e.day) ∧
      readTable (table r.zenith entries) = some (entries.map (r.zenith, ·)) ∧
      ∀ zenith : Zenith, Function.Injective (table zenith) := by
  intro entries
  refine ⟨splitOn_table r.zenith entries, fun e he => ?_, readTable_table r.zenith entries,
    table_injective⟩
  refine ⟨_, _, _, splitOn_line r.zenith e, ?_, showsLength_of_placed (placed_of_mem_build he)⟩
  rw [splitOn_line, readFields_row]

end
end GeoAlmanac.Almanac
