import GeoAlmanac.Proofs.Almanac.Export

/-! The report of an almanac read back and held against its table. Both have a line for each entry,
and the two lines of an entry read as the same date, the same crossings and the same condition; the
hours and minutes of the one are the minutes whose hours the other gives. -/

namespace GeoAlmanac.CommandLine.SunProgram
open Almanac Decimal

/-- What a line says of a day without crossings. -/
def conditions : List (String × SolarDay) :=
  [("polar day (sun never sets)", .polarDay), ("polar night (sun never rises)", .polarNight),
    ("no event within the UTC day", .unresolved)]

/-- Reads hours and minutes, as in `15h 07m`. -/
def readDaylight (cs : List Char) : Option (ℕ × ℕ) :=
  match cs.span (· ≠ 'h') with
  | (hours, ['h', ' ', m₁, m₂, 'm']) => some (natOfDigits hours, natOfDigits [m₁, m₂])
  | _ => none

/-- Reads what a line says after its date: the day, and of a regular one its length. -/
def readCourse (cs : List Char) : Option (SolarDay × Option (ℕ × ℕ)) :=
  match cs.splitOn ',' with
  | [text] => (conditions.lookup (String.ofList text)).map (·, none)
  | [rise, set, length] => do
    let sunrise ← Instant.read? (← rise.dropPrefix? "sunrise ".toList)
    let sunset ← Instant.read? (← set.dropPrefix? " sunset ".toList)
    let daylight ← readDaylight (← length.dropPrefix? " daylight ".toList)
    some (.regular sunrise sunset, some daylight)
  | _ => none

/-- Reads a line of the report: the date, and after a colon its day. -/
def readLine (cs : List Char) : Option (Almanac.Entry × Option (ℕ × ℕ)) :=
  match cs.span (· ≠ ' ') with
  | (date, rest) =>
    match readDate date, (rest.dropPrefix? "      : ".toList).bind readCourse with
    | .ok date, some (day, daylight) => some (⟨date, day⟩, daylight)
    | _, _ => none

theorem dropPrefix?_append (cs ds : List Char) : (cs ++ ds).dropPrefix? cs = some ds :=
  List.dropPrefix?_append_of_beq ds (by simp)

theorem readDaylight_text (n : ℕ) :
    readDaylight (toString (n / 60) ++ "h " ++ padded 2 (n % 60) ++ "m").toList =
      some (n / 60, n % 60) := by
  obtain ⟨m₁, m₂, hminutes⟩ := padded_two (n := n % 60) (by omega)
  have hvalue := natOfDigits_padded 2 (n % 60)
  have hhours : ∀ c ∈ Nat.toDigits 10 (n / 60), decide (c ≠ 'h') = true := by
    intro c hc
    refine decide_eq_true ?_
    rintro rfl
    exact absurd (digits_toDigits _ _ hc) (by decide)
  have htext : (toString (n / 60) ++ "h " ++ padded 2 (n % 60) ++ "m").toList =
      Nat.toDigits 10 (n / 60) ++ ['h', ' ', m₁, m₂, 'm'] := by
    simp [hminutes]
  rw [hminutes] at hvalue
  rw [readDaylight, htext, span_digits hhours 'h' (by decide)]
  simp only [hvalue, natOfDigits_eq, Nat.ofDigitChars_ten_toDigits]

example : readDaylight "15h 07m".toList = some (15, 7) := by decide +kernel

theorem readCourse_regular (rise set : Instant) (n : ℕ) :
    readCourse ("sunrise " ++ rise.text ++ ", sunset " ++ set.text ++ ", daylight " ++
      toString (n / 60) ++ "h " ++ padded 2 (n % 60) ++ "m").toList =
      some (.regular rise set, some (n / 60, n % 60)) := by
  have hlength : Plain (toString (n / 60) ++ "h " ++ padded 2 (n % 60) ++ "m").toList := by
    simp only [String.toList_append, toList_toString]
    exact (((plain_digits (digits_toDigits _)).append (by decide)).append
      (plain_digits (digits_padded _ _))).append (by decide)
  have hread := readDaylight_text n
  have hrise := plain_instant rise
  have hset := plain_instant set
  have hcut : ("sunrise " ++ rise.text ++ ", sunset " ++ set.text ++ ", daylight " ++
      toString (n / 60) ++ "h " ++ padded 2 (n % 60) ++ "m").toList =
      [','].intercalate ["sunrise ".toList ++ rise.text.toList,
        " sunset ".toList ++ set.text.toList,
        " daylight ".toList ++ (toString (n / 60) ++ "h " ++ padded 2 (n % 60) ++ "m").toList] := by
    simp [List.intercalate]
  generalize (toString (n / 60) ++ "h " ++ padded 2 (n % 60) ++ "m").toList = length at *
  have hcommas : ∀ cs ∈ ["sunrise ".toList ++ rise.text.toList,
      " sunset ".toList ++ set.text.toList, " daylight ".toList ++ length], ',' ∉ cs := by
    simp [hrise.comma, hset.comma, hlength.comma]
  rw [readCourse, hcut, List.splitOn_intercalate ',' hcommas (by simp)]
  simp only [dropPrefix?_append, Instant.read?_text, hread, Option.bind_eq_bind, Option.bind_some]

theorem readCourse_condition {text : String} {day : SolarDay} (h : (text, day) ∈ conditions) :
    readCourse text.toList = some (day, none) := by
  simp only [conditions, List.mem_cons, Prod.mk.injEq, List.not_mem_nil, or_false] at h
  rcases h with ⟨rfl, rfl⟩ | ⟨rfl, rfl⟩ | ⟨rfl, rfl⟩ <;> decide +kernel

/-- The hours and minutes of a regular day. -/
def daylight (day : SolarDay) : Option (ℕ × ℕ) :=
  match day with
  | .regular _ _ => some ((day.duration / 60).toNat / 60, (day.duration / 60).toNat % 60)
  | _ => none

theorem readLine_entryLine (e : Almanac.Entry) :
    readLine (entryLine e).toList = some (e, daylight e.day) := by
  have hdate := ne_of_mem_dateText (by decide : ' '.isDigit = false) (by decide) e.date
  have hread (course : String) (day : SolarDay) (length : Option (ℕ × ℕ))
      (h : readCourse course.toList = some (day, length)) :
      readLine (e.date.text ++ "      : " ++ course).toList = some (⟨e.date, day⟩, length) := by
    have hline : (e.date.text ++ "      : " ++ course).toList =
        e.date.text.toList ++ ' ' :: ("     : ".toList ++ course.toList) := by
      simp
    have hrest : (' ' :: ("     : ".toList ++ course.toList)).dropPrefix? "      : ".toList =
        some course.toList := dropPrefix?_append "      : ".toList _
    rw [readLine, hline, span_digits hdate ' ' (by decide)]
    simp only [readDate_text, hrest, Option.bind_some, h]
  obtain ⟨date, day⟩ := e
  cases day with
  | regular rise set => exact hread _ _ _ (readCourse_regular rise set _)
  | polarDay | polarNight | unresolved =>
    exact hread _ _ none (readCourse_condition (by simp [conditions]))

theorem lineFeed_notMem_entryLine (e : Almanac.Entry) : '\n' ∉ (entryLine e).toList := by
  obtain ⟨date, day⟩ := e
  have hdate := (plain_date date).lineFeed
  cases day with
  | regular rise set =>
    have hrise := (plain_instant rise).lineFeed
    have hset := (plain_instant set).lineFeed
    have hhours := fun n => (plain_digits (digits_toDigits n)).lineFeed
    have hminutes := fun n => (plain_digits (digits_padded 2 n)).lineFeed
    simp [entryLine, hdate, hrise, hset, hhours, hminutes]
  | polarDay | polarNight | unresolved => simp [entryLine, hdate]

/-- What the hours of a row and the hours and minutes of a line show of the length of a day: of a
regular one the same minutes from sunrise to sunset, in the row as hours correctly rounded to four
places; of any other day none. -/
inductive SameLength (hours : String) : SolarDay → Option (ℕ × ℕ) → Prop where
  | regular {sunrise sunset : Instant} {h m u : ℕ} : m < 60 →
      sunset.seconds - sunrise.seconds = 60 * (60 * h + m) → hours = withPoint 4 u →
      |(u : ℚ) / 10 ^ 4 - (60 * h + m) / 60| < 1 / 2 / 10 ^ 4 →
      SameLength hours (.regular sunrise sunset) (some (h, m))
  | other {day : SolarDay} : day.sunrise? = none → day.sunset? = none → hours = "0.0000" →
      SameLength hours day none

/-- A line of the report and a row of the table read as the same entry and show the same length of
its day. -/
def Agree (zenith : Zenith) (line row : String) : Prop :=
  ∃ (e : Almanac.Entry) (daylight : Option (ℕ × ℕ)) (hours : String),
    readLine line.toList = some (e, daylight) ∧
      readFields (row.toList.splitOn ',') = some (zenith, e) ∧
      (row.toList.splitOn ',')[4]? = some hours.toList ∧ SameLength hours e.day daylight

theorem sameLength_of_placed {date : Date} {day : SolarDay} (h : day.Placed date) :
    SameLength (fixed 4 (Arithmetic.ofInt day.duration / 3600.0)) day (daylight day) := by
  have hshows := showsLength_of_placed h
  cases day with
  | regular sunrise sunset =>
    obtain ⟨-, -, n, u, hlength, hhours, hnear, -⟩ := hshows
    have hminutes : ((SolarDay.regular sunrise sunset).duration / 60).toNat = n := by
      have hduration : (SolarDay.regular sunrise sunset).duration =
          sunset.seconds - sunrise.seconds := rfl
      omega
    have hwhole : (60 * (n / 60 : ℕ) + (n % 60 : ℕ) : ℚ) = n := by
      exact_mod_cast Nat.div_add_mod n 60
    simp only [daylight, hminutes]
    refine .regular (Nat.mod_lt n (by norm_num)) ?_ hhours ?_
    · rw [hlength]
      omega
    · rwa [hwhole]
  | polarDay | polarNight | unresolved => exact .other rfl rfl hshows.2.2

theorem agree_of_placed (zenith : Zenith) {e : Almanac.Entry} (h : e.day.Placed e.date) :
    Agree zenith (entryLine e) (e.row zenith).line := by
  have hrow := splitOn_line zenith e
  refine ⟨e, daylight e.day, _, readLine_entryLine e, ?_, ?_, sameLength_of_placed h⟩
  · rw [hrow, readFields_row]
  · rw [hrow]
    rfl

theorem report_eq (p : Place) (zenith : Zenith) (entries : List Almanac.Entry) :
    report p zenith entries = report p zenith [] ++ entries.map entryLine := by
  unfold report
  cases p.elevation <;> simp

section
variable {s : Settings} {files : FileTree}

theorem Settings.work_report {p : Place} (h : s.place files = .ok p) (hnone : s.output = none)
    (today : Date) : s.work today files =
      ⟨lines (report p s.zenith (s.request p today).build.value), files, none⟩ := by
  simp [Settings.work, h, hnone, Settings.request]

theorem Settings.work_table {p : Place} {dash : Path} (h : s.place files = .ok p)
    (houtput : s.output = some dash) (hdash : isStandardOutput dash = true) (today : Date) :
    s.work today files = ⟨table s.zenith (s.request p today).build.value, files, none⟩ := by
  simp [Settings.work, h, houtput, hdash, Settings.request]

end

/-- A run that prints the report and one that prints the table, of the same settings otherwise,
fail alike or print a line and a row for each entry that agree one by one. The lines of the report
follow its heading and the rows of the table its columns. -/
theorem report_agrees_with_table {args args' : List String} {command command' : Option String}
    {change change' : Settings → Settings} {dash : Path}
    (hreport : program.read args = .ok (command, change)) (hnone : (change initial).output = none)
    (htable : program.read args' = .ok (command', change'))
    (hsame : change' initial = { change initial with output := some dash })
    (hdash : isStandardOutput dash = true) (today : Date) (files : FileTree) :
    let s := change initial
    let printed := run today files args
    let printed' := run today files args'
    printed.files = files ∧ printed'.files = files ∧
      match s.place files with
      | .error _ => printed = printed' ∧ printed.output = ""
      | .ok p => printed.code = 0 ∧ printed'.code = 0 ∧ ∃ days rows : List String,
          printed.output = lines (report p s.zenith [] ++ days) ∧
          printed'.output = lines (columns :: rows) ∧
          (∀ l ∈ days ++ rows, '\n' ∉ l.toList) ∧
          rows.length = (s.request p today).build.value.length ∧
          List.Forall₂ (Agree s.zenith) days rows := by
  dsimp only
  rw [run_of_read hreport, run_of_read htable, hsame]
  generalize change initial = s at *
  have hplace : ({ s with output := some dash } : Settings).place files = s.place files := rfl
  cases hresult : s.place files with
  | error f =>
    rw [Settings.work_of_place_eq_error hresult,
      Settings.work_of_place_eq_error (hplace.trans hresult)]
    exact ⟨rfl, rfl, rfl, rfl⟩
  | ok p =>
    rw [Settings.work_report hresult hnone,
      Settings.work_table (hplace.trans hresult) rfl hdash]
    let entries := (s.request p today).build.value
    refine ⟨rfl, rfl, rfl, rfl, entries.map entryLine,
      entries.map fun e => (e.row s.zenith).line, ?_, rfl, ?_, List.length_map _, ?_⟩
    · exact congrArg lines (report_eq p s.zenith entries)
    · intro l hl
      rcases List.mem_append.mp hl with hl | hl
      · obtain ⟨e, -, rfl⟩ := List.mem_map.mp hl
        exact lineFeed_notMem_entryLine e
      · obtain ⟨e, -, rfl⟩ := List.mem_map.mp hl
        exact lineFeed_notMem_line s.zenith e
    · rw [List.forall₂_map_left_iff, List.forall₂_map_right_iff, List.forall₂_same]
      exact fun e he => agree_of_placed s.zenith (placed_of_mem_build he)

theorem report_agrees_with_table_greenwich :
    let start : Date := ⟨2024, 3, 20, by decide⟩
    let files : FileTree := ⟨[], []⟩
    let printed := run start files ["--lat", "51.5", "--lon", "0"]
    let printed' := run start files ["--lat", "51.5", "--lon", "0", "--output", "-"]
    printed.code = 0 ∧ printed'.code = 0 ∧ ∃ days rows : List String,
      printed.output = lines (report ⟨"coordinates", ⟨51.5, 0⟩, none⟩ .official [] ++ days) ∧
        printed'.output = lines (columns :: rows) ∧
        (∀ l ∈ days ++ rows, '\n' ∉ l.toList) ∧ rows.length = 1 ∧
        List.Forall₂ (Agree .official) days rows := by
  intro start files printed printed'
  have hread : ∃ change, program.read ["--lat", "51.5", "--lon", "0"] = .ok (none, change) ∧
      change initial = { initial with latitude := some 51.5, longitude := some 0 } := ⟨_, rfl, rfl⟩
  have hread' : ∃ change, program.read ["--lat", "51.5", "--lon", "0", "--output", "-"] =
      .ok (none, change) ∧ change initial = { initial with
        latitude := some 51.5, longitude := some 0, output := some (.ofText "-") } :=
    ⟨_, rfl, rfl⟩
  obtain ⟨change, hread, hchange⟩ := hread
  obtain ⟨change', hread', hchange'⟩ := hread'
  have hdash : isStandardOutput (.ofText "-") = true := by decide +kernel
  have hagrees := report_agrees_with_table hread (by rw [hchange]; rfl) hread'
    (by rw [hchange, hchange']) hdash start files
  have hplace : (change initial).place files = .ok ⟨"coordinates", ⟨51.5, 0⟩, none⟩ := by
    rw [hchange]
    rfl
  obtain ⟨-, -, hagrees⟩ := hagrees
  rw [hplace, hchange] at hagrees
  exact hagrees

end GeoAlmanac.CommandLine.SunProgram
