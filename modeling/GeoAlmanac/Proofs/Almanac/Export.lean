import GeoAlmanac.CommandLine.SunProgram
import GeoAlmanac.Proofs.Almanac.Table
import GeoAlmanac.Proofs.Files.Changes

/-! Which files an export changes. The table is written at the place of the output path and the
summary beside it, under another name, so that the second leaves the first as it is; nothing else
changes but for directories made above the two. A run that fails before it exports changes
nothing. -/

namespace GeoAlmanac

theorem FileTree.Touches.file_iff {t t' : FileTree} {made : Set Path}
    (h : Touches t t' made ∅) (q : Location) (content : ByteArray) :
    t'.entry? q = some (.file content) ↔ t.entry? q = some (.file content) := by
  rcases h.entry q with hq | ⟨_, hp, _⟩ | ⟨hnone, hq, _⟩
  · rw [hq]
  · exact absurd hp (Set.notMem_empty _)
  · simp [hnone, hq]

theorem FileTree.read_of_locate {t : FileTree} {p : Path} {q : Location} {content : ByteArray}
    (hlocate : t.locate p = .ok q) (hentry : t.entry? q = some (.file content))
    (hend : p.endsWithSlash = false) : t.read p = .ok content := by
  simp [FileTree.read, hlocate, hentry, hend]

namespace Almanac
open FileTree

theorem bytesOf_summary : bytesOf "_summary.json" =
    [0x5F, 0x73, 0x75, 0x6D, 0x6D, 0x61, 0x72, 0x79, 0x2E, 0x6A, 0x73, 0x6F, 0x6E] := by
  decide +kernel

theorem isName_summary {stem : Name} (h : Path.slash ∉ stem) :
    Path.IsName (stem ++ bytesOf "_summary.json") := by
  have hlength : 2 < (stem ++ bytesOf "_summary.json").length := by
    simp [bytesOf_summary]
  constructor
  · intro hnil
    simp [hnil] at hlength
  · rw [List.mem_append, not_or, bytesOf_summary]
    exact ⟨h, by decide⟩
  · intro hdot
    simp [hdot, Path.dot] at hlength
  · intro hdotDot
    simp [hdotDot, Path.dotDot] at hlength

theorem exists_stem {p : Path} {m : Name} (h : p.fileName? = some m) :
    ∃ stem, p.stem? = some stem ∧ ((Path.splitAtDot? m = none ∧ stem = m) ∨ ∃ extension,
      Path.splitAtDot? m = some (stem, extension) ∧ m = stem ++ 0x2E :: extension) := by
  cases hparts : Path.splitAtDot? m with
  | none => exact ⟨m, by simp [Path.stem?, h, hparts], .inl ⟨rfl, rfl⟩⟩
  | some parts =>
    obtain ⟨stem, extension⟩ := parts
    exact ⟨stem, by simp [Path.stem?, h, hparts], .inr ⟨extension, rfl,
      (Path.splitAtDot?_eq_some.mp hparts).1⟩⟩

theorem exists_summaryPath_eq_join {output : Path} {m : Name} (h : output.fileName? = some m) :
    ∃ directory n, Path.IsName n ∧ n ≠ m ∧ summaryPath output = Path.join directory n := by
  have hslash := (Path.isName_of_fileName? h).slash_notMem
  obtain ⟨stem, hstem, hcases⟩ := exists_stem h
  unfold summaryPath
  rw [hstem]
  refine ⟨_, _, isName_summary ?_, ?_, rfl⟩
  · dsimp only
    split_ifs
    · rcases hcases with ⟨-, rfl⟩ | ⟨extension, -, rfl⟩
      · exact hslash
      · exact fun hmem => hslash (List.mem_append_left _ hmem)
    · decide +kernel
  · dsimp only
    split_ifs with hreadable
    · rcases hcases with ⟨-, rfl⟩ | ⟨extension, -, rfl⟩
      · simp [bytesOf_summary]
      · simp [bytesOf_summary]
    · rintro rfl
      have hparts : Path.splitAtDot? (bytesOf "almanac" ++ bytesOf "_summary.json") =
          some (bytesOf "almanac_summary", bytesOf "json") := by decide +kernel
      rcases hcases with ⟨hnone, -⟩ | ⟨extension, hsome, -⟩
      · exact absurd (hnone.symm.trans hparts) (by simp)
      · obtain ⟨rfl, -⟩ := Prod.mk.inj (Option.some.inj (hsome.symm.trans hparts))
        exact hreadable (by decide +kernel)

/-- What an export leaves of a tree by how it ends. If the table cannot be written, all files are
as before; if only the summary cannot, the table is complete; otherwise both are. Of the rest
nothing differs but directories made above the two paths where nothing stood. -/
def Exported (t t' : FileTree) (output : Path) (table summary : ByteArray) :
    Option ExportError → Prop
  | some (.table _) =>
    Touches t t' output.above ∅ ∧ ∀ q content,
      t'.entry? q = some (.file content) ↔ t.entry? q = some (.file content)
  | some (.summary _) =>
    Touches t t' (output.above ∪ (summaryPath output).above) {output} ∧ t'.read output = .ok table
  | none =>
    Touches t t' (output.above ∪ (summaryPath output).above) {output, summaryPath output} ∧
      t'.read output = .ok table ∧ t'.read (summaryPath output) = .ok summary

theorem exportFiles_exported {t : FileTree} (ht : t.WellFormed) (output : Path)
    (r : Request Float) (entries : List Entry) :
    (exportFiles t output r entries).1.WellFormed ∧
      Exported t (exportFiles t output r entries).1 output (table r.zenith entries).toUTF8
        (r.summarize entries).text.toUTF8 (exportFiles t output r entries).2 := by
  have htable := place_touches ht output (table r.zenith entries).toUTF8
  unfold exportFiles
  generalize t.place output (table r.zenith entries).toUTF8 = first at *
  obtain ⟨t₁, failure⟩ := first
  cases failure with
  | some e =>
    obtain ⟨ht₁, htouches⟩ := htable
    exact ⟨ht₁, htouches, htouches.file_iff⟩
  | none =>
    obtain ⟨ht₁, htouches, hend, base, m, hname, hlocate, hentry⟩ := htable
    have hsummary := place_touches ht₁ (summaryPath output) (r.summarize entries).text.toUTF8
    dsimp only at *
    generalize t₁.place (summaryPath output) (r.summarize entries).text.toUTF8 = second at *
    obtain ⟨t₂, failure⟩ := second
    cases failure with
    | some e =>
      obtain ⟨ht₂, hmore⟩ := hsummary
      have hkept := (hmore.file_iff (base ++ [m]) _).mpr hentry
      refine ⟨ht₂, (htouches.trans hmore).mono subset_rfl (Set.union_empty _).subset, ?_⟩
      exact read_of_locate (hmore.locate hlocate) hkept hend
    | none =>
      obtain ⟨ht₂, hmore, hend', base', n, hname', hlocate', hentry'⟩ := hsummary
      obtain ⟨directory, n', hn', hne, hpath⟩ := exists_summaryPath_eq_join hname
      rw [hpath, Path.fileName?_join directory hn'] at hname'
      obtain rfl := Option.some.inj hname'
      have hapart : base ++ [m] ≠ base' ++ [n'] := by
        intro heq
        exact hne (List.append_singleton_inj.mp heq).2.symm
      have hkept : t₂.entry? (base ++ [m]) = some (.file (table r.zenith entries).toUTF8) := by
        rcases hmore.entry (base ++ [m]) with hq | ⟨p, rfl, hq⟩ | ⟨hnone, -⟩
        · rw [hq, hentry]
        · exact absurd (Except.ok.inj (hq.symm.trans hlocate')) hapart
        · exact absurd (hentry.symm.trans hnone) (by simp)
      refine ⟨ht₂, htouches.trans hmore, ?_, read_of_locate hlocate' hentry' hend'⟩
      exact read_of_locate (hmore.locate hlocate) hkept hend

end Almanac

namespace CommandLine.SunProgram
open Almanac FileTree

/-- The site of a run cannot be told: the catalog does not load, it has no site of the name or not
a valid one, or the coordinates given are out of range. -/
inductive Settings.Unplaced (s : Settings) (files : FileTree) : Prop where
  | catalog {name : String} {e : Catalog.LoadError String ByteArray} : s.site = some name →
      Catalog.load Catalog.siteRecord.readers files s.sites = .error e → s.Unplaced files
  | site {name : String} {catalog : List Catalog.Site} {e : Catalog.SiteError} :
      s.site = some name → Catalog.load Catalog.siteRecord.readers files s.sites = .ok catalog →
      Catalog.find catalog name = .error e → s.Unplaced files
  | position {latitude longitude : Float} {e : CoordinateError} : s.site = none →
      s.latitude = some latitude → s.longitude = some longitude →
      Coordinate.validate? latitude longitude = .error e → s.Unplaced files

theorem Settings.Unplaced.exists_failure {s : Settings} {files : FileTree}
    (h : s.Unplaced files) : ∃ f, s.place files = .error f := by
  unfold Settings.place
  cases h with
  | catalog hname hload => simp [hname, hload]
  | site hname hload hfind =>
    rename_i e
    cases e <;> simp [hname, hload, hfind]
  | position hsite hlatitude hlongitude hrange => simp [hsite, hlatitude, hlongitude, hrange]

theorem Settings.work_of_place_eq_error {s : Settings} {files : FileTree} {f : Failure}
    (h : s.place files = .error f) (today : Date) : s.work today files = ⟨"", files, some f⟩ := by
  simp [Settings.work, h]

/-- The almanac that a run tabulates for a place. -/
def Settings.request (s : Settings) (p : Place) (today : Date) : Request Float :=
  ⟨p.name, p.coordinate, s.date.getD today, s.days, s.zenith⟩

/-- The arguments ask for the table of a request in a file, and its place is known. -/
inductive Exports (today : Date) (files : FileTree) (args : List String) :
    Path → Request Float → Prop where
  | intro {command : Option String} {change : Settings → Settings} {p : Place} {output : Path} :
      program.read args = .ok (command, change) → (change initial).place files = .ok p →
      (change initial).output = some output → isStandardOutput output = false →
      Exports today files args output ((change initial).request p today)

theorem run_of_read {args : List String} {command : Option String} {change : Settings → Settings}
    (h : program.read args = .ok (command, change)) (today : Date) (files : FileTree) :
    run today files args = ((change initial).work today files).outcome := by
  simp [run, h]

theorem outcome_files (w : Work) :
    w.outcome.files = w.files ∧ (w.outcome.code = 0 ↔ w.failure = none) := by
  unfold Work.outcome
  split <;> simp_all

theorem Exports.run_eq {today : Date} {files : FileTree} {args : List String} {output : Path}
    {r : Request Float} (h : Exports today files args output r) :
    (run today files args).files = (exportFiles files output r r.build.value).1 ∧
      ((run today files args).code = 0 ↔ (exportFiles files output r r.build.value).2 = none) := by
  obtain ⟨hread, hplace, houtput, hfile⟩ := h
  rename_i command change p
  obtain ⟨hfiles, hcode⟩ := outcome_files ((change initial).work today files)
  rw [run_of_read hread, hfiles, hcode]
  simp only [Settings.work, Settings.request, hplace, houtput, hfile, Bool.false_eq_true, if_false]
  split
  next hexport => simp [hexport]
  next hexport => simp [hexport]

theorem run_files_of_not_exports {today : Date} {files : FileTree} {args : List String}
    (h : ∀ output r, ¬ Exports today files args output r) :
    (run today files args).files = files := by
  cases hread : program.read args with
  | error stop =>
    simp only [run, hread]
    cases stop <;> rfl
  | ok settings =>
    obtain ⟨command, change⟩ := settings
    rw [run_of_read hread, (outcome_files _).1]
    cases hplace : (change initial).place files with
    | error f => rw [Settings.work_of_place_eq_error hplace]
    | ok p =>
      unfold Settings.work
      rw [hplace]
      cases houtput : (change initial).output with
      | none => rfl
      | some output =>
        cases hfile : isStandardOutput output with
        | true => simp [hfile]
        | false => exact absurd (.intro hread hplace houtput hfile) (h output _)

/-- An export writes the two files it is meant to write, as far as they can be written, and changes
nothing else but for directories above them; the table is its columns and a line for each entry. A
run of the program that exports does so and succeeds exactly if both files are written. Any other
run leaves the files as they are; one that cannot tell the site fails. -/
theorem export_touches_two_files {t : FileTree} (ht : t.WellFormed) :
    (∀ (output : Path) (r : Request Float),
      let entries := r.build.value
      let (t', failure) := exportFiles t output r entries
      t'.WellFormed ∧ Exported t t' output (table r.zenith entries).toUTF8
          (r.summarize entries).text.toUTF8 failure ∧
        (table r.zenith entries).toList.splitOn '\n' =
          (columns :: entries.map fun e => (e.row r.zenith).line).map String.toList ++ [[]]) ∧
    ∀ (today : Date) (args : List String),
      let outcome := run today t args
      (∀ output r, Exports today t args output r →
        let (t', failure) := exportFiles t output r r.build.value
        outcome.files = t' ∧ (outcome.code = 0 ↔ failure = none)) ∧
      ((∀ output r, ¬ Exports today t args output r) → outcome.files = t) ∧
      ∀ command change, program.read args = .ok (command, change) →
        (change initial).Unplaced t → outcome.files = t ∧ outcome.code = 1 := by
  refine ⟨fun output r => ?_, fun today args =>
    ⟨fun output r h => h.run_eq, run_files_of_not_exports, fun command change hread hplace => ?_⟩⟩
  · obtain ⟨hformed, hexported⟩ := exportFiles_exported ht output r r.build.value
    exact ⟨hformed, hexported, splitOn_table r.zenith r.build.value⟩
  · obtain ⟨f, hf⟩ := hplace.exists_failure
    rw [run_of_read hread, Settings.work_of_place_eq_error hf]
    exact ⟨rfl, rfl⟩

/-- A working directory `a` with the file `b`. -/
def oneFile : FileTree where
  entries := [([[0x61]], .directory), ([[0x61], [0x62]], .file (.mk #[]))]
  workingDirectory := [[0x61]]

theorem oneFile_wellFormed : oneFile.WellFormed where
  nodup := by decide
  isName := by decide
  parent := by
    intro x hx
    simp only [oneFile, List.mem_cons, List.not_mem_nil, or_false] at hx
    rcases hx with rfl | rfl <;> rfl
  home := rfl

theorem exportFiles_oneFile (r : Request Float) (entries : List Almanac.Entry) :
    (exportFiles oneFile (.mk [0x62]) r entries).2 = none := by
  have hsummary : summaryPath (.mk [0x62]) = .mk (0x62 ::
      [0x5F, 0x73, 0x75, 0x6D, 0x6D, 0x61, 0x72, 0x79, 0x2E, 0x6A, 0x73, 0x6F, 0x6E]) := by
    decide +kernel
  have htable (content : ByteArray) : oneFile.place (.mk [0x62]) content =
      (oneFile.insert [[0x61], [0x62]] (.file content), none) := rfl
  unfold exportFiles
  rw [hsummary, htable]
  rfl

/-- A run that writes over the file, and one that is asked for no place on the globe. -/
theorem export_over_oneFile :
    let today : Date := ⟨2024, 3, 20, by decide⟩
    let r : Request Float := ⟨"coordinates", ⟨51.5, 0⟩, today, 1, .official⟩
    let (t', failure) := exportFiles oneFile (.mk [0x62]) r r.build.value
    let outcome := run today oneFile ["--lat", "51.5", "--lon", "0", "--output", "b"]
    let outcome' := run today oneFile ["--lat", "91", "--lon", "0", "--output", "b"]
    oneFile.WellFormed ∧ failure = none ∧
      (t'.WellFormed ∧ Exported oneFile t' (.mk [0x62]) (table r.zenith r.build.value).toUTF8
        (r.summarize r.build.value).text.toUTF8 failure) ∧
      (outcome.files = t' ∧ outcome.code = 0) ∧ outcome'.files = oneFile ∧ outcome'.code = 1 := by
  intro today r
  have hbytes : Path.ofText "b" = .mk [0x62] := by decide +kernel
  have hfile : isStandardOutput (.mk [0x62]) = false := by decide +kernel
  have hexports : Exports today oneFile ["--lat", "51.5", "--lon", "0", "--output", "b"]
      (.mk [0x62]) r := by
    have hread : ∃ change, program.read ["--lat", "51.5", "--lon", "0", "--output", "b"] =
        .ok (none, change) ∧ change initial = { initial with
          latitude := some 51.5, longitude := some 0, output := some (.ofText "b") } :=
      ⟨_, rfl, rfl⟩
    obtain ⟨change, hread, hsettings⟩ := hread
    have hplace : (change initial).place oneFile = .ok ⟨"coordinates", ⟨51.5, 0⟩, none⟩ := by
      rw [hsettings]
      rfl
    have houtput : (change initial).output = some (.mk [0x62]) := by rw [hsettings, hbytes]
    have hexports : Exports today oneFile _ _ _ := .intro hread hplace houtput hfile
    rwa [hsettings] at hexports
  have hread : ∃ change, program.read ["--lat", "91", "--lon", "0", "--output", "b"] =
      .ok (none, change) ∧ (change initial).Unplaced oneFile :=
    ⟨_, rfl, .position rfl rfl rfl rfl⟩
  obtain ⟨change, hread, hunplaced⟩ := hread
  obtain ⟨hfiles, hruns⟩ := export_touches_two_files oneFile_wellFormed
  obtain ⟨hformed, hexported, -⟩ := hfiles (.mk [0x62]) r
  obtain ⟨hrun, -, -⟩ := hruns today ["--lat", "51.5", "--lon", "0", "--output", "b"]
  obtain ⟨-, -, hfailed⟩ := hruns today ["--lat", "91", "--lon", "0", "--output", "b"]
  obtain ⟨hrunFiles, hcode⟩ := hrun _ _ hexports
  have hnone := exportFiles_oneFile r r.build.value
  exact ⟨oneFile_wellFormed, hnone, ⟨hformed, hexported⟩, ⟨hrunFiles, hcode.mpr hnone⟩,
    hfailed none change hread hunplaced⟩

end CommandLine.SunProgram
end GeoAlmanac
