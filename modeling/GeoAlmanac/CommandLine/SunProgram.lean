import GeoAlmanac.Almanac.Export
import GeoAlmanac.CommandLine.Outcome
import GeoAlmanac.CommandLine.Values

/-! The program for sunrise and sunset on consecutive dates. -/

namespace GeoAlmanac.CommandLine.SunProgram

structure Settings where
  latitude : Option Float
  longitude : Option Float
  site : Option String
  sites : Path
  date : Option Date
  zenith : Zenith
  days : Nat
  output : Option Path

def initial : Settings where
  latitude := none
  longitude := none
  site := none
  sites := .ofText "configs/sites.yaml"
  date := none
  zenith := .official
  days := 1
  output := none

/-- The options. A place is given by its two coordinates or by the name of a site. -/
def program : Program Settings where
  name := "suntimes"
  about := "Sunrise/sunset calculator (UTC)"
  root :=
    { options :=
        [⟨"lat", true, fun v => (numberValue v).map fun x s => { s with latitude := some x }⟩,
          ⟨"lon", true, fun v => (numberValue v).map fun x s => { s with longitude := some x }⟩,
          ⟨"site", false, fun v => .ok fun s => { s with site := some v }⟩,
          ⟨"sites", false, fun v => (pathValue v).map fun p s => { s with sites := p }⟩,
          ⟨"date", false, fun v => (dateValue v).map fun d s => { s with date := some d }⟩,
          ⟨"zenith", false, fun v => (zenithValue v).map fun z s => { s with zenith := z }⟩,
          ⟨"days", false, fun v => (countValue v).map fun n s => { s with days := n }⟩,
          ⟨"output", false, fun v => (pathValue v).map fun p s => { s with output := some p }⟩]
      required := []
      companions := [("lat", "lon"), ("lon", "lat")]
      conflicts := [("site", "lat"), ("site", "lon")]
      hasVersion := true }
  commands := []

/-- A place with its name and, where it is known, its elevation. -/
structure Place where
  name : String
  coordinate : Coordinate Float
  elevation : Option Float

def Settings.place (s : Settings) (files : FileTree) : Except Failure Place :=
  match s.site with
  | some name =>
    match Catalog.load Catalog.siteRecord.readers files s.sites with
    | .error e => .error (.ofCatalog "site" s.sites e)
    | .ok catalog =>
      match Catalog.find catalog name with
      | .ok (site, c) => .ok ⟨site.name, c, site.elevation⟩
      | .error (.notFound n) => .error (.plain (Catalog.SiteError.notFound n).message)
      | .error (.invalidPosition n cause) =>
        .error ⟨(Catalog.SiteError.invalidPosition n cause).message, [cause.message], false⟩
  | none =>
    match s.latitude, s.longitude with
    | some latitude, some longitude =>
      match Coordinate.validate? latitude longitude with
      | .ok c => .ok ⟨"coordinates", c, none⟩
      | .error e => .error (.plain e.message)
    | _, _ => .error (.plain "either --site or both --lat and --lon are required")

/-- The line of a date. The length of the day is in hours and minutes. -/
def entryLine (e : Almanac.Entry) : String :=
  e.date.text ++ "      : " ++ match e.day with
    | .regular sunrise sunset =>
      let minutes := (e.day.duration / 60).toNat
      "sunrise " ++ sunrise.text ++ ", sunset " ++ sunset.text ++ ", daylight "
        ++ toString (minutes / 60) ++ "h " ++ Decimal.padded 2 (minutes % 60) ++ "m"
    | .polarDay => "polar day (sun never sets)"
    | .polarNight => "polar night (sun never rises)"
    | .unresolved => "no event within the UTC day"

/-- The report of an almanac on the standard output. -/
def report (p : Place) (zenith : Zenith) (entries : List Almanac.Entry) : List String :=
  labelled "Location" (p.name ++ " " ++ p.coordinate.text)
    :: (match p.elevation with
      | some x => [labelled "Elevation" (Decimal.shortest x ++ " m")]
      | none => [])
    ++ labelled "Zenith" (zenith.name ++ " (" ++ Decimal.shortest zenith.degrees ++ "°)")
    :: entries.map entryLine

def exportFailure (output : Path) : Almanac.ExportError → Failure
  | .table e => ⟨"opening " ++ output.text, [e.message], false⟩
  | .summary e => ⟨"writing " ++ (Almanac.summaryPath output).text, [e.message], false⟩

/-- The almanac in the form asked for: as a report, as a table on the standard output, or as a
table and a summary in files. -/
def Settings.work (s : Settings) (today : Date) (files : FileTree) : Work :=
  match s.place files with
  | .error f => ⟨"", files, some f⟩
  | .ok p =>
    let request : Almanac.Request Float :=
      ⟨p.name, p.coordinate, s.date.getD today, s.days, s.zenith⟩
    let entries := request.build.value
    match s.output with
    | none => ⟨lines (report p s.zenith entries), files, none⟩
    | some output =>
      if Almanac.isStandardOutput output then ⟨Almanac.table s.zenith entries, files, none⟩
      else match Almanac.exportFiles files output request entries with
        | (files, some e) => ⟨"", files, some (exportFailure output e)⟩
        | (files, none) =>
          ⟨lines ["Wrote " ++ toString entries.length ++ " days to " ++ output.text ++ " (summary: "
            ++ (Almanac.summaryPath output).text ++ ")"], files, none⟩

/-- The outcome of the arguments with the files there are. Where no date is asked for the first one
is `today`. -/
def run (today : Date) (files : FileTree) (args : List String) : Outcome :=
  match program.read args with
  | .error stop => stop.outcome program.about files
  | .ok (_, change) => ((change initial).work today files).outcome

end GeoAlmanac.CommandLine.SunProgram
