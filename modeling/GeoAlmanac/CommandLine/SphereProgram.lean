import GeoAlmanac.CommandLine.Outcome
import GeoAlmanac.CommandLine.Values

/-! The program for distances, bearings, midpoints and horizons on a body. -/

namespace GeoAlmanac.CommandLine.SphereProgram

/-- What the options ask for. An option that has to be given replaces the value here. -/
structure Settings where
  body : Option String
  unit : LengthUnit
  bodies : Path
  start : Coordinate Float
  finish : Coordinate Float
  height : Float

def initial : Settings where
  body := none
  unit := .miles
  bodies := .ofText "configs/bodies"
  start := ⟨0.0, 0.0⟩
  finish := ⟨0.0, 0.0⟩
  height := 0.0

/-- The options of the program, which every command takes as well. -/
def common : List (OptionRule Settings) :=
  [⟨"body", false, fun v => .ok fun s => { s with body := some v }⟩,
    ⟨"unit", false, fun v => (unitValue v).map fun u s => { s with unit := u }⟩,
    ⟨"bodies", false, fun v => (pathValue v).map fun p s => { s with bodies := p }⟩]

/-- A command whose options all have to be given. -/
def command (options : List (OptionRule Settings)) : Command Settings where
  options := options ++ common
  required := options.map (·.name)
  companions := []
  conflicts := []
  hasVersion := false

def pairCommand : Command Settings :=
  command
    [⟨"from", true, fun v => (placeValue v).map fun c s => { s with start := c }⟩,
      ⟨"to", true, fun v => (placeValue v).map fun c s => { s with finish := c }⟩]

def program : Program Settings where
  name := "geodesy"
  about := "Spherical distance, bearing and horizon calculator"
  root := ⟨common, [], [], [], true⟩
  commands := [("distance", pairCommand), ("bearing", pairCommand), ("midpoint", pairCommand),
    ("horizon", command
      [⟨"height", false, fun v => (numberValue v).map fun x s => { s with height := x }⟩])]

/-- The globe of the body asked for; the Earth where none is, without a look at the catalog. -/
def Settings.globe (s : Settings) (files : FileTree) : Except Failure (Globe Float) :=
  match s.body with
  | none => .ok ⟨.earth s.unit⟩
  | some name =>
    match Catalog.load Catalog.bodyRecord.readers files s.bodies with
    | .error e => .error (.ofCatalog "body" s.bodies e)
    | .ok catalog =>
      match Catalog.select catalog (some name) s.unit with
      | .error e => .error (.plain e.message)
      | .ok r => .ok ⟨r⟩

def Settings.points (s : Settings) : List String :=
  [labelled "From" s.start.text, labelled "To" s.finish.text]

/-- A distance with three places in the unit asked for. -/
def Settings.distance (s : Settings) (x : Float) : String :=
  Decimal.fixed 3 x ++ " " ++ s.unit.symbol

def bearing (degrees : Float) : String :=
  Decimal.fixed 2 degrees ++ "°"

def Settings.report (s : Settings) (g : Globe Float) : String → List String × Option Failure
  | "distance" =>
    (s.points ++ [
      labelled "Body radius" (Decimal.fixed 1 g.radius.value ++ " " ++ s.unit.symbol),
      labelled "Haversine" (s.distance (g.haversineDistance s.start s.finish)),
      labelled "Equirectangular" (s.distance (g.equirectangularDistance s.start s.finish)),
      labelled "Rhumb line" (s.distance (g.loxodromeDistance s.start s.finish))], none)
  | "bearing" =>
    (s.points ++ [
      labelled "Initial bearing" (bearing (Sphere.departureAzimuth s.start s.finish)),
      labelled "Final bearing" (bearing (Sphere.arrivalAzimuth s.start s.finish)),
      labelled "Rhumb bearing" (bearing (Sphere.loxodromeAzimuth s.start s.finish))], none)
  | "midpoint" =>
    match Sphere.midpoint? s.start s.finish with
    | none => (s.points, some (.plain "midpoint is indeterminate for antipodal points"))
    | some m =>
      (s.points ++ [
        labelled "Midpoint" m.text,
        labelled "Midpoint (DMS)" ((Sexagesimal.ofDegrees m.latitude).text ++ ", "
          ++ (Sexagesimal.ofDegrees m.longitude).text)], none)
  | _ =>
    if s.height.isFinite && 0.0 ≤ s.height then
      ([labelled "Horizon" (s.distance (g.horizonDistance s.height) ++ " (observer at "
        ++ Decimal.shortest s.height ++ " " ++ s.unit.heightSymbol ++ ")")], none)
    else ([], some (.plain
      ("height must be a non-negative number, got " ++ Decimal.shortest s.height)))

/-- The work of a command. It writes no file. -/
def Settings.work (s : Settings) (files : FileTree) (name : String) : Work :=
  match s.globe files with
  | .error f => ⟨"", files, some f⟩
  | .ok g =>
    let (report, failure) := s.report g name
    ⟨lines report, files, failure⟩

def run (files : FileTree) (args : List String) : Outcome :=
  match program.read args with
  | .error stop => stop.outcome program.about files
  | .ok (name, change) => ((change initial).work files (name.getD "")).outcome

end GeoAlmanac.CommandLine.SphereProgram
