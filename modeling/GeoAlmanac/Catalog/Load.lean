import GeoAlmanac.Catalog.Records
import GeoAlmanac.Files.Tree
import GeoAlmanac.Toml.Document
import GeoAlmanac.Yaml.Document

/-! Catalogs read from files: a record from a TOML file, records from a directory of TOML files,
or a list of records from a YAML file. -/

namespace GeoAlmanac.Catalog

/-- What the fields of a record hold, by their names. A field that may be missing answers that
there is no number. -/
structure Fields where
  text? : String → Option String
  number? : String → Option Float
  optionalNumber? : String → Option (Option Float)

/-- A kind of record: the names of its fields, and the record that fields make up. -/
structure RecordKind (β : Type) where
  names : List String
  ofFields? : Fields → Option β

def bodyRecord : RecordKind Body where
  names := ["name", "radius_km", "radius_mi"]
  ofFields? f := do
    some ⟨← f.text? "name", ← f.number? "radius_km", ← f.optionalNumber? "radius_mi"⟩

def siteRecord : RecordKind Site where
  names := ["name", "latitude", "longitude", "elevation_m"]
  ofFields? f := do
    some ⟨← f.text? "name", ← f.number? "latitude", ← f.number? "longitude",
      ← f.optionalNumber? "elevation_m"⟩

def tomlNumber? : Toml.Node → Option Float
  | .number (.integer n) => some (Float.ofInt n)
  | .number (.float x) => some x
  | _ => none

def tomlFields (es : Toml.Entries) : Fields where
  text? name := do
    match ← es.lookup name with
    | .text s => some s
    | _ => none
  number? name := do tomlNumber? (← es.lookup name)
  optionalNumber? name := match es.lookup name with
    | none => some none
    | some v => (tomlNumber? v).map some

/-- The fields of a YAML mapping. Keys are scalars, and a field of the record is given once. -/
def yamlFields? (names : List String) (anchors : Yaml.Anchors)
    (pairs : List (Yaml.Node × Yaml.Node)) : Option Fields := do
  let entries ← pairs.mapM fun (k, v) => do some (← (← k.follow? anchors).text?, v)
  let known := entries.filter fun e => names.contains e.1
  let value? (name : String) : Option Yaml.Node := do (← known.lookup name).follow? anchors
  if (known.map Prod.fst).Nodup then
    some {
      text? := fun name => do (← value? name).text?
      number? := fun name => do (← value? name).number?
      optionalNumber? := fun name => match known.lookup name with
        | none => some none
        | some _ => do (← value? name).optionalNumber? }
  else none

def yamlRecord? {β : Type} (kind : RecordKind β) (anchors : Yaml.Anchors) (n : Yaml.Node) :
    Option β := do
  match ← n.follow? anchors with
  | .mapping pairs => kind.ofFields? (← yamlFields? kind.names anchors pairs)
  | _ => none

/-- The records of a YAML text: a list of mappings, or nothing at all. -/
def yamlRecords? {β : Type} (kind : RecordKind β) (text : String) : Option (List β) := do
  let d ← Yaml.document? text
  match d.root with
  | none => some []
  | some (.sequence items) => items.mapM (yamlRecord? kind d.anchors)
  | some (.scalar "" .plain _) => some []
  | some _ => none

/-- Readers of the formats of catalogs. A TOML text is one record and the bytes of a YAML file are
a list, unless the reader finds a defect. -/
structure Readers (β τ υ : Type) where
  toml : String → Except τ β
  yaml : ByteArray → Except υ (List β)

/-- The readers of a kind of record. The defect of a text is the text itself. -/
def RecordKind.readers {β : Type} (kind : RecordKind β) : Readers β String ByteArray where
  toml text :=
    match (Toml.document? text).bind fun es => kind.ofFields? (tomlFields es) with
    | some r => .ok r
    | none => .error text
  yaml content :=
    match (String.fromUTF8? content).bind (yamlRecords? kind) with
    | some rs => .ok rs
    | none => .error content

inductive LoadError (τ υ : Type) where
  | io (e : IoError)
  | toml (defect : τ)
  | yaml (defect : υ)
  deriving DecidableEq

section
variable {β τ υ : Type}

/-- The wording of an error, up to the words of a reader for the defect it has found. -/
def LoadError.message : LoadError τ υ → String
  | .io e => "failed to read catalog: " ++ e.message
  | .toml _ => "failed to parse TOML"
  | .yaml _ => "failed to parse YAML"

def loadToml (readers : Readers β τ υ) (files : FileTree) (p : Path) :
    Except (LoadError τ υ) β :=
  match files.readText p with
  | .error e => .error (.io e)
  | .ok text => (readers.toml text).mapError .toml

def loadYaml (readers : Readers β τ υ) (files : FileTree) (p : Path) :
    Except (LoadError τ υ) (List β) :=
  match files.read p with
  | .error e => .error (.io e)
  | .ok content => (readers.yaml content).mapError .yaml

def isToml (p : Path) : Bool :=
  p.extension? == some (bytesOf "toml")

/-- The TOML files of a directory in ascending order. -/
def tomlFiles (files : FileTree) (directory : Path) : Except IoError (List Path) :=
  (files.list directory).map fun paths => (paths.filter isToml).mergeSort Path.sortsBefore

/-- The records of a catalog. The first file that is in error tells why there are none. -/
def load (readers : Readers β τ υ) (files : FileTree) (p : Path) :
    Except (LoadError τ υ) (List β) :=
  if files.isDirectory p then
    match tomlFiles files p with
    | .error e => .error (.io e)
    | .ok paths => paths.mapM (loadToml readers files)
  else if isToml p then (loadToml readers files p).map ([·])
  else loadYaml readers files p

end

end GeoAlmanac.Catalog
