import GeoAlmanac.Coordinate
import GeoAlmanac.Globe
import GeoAlmanac.Text.UpperCase

/-! Catalogs of bodies and of observing sites, and the look-up by name. -/

namespace GeoAlmanac.Catalog

structure Body where
  name : String
  radiusKm : Float
  radiusMi : Option Float

structure Site where
  name : String
  latitude : Float
  longitude : Float
  elevation : Option Float

inductive BodyError where
  | notFound (name : String)
  | emptyCatalog
  | invalidRadius (name : String) (radius : Float)

def BodyError.message : BodyError → String
  | .notFound name => "body '" ++ name ++ "' not found in catalog"
  | .emptyCatalog => "body catalog is empty"
  | .invalidRadius name radius =>
    "body '" ++ name ++ "' has a non-positive radius (" ++ Decimal.shortest radius ++ ")"

inductive SiteError where
  | notFound (name : String)
  | invalidPosition (name : String) (cause : CoordinateError)

def SiteError.message : SiteError → String
  | .notFound name => "site '" ++ name ++ "' not found in catalog"
  | .invalidPosition name cause =>
    "site '" ++ name ++ "' has an invalid position: " ++ cause.message

/-- The radius in miles, converted from kilometres where the record gives none. -/
def Body.miles (b : Body) : Float :=
  b.radiusMi.getD (milesOfKilometres b.radiusKm)

/-- The radius of a body in a unit; it has to be positive and finite. -/
def Body.radius (b : Body) (unit : LengthUnit) : Except BodyError (Radius Float) :=
  let value := match unit with
    | .miles => b.miles
    | .kilometres => b.radiusKm
  if value.isFinite && 0.0 < value then .ok ⟨value, unit⟩
  else .error (.invalidRadius b.name value)

/-- The radius of the first body of a name, in either case, or of the first body where no name is
requested. -/
def select (catalog : List Body) (requested : Option String) (unit : LengthUnit) :
    Except BodyError (Radius Float) :=
  match catalog, requested with
  | [], _ => .error .emptyCatalog
  | first :: _, none => first.radius unit
  | catalog, some name =>
    match catalog.find? fun b => Text.sameName b.name name with
    | some b => b.radius unit
    | none => .error (.notFound name)

def Site.coordinate (s : Site) : Except SiteError (Coordinate Float) :=
  match Coordinate.validate? s.latitude s.longitude with
  | .ok c => .ok c
  | .error cause => .error (.invalidPosition s.name cause)

/-- The first site of a name, in either case, with its place. -/
def find (catalog : List Site) (name : String) : Except SiteError (Site × Coordinate Float) :=
  match catalog.find? fun s => Text.sameName s.name name with
  | none => .error (.notFound name)
  | some s => match s.coordinate with
    | .ok c => .ok (s, c)
    | .error e => .error e

end GeoAlmanac.Catalog
