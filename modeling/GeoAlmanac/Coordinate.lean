import GeoAlmanac.Decimal.Shortest
import GeoAlmanac.Sexagesimal

/-! Points on the sphere by latitude and longitude. -/

namespace GeoAlmanac

/-- A latitude and a longitude in degrees. Nothing is required of the two numbers; `validate?`
tells which pairs name a place. -/
structure Coordinate (α : Type) where
  latitude : α
  longitude : α

inductive CoordinateError where
  | latitude (value : Float)
  | longitude (value : Float)

def CoordinateError.message : CoordinateError → String
  | .latitude v => "latitude " ++ Decimal.shortest v ++ " is outside [-90, 90]"
  | .longitude v => "longitude " ++ Decimal.shortest v ++ " is outside [-180, 180]"

namespace Coordinate

/-- The pair, if the latitude lies in `[-90, 90]` and the longitude in `[-180, 180]`. The latitude
is examined first. -/
def validate? (latitude longitude : Float) : Except CoordinateError (Coordinate Float) :=
  if !isWithin (-90.0) 90.0 latitude then .error (.latitude latitude)
  else if !isWithin (-180.0) 180.0 longitude then .error (.longitude longitude)
  else .ok ⟨latitude, longitude⟩

def same {α : Type} [Arithmetic α] (a b : Coordinate α) : Bool :=
  a.latitude == b.latitude && a.longitude == b.longitude

/-- The point reflected in the equator and in the prime meridian: both components are negated. -/
def reflected {α : Type} [Arithmetic α] (a : Coordinate α) : Coordinate α :=
  ⟨-a.latitude, -a.longitude⟩

/-- The text `(40.712800, -74.006000)`. -/
def text (a : Coordinate Float) : String :=
  "(" ++ Decimal.fixed 6 a.latitude ++ ", " ++ Decimal.fixed 6 a.longitude ++ ")"

end Coordinate
end GeoAlmanac
