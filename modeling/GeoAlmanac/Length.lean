import GeoAlmanac.Arithmetic

/-! Units of length. A radius is given in one unit, and every distance on its sphere is in it. -/

namespace GeoAlmanac

inductive LengthUnit where
  | miles
  | kilometres
  deriving DecidableEq

namespace LengthUnit

def symbol : LengthUnit → String
  | .miles => "mi"
  | .kilometres => "km"

/-- How the unit of heights is written: feet go with miles and metres with kilometres. -/
def heightSymbol : LengthUnit → String
  | .miles => "ft"
  | .kilometres => "m"

/-- How many units of height make one unit of length. -/
def heightsPerLength {α : Type} [OfScientific α] : LengthUnit → α
  | .miles => 5280.0
  | .kilometres => 1000.0

end LengthUnit

/-- Kilometres in miles; a mile has 1.609344 kilometres. -/
def milesOfKilometres {α : Type} [Arithmetic α] (km : α) : α :=
  km / 1.609344

end GeoAlmanac
