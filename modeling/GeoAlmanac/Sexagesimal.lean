import GeoAlmanac.Binary64
import GeoAlmanac.Decimal.Fixed

/-! Angles in whole degrees, whole minutes and seconds. -/

namespace GeoAlmanac

/-- An angle in sexagesimal parts. The parts are magnitudes and the sign stands apart, so that an
angle between -1 and 0 degrees keeps it. -/
structure Sexagesimal (α : Type) where
  negative : Bool
  degrees : UInt32
  minutes : UInt32
  seconds : α

namespace Sexagesimal
section
variable {α : Type} [Arithmetic α]

def count (n : UInt32) : α :=
  Arithmetic.ofInt n.toNat

/-- The parts of an angle in decimal degrees, by truncation. A part that rounding brings up to
sixty is carried. -/
def ofDegrees (angle : α) : Sexagesimal α :=
  let magnitude := abs angle
  let wholeDegrees := trunc magnitude
  let inMinutes := (magnitude - wholeDegrees) * 60.0
  let wholeMinutes := trunc inMinutes
  let rest := (inMinutes - wholeMinutes) * 60.0
  let (seconds, wholeMinutes) :=
    if 60.0 ≤ rest then (rest - 60.0, wholeMinutes + 1.0) else (rest, wholeMinutes)
  let (wholeMinutes, wholeDegrees) :=
    if 60.0 ≤ wholeMinutes then (wholeMinutes - 60.0, wholeDegrees + 1.0)
    else (wholeMinutes, wholeDegrees)
  { negative := Arithmetic.isNegative angle && decide (0.0 < magnitude)
    degrees := Arithmetic.toUInt32 wholeDegrees
    minutes := Arithmetic.toUInt32 wholeMinutes
    seconds }

def toDegrees (a : Sexagesimal α) : α :=
  let magnitude := count a.degrees + count a.minutes / 60.0 + a.seconds / 3600.0
  if a.negative then -magnitude else magnitude

/-- Decimal degrees from three numbers. The sign of the degrees, also of a zero, is the sign of the
whole angle. -/
def combine (degrees minutes seconds : α) : α :=
  let magnitude := abs degrees + minutes / 60.0 + seconds / 3600.0
  if Arithmetic.isNegative degrees then -magnitude else magnitude

end

def text (a : Sexagesimal Float) : String :=
  (if a.negative then "-" else "") ++ toString a.degrees.toNat ++ "°"
    ++ Decimal.padded 2 a.minutes.toNat ++ "'" ++ Decimal.fixedPadded 5 2 a.seconds ++ "\""

end Sexagesimal
end GeoAlmanac
