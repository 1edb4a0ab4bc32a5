import GeoAlmanac.Arithmetic

/-! Representatives of an angle modulo a full turn of 360 degrees. -/

namespace GeoAlmanac.Angle
variable {α : Type} [Arithmetic α]

/-- The representative in `[0, 360)`. A tiny negative remainder can round to a full turn when the
turn is added; it counts as zero. -/
def wrap (degrees : α) : α :=
  let rest := Arithmetic.remainder degrees 360.0
  let shifted := if rest < 0.0 then rest + 360.0 else rest
  if 360.0 ≤ shifted then 0.0 else shifted

/-- The representative in `(-180, 180]`, as longitudes are written. -/
def wrapSigned (degrees : α) : α :=
  let east := wrap (degrees + 180.0) - 180.0
  if east ≤ -180.0 then 180.0 else east

end GeoAlmanac.Angle
