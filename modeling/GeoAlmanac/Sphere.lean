import GeoAlmanac.Angle
import GeoAlmanac.Coordinate
import GeoAlmanac.Vector

/-! Great circles and loxodromes on the unit sphere. Points and azimuths are in degrees; a central
angle is in radians, so that a radius times it is a distance. -/

namespace GeoAlmanac.Sphere
variable {α : Type} [Geometric α] [Elementary α]

/-- The central angle of two points by the haversine formula. The haversine is held within
`[0, 1]`, which rounding can leave near opposite points. -/
def centralAngle (a b : Coordinate α) : α :=
  let φ₁ := toRadians a.latitude
  let φ₂ := toRadians b.latitude
  let halfNorth := sin ((φ₂ - φ₁) * 0.5)
  let halfEast := sin (toRadians (b.longitude - a.longitude) * 0.5)
  let haversine := clamp 0.0 1.0
    (halfNorth * halfNorth + cos φ₁ * cos φ₂ * halfEast * halfEast)
  2.0 * atan2 (sqrt haversine) (sqrt (1.0 - haversine))

/-- An azimuth in `[0, 360)` from an angle in `[-180, 180]` or one such angle and half a turn. -/
def azimuth (degrees : α) : α :=
  Angle.wrap (degrees + 360.0)

/-- The azimuth at `a` of the great circle to `b`; zero between equal points. -/
def departureAzimuth (a b : Coordinate α) : α :=
  if a.same b then 0.0
  else
    let φ₁ := toRadians a.latitude
    let φ₂ := toRadians b.latitude
    let east := toRadians (b.longitude - a.longitude)
    let y := sin east * cos φ₂
    let x := cos φ₁ * sin φ₂ - sin φ₁ * cos φ₂ * cos east
    azimuth (toDegrees (atan2 y x))

/-- The azimuth at `b` of the great circle that comes from `a`; zero between equal points. -/
def arrivalAzimuth (a b : Coordinate α) : α :=
  if a.same b then 0.0 else azimuth (departureAzimuth b a + 180.0)

/-- The difference of the stretched latitudes of the Mercator chart. It is zero on a parallel, the
poles included, where the chart has none. -/
def stretchedNorth (a b : Coordinate α) : α :=
  if a.latitude == b.latitude then 0.0
  else
    let stretch (latitude : α) : α := tan (pi / 4.0 + toRadians latitude * 0.5)
    log (stretch b.latitude / stretch a.latitude)

/-- The difference of longitudes in radians, by the shorter way round for longitudes in
`[-180, 180]`. -/
def shorterEast (a b : Coordinate α) : α :=
  let east := toRadians (b.longitude - a.longitude)
  if pi < east then east - 2.0 * pi
  else if east < -pi then east + 2.0 * pi
  else east

/-- The constant azimuth of the loxodrome from `a` to `b`; zero between equal points. -/
def loxodromeAzimuth (a b : Coordinate α) : α :=
  if a.same b then 0.0
  else azimuth (toDegrees (atan2 (shorterEast a b) (stretchedNorth a b)))

/-- How much shorter a step east is than on the equator, along the loxodrome from `a` to `b`. On a
parallel it is the parallel's own scale. -/
def loxodromeScale (a b : Coordinate α) : α :=
  let north := toRadians (b.latitude - a.latitude)
  let stretched := stretchedNorth a b
  if 1e-12 < abs stretched then north / stretched else cos (toRadians a.latitude)

def loxodromeAngle (a b : Coordinate α) : α :=
  let north := toRadians (b.latitude - a.latitude)
  let scale := loxodromeScale a b
  let east := shorterEast a b
  sqrt (north * north + scale * scale * east * east)

/-- The sum of the unit vectors of two points, turned about the axis so that `a` has longitude
zero. -/
def chordSum (a b : Coordinate α) : Vector3 α :=
  let φ₁ := toRadians a.latitude
  let φ₂ := toRadians b.latitude
  let east := toRadians (b.longitude - a.longitude)
  ⟨cos φ₁ + cos φ₂ * cos east, cos φ₂ * sin east, sin φ₁ + sin φ₂⟩

/-- The middle of the great circle between two points. Opposite points, whose unit vectors cancel,
have none. -/
def midpoint? (a b : Coordinate α) : Option (Coordinate α) :=
  let sum := chordSum a b
  if sum.norm < 1e-12 then none
  else
    let latitude := atan2 sum.z (hypot sum.x sum.y)
    let longitude := toRadians a.longitude + atan2 sum.y sum.x
    some ⟨toDegrees latitude, Angle.wrapSigned (toDegrees longitude)⟩

/-- The point reached from `start` along a great circle of the given azimuth after sweeping
`angle` radians. -/
def destination (start : Coordinate α) (azimuth angle : α) : Coordinate α :=
  let φ := toRadians start.latitude
  let θ := toRadians azimuth
  let sinLatitude := sin φ * cos angle + cos φ * sin angle * cos θ
  let latitude := asin (clamp (-1.0) 1.0 sinLatitude)
  let y := sin θ * sin angle * cos φ
  let x := cos angle - sin φ * sinLatitude
  let longitude := toRadians start.longitude + atan2 y x
  ⟨toDegrees latitude, Angle.wrapSigned (toDegrees longitude)⟩

end GeoAlmanac.Sphere
