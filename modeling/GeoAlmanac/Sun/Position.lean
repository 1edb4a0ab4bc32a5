import GeoAlmanac.Angle

/-! The place of the sun among the stars by the almanac rule: a mean motion, two terms of the
equation of the centre, and the obliquity of the ecliptic. Times are days of the year. -/

namespace GeoAlmanac.Sun
variable {α : Type} [Geometric α] [Elementary α]

def meanAnomaly (t : α) : α :=
  0.9856 * t - 3.289

/-- The true longitude in degrees, in `[0, 360)`. -/
def trueLongitude (t : α) : α :=
  let anomaly := meanAnomaly t
  let m := toRadians anomaly
  Angle.wrap (anomaly + 1.916 * sin m + 0.020 * sin (2.0 * m) + 282.634)

/-- The lower end of the quarter turn of 90 degrees in which an angle lies. -/
def quadrant (degrees : α) : α :=
  floor (degrees / 90.0) * 90.0

/-- The right ascension in hours of a true longitude; the branch of the tangent is the one in the
quadrant of the longitude. -/
def rightAscension (longitude : α) : α :=
  let principal := Angle.wrap (toDegrees (atan (0.91764 * tan (toRadians longitude))))
  (principal + quadrant longitude - quadrant principal) / 15.0

def sinDeclination (longitude : α) : α :=
  0.39782 * sin (toRadians longitude)

/-- The cosine of the hour angle at which the sun stands at a zenith distance; outside `[-1, 1]`
it never does. -/
def cosHourAngle (zenith latitude sinDeclination : α) : α :=
  let cosDeclination := cos (asin sinDeclination)
  let φ := toRadians latitude
  (cos (toRadians zenith) - sinDeclination * sin φ) / (cosDeclination * cos φ)

end GeoAlmanac.Sun
