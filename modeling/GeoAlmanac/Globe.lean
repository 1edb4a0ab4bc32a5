import GeoAlmanac.Length
import GeoAlmanac.Sphere

/-! Distances on a globe of a given radius, and runs of questions between which the radius
changes. -/

namespace GeoAlmanac

/-- The mean radius of a body with its unit; distances on the body are in that unit. -/
structure Radius (α : Type) where
  value : α
  unit : LengthUnit

namespace Radius
variable {α : Type} [OfScientific α]

def earth : LengthUnit → Radius α
  | .miles => ⟨3958.8, .miles⟩
  | .kilometres => ⟨6371.0, .kilometres⟩

def moon : LengthUnit → Radius α
  | .miles => ⟨1079.6, .miles⟩
  | .kilometres => ⟨1737.4, .kilometres⟩

def mars : LengthUnit → Radius α
  | .miles => ⟨2106.1, .miles⟩
  | .kilometres => ⟨3389.5, .kilometres⟩

end Radius

/-- A sphere of a given radius; the Earth in miles where none is named. -/
structure Globe (α : Type) where
  radius : Radius α

namespace Globe

def default {α : Type} [OfScientific α] : Globe α :=
  ⟨.earth .miles⟩

section
variable {α : Type} [Geometric α] [Elementary α]

def haversineDistance (g : Globe α) (a b : Coordinate α) : α :=
  Sphere.centralAngle a b * g.radius.value

/-- The hypotenuse over the differences of latitude and longitude as if the chart were flat: exact
along a meridian, and too long elsewhere since a parallel is not shortened. -/
def equirectangularDistance (g : Globe α) (a b : Coordinate α) : α :=
  toRadians (hypot (b.latitude - a.latitude) (b.longitude - a.longitude)) * g.radius.value

def loxodromeDistance (g : Globe α) (a b : Coordinate α) : α :=
  Sphere.loxodromeAngle a b * g.radius.value

/-- The point at a distance from `start` along a great circle of the given azimuth. -/
def destination (g : Globe α) (start : Coordinate α) (azimuth distance : α) : Coordinate α :=
  Sphere.destination start azimuth (distance / g.radius.value)

/-- The straight distance to the horizon from a height above the surface. Heights are in feet over
miles and in metres over kilometres. -/
def horizonDistance (g : Globe α) (height : α) : α :=
  let h := height / g.radius.unit.heightsPerLength
  sqrt (2.0 * g.radius.value * h + h * h)

end

inductive Query (α : Type) where
  | radius
  | haversine (a b : Coordinate α)
  | equirectangular (a b : Coordinate α)
  | loxodrome (a b : Coordinate α)
  | destination (start : Coordinate α) (azimuth distance : α)
  | horizon (height : α)

/-- A step of a run: the radius is replaced, or a question is asked. -/
inductive Step (α : Type) where
  | setRadius (radius : Radius α)
  | ask (query : Query α)

inductive Reading (α : Type) where
  | radius (radius : Radius α)
  | distance (value : α)
  | horizon (distance : α)
  | point (place : Coordinate α)

variable {α : Type} [Geometric α] [Elementary α]

def answer (g : Globe α) : Query α → Reading α
  | .radius => .radius g.radius
  | .haversine a b => .distance (g.haversineDistance a b)
  | .equirectangular a b => .distance (g.equirectangularDistance a b)
  | .loxodrome a b => .distance (g.loxodromeDistance a b)
  | .destination start azimuth distance => .point (g.destination start azimuth distance)
  | .horizon height => .horizon (g.horizonDistance height)

/-- One step: the globe afterwards and the answer. Replacing the radius answers the new one. -/
def step (g : Globe α) : Step α → Globe α × Reading α
  | .setRadius r => (⟨r⟩, .radius r)
  | .ask q => (g, g.answer q)

/-- The answers of a run of steps, in order. -/
def run (g : Globe α) : List (Step α) → List (Reading α)
  | [] => []
  | s :: rest => (g.step s).2 :: run (g.step s).1 rest

end Globe
end GeoAlmanac
