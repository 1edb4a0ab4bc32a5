import GeoAlmanac.Calendar.Instant
import GeoAlmanac.Coordinate
import GeoAlmanac.Sun.Position
import GeoAlmanac.Sun.Zenith

/-! The search for the moment at which the sun crosses a zenith distance on a date. -/

namespace GeoAlmanac

inductive Phase where
  | sunrise
  | sunset
  deriving DecidableEq

/-- The local hour from which the search starts. -/
def Phase.localHour {α : Type} [OfScientific α] : Phase → α
  | .sunrise => 6.0
  | .sunset => 18.0

/-- What is looked for: one crossing at a place on a date. -/
structure Search (α : Type) where
  place : Coordinate α
  date : Date
  zenith : Zenith
  phase : Phase

/-- What a search finds: the sun stays below the zenith distance or above it all day, or it crosses
at the universal time `hour`, computed for the day of the year `day`. -/
inductive Crossing (α : Type) where
  | polarNight (cosHourAngle : α)
  | polarDay (cosHourAngle : α)
  | crosses (day hour : α)

inductive Absence where
  | polarDay
  | polarNight
  | outsideDay
  deriving DecidableEq

namespace Search
variable {α : Type} [Geometric α] [Elementary α] (s : Search α)

def longitudeHour : α :=
  s.place.longitude / 15.0

/-- The day of the year, with the fraction at which the crossing is expected. -/
def day : α :=
  Arithmetic.ofInt s.date.dayNumber + (s.phase.localHour - s.longitudeHour) / 24.0

def trueLongitude : α :=
  Sun.trueLongitude s.day

def cosHourAngle : α :=
  Sun.cosHourAngle s.zenith.degrees s.place.latitude (Sun.sinDeclination s.trueLongitude)

/-- The hour angle of the crossing in degrees: the sun rises before it culminates, so its hour
angle is measured from the culmination of the day before. -/
def hourAngle : α :=
  match s.phase with
  | .sunrise => 360.0 - toDegrees (acos s.cosHourAngle)
  | .sunset => toDegrees (acos s.cosHourAngle)

/-- The universal time of the crossing before it is reduced to a day. -/
def rawHour : α :=
  s.hourAngle / 15.0 + Sun.rightAscension s.trueLongitude - 0.06571 * s.day - 6.622
    - s.longitudeHour

/-- An hour outside the day, moved by one day toward it. One day only is added or taken. -/
def wrapOnce (hour : α) : α :=
  if hour < 0.0 then hour + 24.0 else if 24.0 ≤ hour then hour - 24.0 else hour

def crossing : Crossing α :=
  let c := s.cosHourAngle
  if 1.0 < c then .polarNight c
  else if c < -1.0 then .polarDay c
  else .crosses s.day (wrapOnce s.rawHour)

end Search

def isHourOfDay {α : Type} [Arithmetic α] (hour : α) : Bool :=
  decide (0.0 ≤ hour) && decide (hour < 24.0)

/-- The full minute of a date in which an hour falls. -/
def Date.atHour? {α : Type} [Arithmetic α] (date : Date) (hour : α) : Option Instant :=
  let whole := floor hour
  let minute := floor ((hour - whole) * 60.0)
  date.at? (Arithmetic.toUInt32 whole).toNat (Arithmetic.toUInt32 minute).toNat

/-- The instant of a crossing on its date, or why there is none. -/
def Crossing.instant {α : Type} [Arithmetic α] (date : Date) : Crossing α → Except Absence Instant
  | .polarNight _ => .error .polarNight
  | .polarDay _ => .error .polarDay
  | .crosses _ hour =>
    if isHourOfDay hour then
      match date.atHour? hour with
      | some t => .ok t
      | none => .error .outsideDay
    else .error .outsideDay

end GeoAlmanac
