import GeoAlmanac.Log

/-! Sunrise and sunset of one date. -/

namespace GeoAlmanac

/-- The sun's day at a place: it rises and sets, stays up, stays down, or has a crossing that
falls in no minute of its date. -/
inductive SolarDay where
  | regular (sunrise sunset : Instant)
  | polarDay
  | polarNight
  | unresolved
  deriving DecidableEq

def Absence.solarDay : Absence → SolarDay
  | .polarDay => .polarDay
  | .polarNight => .polarNight
  | .outsideDay => .unresolved

namespace SolarDay

def sunrise? : SolarDay → Option Instant
  | .regular sunrise _ => some sunrise
  | _ => none

def sunset? : SolarDay → Option Instant
  | .regular _ sunset => some sunset
  | _ => none

/-- The seconds from sunrise to sunset; zero where either is missing. -/
def duration : SolarDay → Int
  | .regular sunrise sunset => sunset.seconds - sunrise.seconds
  | _ => 0

def label : SolarDay → String
  | .regular .. => "regular"
  | .polarDay => "polar_day"
  | .polarNight => "polar_night"
  | .unresolved => "unresolved"

variable {α : Type} [Geometric α] [Elementary α]

/-- The sunrise of a date paired with its sunset. Far from Greenwich the sunset of the date can
come before the sunrise in universal time; the sunset of the next date is paired then. -/
def solve (place : Coordinate α) (date : Date) (zenith : Zenith) : Logged α SolarDay :=
  let rising := (Search.mk place date zenith .sunrise).run
  match rising.value with
  | .error reason => ⟨reason.solarDay, rising.events⟩
  | .ok sunrise =>
    let setting := (Search.mk place date zenith .sunset).run
    let events := rising.events ++ setting.events
    match setting.value with
    | .error reason => ⟨reason.solarDay, events⟩
    | .ok sunset =>
      if sunset < sunrise then
        match date.next? with
        | none => ⟨.unresolved, events⟩
        | some next =>
          let following := (Search.mk place next zenith .sunset).run
          let events := events ++ following.events
          match following.value with
          | .error reason => ⟨reason.solarDay, events⟩
          | .ok sunset => ⟨.regular sunrise sunset, events⟩
      else ⟨.regular sunrise sunset, events⟩

end SolarDay
end GeoAlmanac
