import GeoAlmanac.Sphere
import GeoAlmanac.Sun.Search

/-! What the computations report of their course. A report is a value that stands beside the
result; its wording is decided here alone. -/

namespace GeoAlmanac

inductive Level where
  | trace
  | debug
  | warn
  deriving DecidableEq

inductive Event (α : Type) where
  /-- Two points are opposite, so no midpoint is determined. -/
  | noMidpoint (a b : Coordinate α)
  | polarNight (search : Search α) (cosHourAngle : α)
  | polarDay (search : Search α) (cosHourAngle : α)
  | computed (search : Search α) (day hour : α)
  /-- The universal time lies outside the day after one turn. -/
  | unwrapped (search : Search α) (hour : α)
  /-- The universal time falls in no minute of the date. -/
  | unplaced (search : Search α) (hour : α)
  /-- An almanac has this many days. -/
  | built (site : String) (place : Coordinate α) (days : Nat) (start : Date)

/-- A result with the reports made on the way to it, first to last. -/
structure Logged (α β : Type) where
  value : β
  events : List (Event α)

/-- The reports of a search that ended in a given crossing. -/
def Crossing.events {α : Type} [Arithmetic α] (s : Search α) : Crossing α → List (Event α)
  | .polarNight c => [.polarNight s c]
  | .polarDay c => [.polarDay s c]
  | .crosses day hour =>
    .computed s day hour ::
      if isHourOfDay hour then
        match s.date.atHour? hour with
        | some _ => []
        | none => [.unplaced s hour]
      else [.unwrapped s hour]

/-- The search carried out: the instant on the date, or why there is none. -/
def Search.run {α : Type} [Geometric α] [Elementary α] (s : Search α) :
    Logged α (Except Absence Instant) :=
  let c := s.crossing
  ⟨c.instant s.date, c.events s⟩

/-- The midpoint of two points, reporting where none is determined. -/
def Sphere.reportMidpoint {α : Type} [Geometric α] [Elementary α] (a b : Coordinate α) :
    Logged α (Option (Coordinate α)) :=
  let m := Sphere.midpoint? a b
  ⟨m, if m.isSome then [] else [.noMidpoint a b]⟩

namespace Event

def level {α : Type} : Event α → Level
  | .noMidpoint .. | .polarNight .. | .polarDay .. | .built .. => .debug
  | .computed .. => .trace
  | .unwrapped .. | .unplaced .. => .warn

/-- What a search looks for, as reports name it. -/
def subject (s : Search Float) : String :=
  (match s.phase with
    | .sunrise => "Sunrise"
    | .sunset => "Sunset")
  ++ " at " ++ s.place.text ++ " on " ++ s.date.text

def message : Event Float → String
  | .noMidpoint a b => "midpoint of antipodal points " ++ a.text ++ " and " ++ b.text
    ++ " is indeterminate"
  | .polarNight s c => subject s ++ ": polar night for " ++ s.zenith.name ++ " (cos H = "
    ++ Decimal.fixed 5 c ++ ")"
  | .polarDay s c => subject s ++ ": polar day for " ++ s.zenith.name ++ " (cos H = "
    ++ Decimal.fixed 5 c ++ ")"
  | .computed s day hour => subject s ++ ": t = " ++ Decimal.fixed 4 day ++ ", UT = "
    ++ Decimal.fixed 4 hour ++ " h"
  | .unwrapped s hour => subject s ++ " needs more than one wraparound (UT "
    ++ Decimal.fixed 4 hour ++ " h)"
  | .unplaced s hour => subject s ++ " has unplaceable UT " ++ Decimal.fixed 4 hour ++ " h"
  | .built site place days start => "almanac for " ++ site ++ " at " ++ place.text ++ ": "
    ++ toString days ++ " days from " ++ start.text

def line (e : Event Float) : String :=
  (match e.level with
    | .trace => "TRACE"
    | .debug => "DEBUG"
    | .warn => "WARN")
  ++ " " ++ e.message

end Event
end GeoAlmanac
