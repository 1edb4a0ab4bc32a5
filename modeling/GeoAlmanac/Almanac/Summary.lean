import GeoAlmanac.Almanac.Build
import GeoAlmanac.Json

/-! What an almanac amounts to: counts of its days by kind and the hours of daylight. -/

namespace GeoAlmanac.Almanac

structure Summary (α : Type) where
  site : String
  latitude : α
  longitude : α
  zenith : String
  firstDate : String
  days : Nat
  regularDays : Nat
  polarDays : Nat
  polarNights : Nat
  unresolvedDays : Nat
  totalHours : α
  longestHours : α
  shortestHours : α

def Entry.isRegular (e : Entry) : Bool :=
  match e.day with
  | .regular .. => true
  | _ => false

/-- The least number of a list; zero where there is none. -/
def least {α : Type} [Arithmetic α] : List α → α
  | [] => 0.0
  | x :: rest => rest.foldl smaller x

/-- The summary of some entries. Only regular days enter into the hours; the empty sum is the
neutral negative zero. -/
def Request.summarize {α : Type} [Arithmetic α] (r : Request α) (entries : List Entry) :
    Summary α :=
  let hours : List α := (entries.filter Entry.isRegular).map Entry.hours
  { site := r.siteName
    latitude := r.site.latitude
    longitude := r.site.longitude
    zenith := r.zenith.name
    firstDate := r.start.text
    days := entries.length
    regularDays := hours.length
    polarDays := entries.countP fun e => e.day = .polarDay
    polarNights := entries.countP fun e => e.day = .polarNight
    unresolvedDays := entries.countP fun e => e.day = .unresolved
    totalHours := hours.foldl (· + ·) (-0.0)
    longestHours := hours.foldl larger 0.0
    shortestHours := least hours }

def Summary.text (s : Summary Float) : String :=
  Json.object [("site", .text s.site), ("latitude", .number s.latitude),
    ("longitude", .number s.longitude), ("zenith", .text s.zenith),
    ("first_date", .text s.firstDate), ("days", .count s.days),
    ("regular_days", .count s.regularDays), ("polar_days", .count s.polarDays),
    ("polar_nights", .count s.polarNights), ("unresolved_days", .count s.unresolvedDays),
    ("total_daylight_hours", .number s.totalHours),
    ("longest_day_hours", .number s.longestHours),
    ("shortest_day_hours", .number s.shortestHours)]

end GeoAlmanac.Almanac
