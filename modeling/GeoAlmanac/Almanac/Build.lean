import GeoAlmanac.Sun.Day

/-! The almanac of a site: the sun's day on consecutive dates. -/

namespace GeoAlmanac.Almanac

/-- What is tabulated: a site, a number of dates from a first one on, and a zenith distance. -/
structure Request (α : Type) where
  siteName : String
  site : Coordinate α
  start : Date
  days : Nat
  zenith : Zenith

structure Entry where
  date : Date
  day : SolarDay
  deriving DecidableEq

def Entry.hours {α : Type} [Arithmetic α] (e : Entry) : α :=
  Arithmetic.ofInt e.day.duration / 3600.0

/-- At most `n` consecutive dates; they end with the calendar. -/
def dates : Nat → Option Date → List Date
  | 0, _ | _, none => []
  | n + 1, some d => d :: dates n d.next?

variable {α : Type} [Geometric α] [Elementary α]

def Request.entry (r : Request α) (date : Date) : Logged α Entry :=
  let solved := SolarDay.solve r.site date r.zenith
  ⟨⟨date, solved.value⟩, solved.events⟩

def Request.build (r : Request α) : Logged α (List Entry) :=
  let solved := (dates r.days (some r.start)).map r.entry
  ⟨solved.map (·.value),
    solved.flatMap (·.events) ++ [.built r.siteName r.site solved.length r.start]⟩

end GeoAlmanac.Almanac
