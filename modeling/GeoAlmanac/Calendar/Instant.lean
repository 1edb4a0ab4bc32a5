import GeoAlmanac.Calendar.Date

/-! Times of the calendar: instants of Coordinated Universal Time in whole seconds, times to the
nanosecond, and the date that is kept of each. -/

namespace GeoAlmanac

/-- A second of a day of the calendar. -/
structure Instant where
  date : Date
  secondOfDay : Nat
  lt_day : secondOfDay < 86400
  deriving DecidableEq

namespace Instant

/-- The seconds since 1970-01-01T00:00:00Z, negative before it. -/
def seconds (t : Instant) : Int :=
  t.date.daysSinceEpoch * 86400 + t.secondOfDay

instance : LT Instant := ⟨fun s t => s.seconds < t.seconds⟩

instance (s t : Instant) : Decidable (s < t) := inferInstanceAs (Decidable (s.seconds < t.seconds))

/-- The instant a number of seconds after 1970-01-01T00:00:00Z, if the calendar reaches it. -/
def ofSeconds? (seconds : Int) : Option Instant :=
  (Date.ofDaysSinceEpoch? (seconds / 86400)).map fun date =>
    ⟨date, (seconds % 86400).toNat, by omega⟩

/-- The text `2023-06-21T09:24:00Z`. -/
def text (t : Instant) : String :=
  t.date.text ++ "T" ++ Decimal.padded 2 (t.secondOfDay / 3600) ++ ":"
    ++ Decimal.padded 2 (t.secondOfDay / 60 % 60) ++ ":" ++ Decimal.padded 2 (t.secondOfDay % 60)
    ++ "Z"

end Instant

/-- A date with a time of day. In a leap second the nanoseconds go on beyond a whole second. -/
structure LocalTime where
  date : Date
  secondOfDay : Nat
  nanosecond : Nat
  lt_day : secondOfDay < 86400
  lt_leap : nanosecond < 2000000000
  deriving DecidableEq

def LocalTime.seconds (t : LocalTime) : Int :=
  t.date.daysSinceEpoch * 86400 + t.secondOfDay

/-- A time with an offset from Coordinated Universal Time, which here is none. -/
structure UniversalTime where
  clock : LocalTime
  deriving DecidableEq

def Instant.clock (t : Instant) : LocalTime :=
  ⟨t.date, t.secondOfDay, 0, t.lt_day, by decide⟩

def Instant.universal (t : Instant) : UniversalTime :=
  ⟨t.clock⟩

namespace Date

def ofCalendar (d : Date) : Date := d

/-- The date alone; the time of day is left out. -/
def ofLocalTime (t : LocalTime) : Date :=
  ofCalendar t.date

def ofUniversalTime (t : UniversalTime) : Date :=
  ofCalendar t.clock.date

end Date

/-- The instant at a full minute of a date, if the day has that hour and minute. -/
def Date.at? (d : Date) (hour minute : Nat) : Option Instant :=
  if h : hour < 24 ∧ minute < 60 then some ⟨d, hour * 3600 + minute * 60, by omega⟩ else none

end GeoAlmanac
