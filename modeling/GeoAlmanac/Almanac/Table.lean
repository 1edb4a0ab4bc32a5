import GeoAlmanac.Almanac.Build

/-! The almanac as a table of comma-separated fields, one line for each entry. -/

namespace GeoAlmanac.Almanac

def columns : String :=
  "date,zenith,sunrise_utc,sunset_utc,day_length_hours,condition"

/-- A row of the table; an event that does not take place is an empty field. -/
structure Row where
  date : String
  zenith : String
  sunrise : Option String
  sunset : Option String
  hours : Float
  condition : String

/-- The row as a line; the length of the day has four places. -/
def Row.line (r : Row) : String :=
  r.date ++ "," ++ r.zenith ++ "," ++ r.sunrise.getD "" ++ "," ++ r.sunset.getD "" ++ ","
    ++ Decimal.fixed 4 r.hours ++ "," ++ r.condition

def Entry.row (zenith : Zenith) (e : Entry) : Row where
  date := e.date.text
  zenith := zenith.name
  sunrise := e.day.sunrise?.map Instant.text
  sunset := e.day.sunset?.map Instant.text
  hours := e.hours
  condition := e.day.label

/-- The lines of the table, headed by the names of the columns. -/
def lines (zenith : Zenith) (entries : List Entry) : List String :=
  columns :: entries.map fun e => (e.row zenith).line

/-- The table as a text; every line ends with a line feed. -/
def table (zenith : Zenith) (entries : List Entry) : String :=
  String.join ((lines zenith entries).map (· ++ "\n"))

end GeoAlmanac.Almanac
