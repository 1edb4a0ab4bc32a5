import GeoAlmanac.Decimal.Rounding

/-! The proleptic Gregorian calendar from the year -262143 to the year 262142. -/

namespace GeoAlmanac

def isLeapYear (year : Int) : Bool :=
  year % 4 = 0 && (year % 100 ≠ 0 || year % 400 = 0)

/-- The number of days of a month; zero for a month that is none. -/
def monthLength (year : Int) (month : Nat) : Nat :=
  match month with
  | 1 | 3 | 5 | 7 | 8 | 10 | 12 => 31
  | 4 | 6 | 9 | 11 => 30
  | 2 => if isLeapYear year then 29 else 28
  | _ => 0

/-- The first and the last year of the calendar. -/
def firstYear : Int := -262143
def lastYear : Int := 262142

/-- Whether a day of the calendar has these numbers. -/
def Date.Valid (year : Int) (month day : Nat) : Prop :=
  firstYear ≤ year ∧ year ≤ lastYear ∧ 1 ≤ day ∧ day ≤ monthLength year month

instance (year : Int) (month day : Nat) : Decidable (Date.Valid year month day) :=
  inferInstanceAs (Decidable (_ ∧ _))

structure Date where
  year : Int
  month : Nat
  day : Nat
  valid : Date.Valid year month day
  deriving DecidableEq

namespace Date

/-- The date with these numbers, if there is one. -/
def ofParts? (year : Int) (month day : Nat) : Option Date :=
  if h : Valid year month day then some ⟨year, month, day, h⟩ else none

/-- The following day; the last day of the calendar has none. -/
def next? (d : Date) : Option Date :=
  if d.day < monthLength d.year d.month then ofParts? d.year d.month (d.day + 1)
  else if d.month < 12 then ofParts? d.year (d.month + 1) 1
  else ofParts? (d.year + 1) 1 1

/-- The day number within the year of the almanac rule, whose leap years are those divisible by
four. -/
def dayNumber (d : Date) : Int :=
  let month : Int := d.month
  let common := 275 * month / 9
  let afterFebruary := (month + 9) / 12
  let reduction := 1 + (d.year % 4 + 2) / 3
  common - afterFebruary * reduction + d.day - 30

def daysBeforeMonth (year : Int) : Nat → Nat
  | 0 => 0
  | month + 1 => daysBeforeMonth year month + monthLength year month

/-- The days from the first day of the year 1 to the first day of a year. -/
def daysBeforeYear (year : Int) : Int :=
  let past := year - 1
  365 * past + past / 4 - past / 100 + past / 400

/-- The days from the first day of the year 1 to 1970-01-01. -/
def epoch : Int := 719162

/-- The days since 1970-01-01, negative before it. -/
def daysSinceEpoch (d : Date) : Int :=
  daysBeforeYear d.year + daysBeforeMonth d.year d.month + (d.day - 1 : Nat) - epoch

/-- The date of a day within a year, counted from zero: the day number is reduced month by month,
starting at `month` with `left` months to try. -/
def ofDayOfYear? (year : Int) (month : Nat) (day : Nat) : Nat → Option Date
  | 0 => none
  | left + 1 =>
    if day < monthLength year month then ofParts? year month (day + 1)
    else ofDayOfYear? year (month + 1) (day - monthLength year month) left

/-- The date a number of days after 1970-01-01. Years are counted by periods of 400, 100, 4 and 1;
the last year of a period takes its leap day. -/
def ofDaysSinceEpoch? (days : Int) : Option Date :=
  let day := days + epoch
  let (fourCenturies, day) := (day / 146097, (day % 146097).toNat)
  let centuries := min 3 (day / 36524)
  let day := day - centuries * 36524
  let (fourYears, day) := (day / 1461, day % 1461)
  let years := min 3 (day / 365)
  let day := day - years * 365
  let year := 400 * fourCenturies + 100 * centuries + 4 * fourYears + years + 1
  ofDayOfYear? year 1 day 12

/-- A year of four digits, or one with a sign and at least four digits outside 0 to 9999. -/
def yearText (year : Int) : String :=
  let sign := if year < 0 then "-" else if 9999 < year then "+" else ""
  sign ++ Decimal.padded 4 year.natAbs

/-- The text `2023-06-21`. -/
def text (d : Date) : String :=
  yearText d.year ++ "-" ++ Decimal.padded 2 d.month ++ "-" ++ Decimal.padded 2 d.day

end Date
end GeoAlmanac
