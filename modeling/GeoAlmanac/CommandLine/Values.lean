import GeoAlmanac.Calendar.Date
import GeoAlmanac.CommandLine.Usage
import GeoAlmanac.Coordinate
import GeoAlmanac.Decimal.Reader
import GeoAlmanac.Files.Path
import GeoAlmanac.Length
import GeoAlmanac.Sun.Zenith

/-! The values of options and why they are refused. -/

namespace GeoAlmanac.CommandLine

def numberValue (text : String) : Except Refusal Float :=
  match Decimal.read? text with
  | some x => .ok x
  | none => .error (.unreadable
      (if text.isEmpty then "cannot parse float from empty string" else "invalid float literal"))

/-- A file or directory; the empty text names none. -/
def pathValue (text : String) : Except Refusal Path :=
  if text.isEmpty then .error .missing else .ok (.ofText text)

def unitValue (text : String) : Except Refusal LengthUnit :=
  match text with
  | "" => .error .missing
  | "miles" => .ok .miles
  | "km" => .ok .kilometres
  | _ => .error .unlisted

def zenithValue (text : String) : Except Refusal Zenith :=
  (Zenith.ofText? text).mapError fun e => .unreadable e.message

/-- Digits read from the left into a number of 64 bits; the first digit that is none or that
exceeds the bits ends the reading. -/
def digitsValue (isNegative : Bool) : List Char → Nat → Except Refusal Int
  | [], n => .ok (if isNegative then -n else n)
  | c :: rest, n =>
    if !c.isDigit then .error (.unreadable "invalid digit found in string")
    else
      let n := 10 * n + (c.toNat - '0'.toNat)
      let limit := if isNegative then 0x8000000000000000 else 0x7FFFFFFFFFFFFFFF
      if n ≤ limit then digitsValue isNegative rest n
      else .error (.unreadable
        ("number too " ++ (if isNegative then "small" else "large") ++ " to fit in target type"))

/-- A whole number of 64 bits with an optional sign. -/
def integerValue (text : String) : Except Refusal Int :=
  match text.toList with
  | [] => .error (.unreadable "cannot parse integer from empty string")
  | ['+'] | ['-'] => .error (.unreadable "invalid digit found in string")
  | '+' :: ds => digitsValue false ds 0
  | '-' :: ds => digitsValue true ds 0
  | ds => digitsValue false ds 0

/-- A count of 32 bits. -/
def countValue (text : String) : Except Refusal Nat := do
  let n ← integerValue text
  if 0 ≤ n ∧ n < 0x100000000 then .ok n.toNat
  else .error (.unreadable (toString n ++ " is not in 0..=4294967295"))

inductive PlaceError where
  | noComma
  | latitude (text : List Char)
  | longitude (text : List Char)
  | outside (e : CoordinateError)

def PlaceError.message (text : String) : PlaceError → String
  | .noComma => "expected LAT,LON, got '" ++ text ++ "'"
  | .latitude cs => "invalid latitude '" ++ String.ofList cs ++ "'"
  | .longitude cs => "invalid longitude '" ++ String.ofList cs ++ "'"
  | .outside e => e.message

/-- The number that a text is, where blanks around it do not count. A text that is no number is
handed to `refuse` without these blanks. -/
def readDegrees (refuse : List Char → PlaceError) (cs : List Char) : Except PlaceError Float :=
  let trimmed := Text.trim cs
  match Decimal.read? (String.ofList trimmed) with
  | some x => .ok x
  | none => .error (refuse trimmed)

/-- The place given by its latitude and its longitude, the longitude after the first comma. -/
def readPlace (cs : List Char) : Except PlaceError (Coordinate Float) :=
  let (before, rest) := cs.span (· ≠ ',')
  match rest with
  | [] => .error .noComma
  | _ :: after => do
    let latitude ← readDegrees .latitude before
    let longitude ← readDegrees .longitude after
    (Coordinate.validate? latitude longitude).mapError .outside

def placeValue (text : String) : Except Refusal (Coordinate Float) :=
  (readPlace text.toList).mapError fun e => .unreadable (e.message text)

inductive DateError where
  | tooShort
  | invalid
  | outOfRange
  | tooLong

def DateError.message : DateError → String
  | .tooShort => "premature end of input"
  | .invalid => "input contains invalid characters"
  | .outOfRange => "input is out of range"
  | .tooLong => "trailing input"

/-- A number of at most `width` digits at the head of a text. It is kept to 63 bits. -/
def dateNumber (width : Nat) (cs : List Char) : Except DateError (Nat × List Char) :=
  let digits := (cs.take width).takeWhile Char.isDigit
  let n := Decimal.natOfDigits digits
  if cs.isEmpty then .error .tooShort
  else if digits.isEmpty then .error .invalid
  else if 0x8000000000000000 ≤ n then .error .outOfRange
  else .ok (n, cs.drop digits.length)

/-- A year of at most four digits, or of any number of digits after a sign. It is kept to 32
bits. -/
def dateYear (cs : List Char) : Except DateError (Int × List Char) := do
  let (year, rest) ← match cs with
    | '-' :: r => (dateNumber r.length r).map fun (n, r) => (-(n : Int), r)
    | '+' :: r => (dateNumber r.length r).map fun (n, r) => ((n : Int), r)
    | _ => (dateNumber 4 cs).map fun (n, r) => ((n : Int), r)
  if -0x80000000 ≤ year ∧ year < 0x80000000 then .ok (year, rest) else .error .outOfRange

/-- A number of at most two digits within bounds. -/
def datePart (high : Nat) (cs : List Char) : Except DateError (Nat × List Char) := do
  let (n, rest) ← dateNumber 2 cs
  if 1 ≤ n ∧ n ≤ high then .ok (n, rest) else .error .outOfRange

def afterHyphen : List Char → Except DateError (List Char)
  | [] => .error .tooShort
  | c :: rest => if c = '-' then .ok rest else .error .invalid

/-- The date of year, month and day between hyphens. Blanks may stand before and after each of
them. -/
def readDate (cs : List Char) : Except DateError Date := do
  let (year, rest) ← dateYear (Text.trimLeft cs)
  let (month, rest) ← datePart 12 (Text.trimLeft (← afterHyphen (Text.trimLeft rest)))
  let (day, rest) ← datePart 31 (Text.trimLeft (← afterHyphen (Text.trimLeft rest)))
  if !(Text.trimLeft rest).isEmpty then .error .tooLong
  else match Date.ofParts? year month day with
    | some d => .ok d
    | none => .error .outOfRange

def dateValue (text : String) : Except Refusal Date :=
  (readDate text.toList).mapError fun e => .unreadable e.message

end GeoAlmanac.CommandLine
