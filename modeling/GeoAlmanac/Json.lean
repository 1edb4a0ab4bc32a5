import GeoAlmanac.Decimal.Shortest

/-! Flat records written as JSON objects with a field on each line. -/

namespace GeoAlmanac.Json

inductive Value where
  | text (s : String)
  | count (n : Nat)
  | number (x : Float)

/-- A control character by the two hexadecimal digits of its code. -/
def escapedCode (c : Char) : String :=
  let digits := Nat.toDigits 16 c.toNat
  "\\u" ++ String.ofList (List.replicate (4 - digits.length) '0' ++ digits)

def quotedChar (c : Char) : String :=
  match c with
  | '"' => "\\\""
  | '\\' => "\\\\"
  | '\n' => "\\n"
  | '\r' => "\\r"
  | '\t' => "\\t"
  | '\x08' => "\\b"
  | '\x0c' => "\\f"
  | c => if c.toNat < 0x20 then escapedCode c else String.singleton c

def quoted (s : String) : String :=
  "\"" ++ String.join (s.toList.map quotedChar) ++ "\""

/-- Shortest digits with a point: positional from `1e-5` to below `1e16`, and with a signed power
of ten elsewhere. -/
def digitsText (d : Decimal.Digits) : String :=
  let count := Decimal.digitCount d.digits
  let leading := d.exponent + count - 1
  if -5 ≤ leading ∧ leading < 16 then
    if 0 ≤ d.exponent then d.positional ++ ".0" else d.positional
  else
    Decimal.withPoint (count - 1) d.digits ++ (if 0 ≤ leading then "e+" else "e")
      ++ toString leading

/-- A double; what is no finite number is written as `null`. -/
def numberText (x : Float) : String :=
  if x.isFinite then
    let body (m : Nat) (e : Int) : String :=
      if m = 0 then "0.0" else digitsText (Decimal.shortestDigits .toEven m e).trimmed
    let text := Decimal.signedText body x
    text.1 ++ text.2
  else "null"

def Value.write : Value → String
  | .text s => quoted s
  | .count n => toString n
  | .number x => numberText x

def object (fields : List (String × Value)) : String :=
  let lines := fields.map fun f => "  " ++ quoted f.1 ++ ": " ++ f.2.write
  "\x7b\n" ++ ",\n".intercalate lines ++ "\n\x7d"

end GeoAlmanac.Json
