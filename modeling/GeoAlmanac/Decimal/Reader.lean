/-! Decimal text read as the nearest double. -/

namespace GeoAlmanac.Decimal

def spanDigits (cs : List Char) : List Char × List Char :=
  cs.span Char.isDigit

def natOfDigits (cs : List Char) : Nat :=
  cs.foldl (fun n c => 10 * n + (c.toNat - '0'.toNat)) 0

/-- An optional sign at the head of a text: whether it is a minus, and the rest. -/
def spanSign : List Char → Bool × List Char
  | '-' :: r => (true, r)
  | '+' :: r => (false, r)
  | r => (false, r)

/-- The double nearest to `m * 10 ^ e`. -/
def nearest (m : Nat) (e : Int) : Float :=
  if e < 0 then Float.ofScientific m true (-e).toNat else Float.ofScientific m false e.toNat

/-- The power of ten a text ends with: nothing, or `e` or `E`, an optional sign and digits. -/
def exponent? : List Char → Option Int
  | [] => some 0
  | c :: r =>
    if c = 'e' ∨ c = 'E' then
      let (negative, r) := spanSign r
      let (digits, rest) := spanDigits r
      if digits.isEmpty || !rest.isEmpty then none
      else some (if negative then -natOfDigits digits else natOfDigits digits)
    else none

/-- An unsigned number: digits with an optional point, at least one digit, and an optional power
of ten. -/
def unsigned? (cs : List Char) : Option Float :=
  let (whole, rest) := spanDigits cs
  let (fraction, rest) := match rest with
    | '.' :: r => spanDigits r
    | r => ([], r)
  if whole.isEmpty && fraction.isEmpty then none
  else
    (exponent? rest).map fun e => nearest (natOfDigits (whole ++ fraction)) (e - fraction.length)

/-- The names of infinity and of what is no number, in either case. -/
def special? (cs : List Char) : Option Float :=
  match String.ofList (cs.map Char.toLower) with
  | "inf" | "infinity" => some (1.0 / 0.0)
  | "nan" => some (0.0 / 0.0)
  | _ => none

/-- Reads a number in decimal or scientific notation, or one of the names `inf`, `infinity` and
`nan`, with an optional sign. Nothing else may stand in the text. -/
def read? (text : String) : Option Float :=
  let (negative, cs) := spanSign text.toList
  let magnitude := (special? cs).or (unsigned? cs)
  magnitude.map fun x => if negative then -x else x

end GeoAlmanac.Decimal
