import GeoAlmanac.Decimal.Fixed

/-! The fewest decimal digits that read back as the same double. -/

namespace GeoAlmanac.Decimal

/-- The numbers that round to `m * 2 ^ e`, in quarters of the unit `2 ^ e`: a lower end, the value
and an upper end. The gap below a power of two is half as wide. Both ends belong to the
neighbourhood exactly when `m` is even. -/
structure Neighbourhood where
  low : Nat
  centre : Nat
  high : Nat
  closed : Bool

def Neighbourhood.ofScaled (m : Nat) (e : Int) : Neighbourhood where
  low := if m = 0x10000000000000 ∧ -1074 < e then 4 * m - 1 else 4 * m - 2
  centre := 4 * m
  high := 4 * m + 2
  closed := m % 2 = 0

/-- Whether the grid point `num / den`, in quarter units, lies in the neighbourhood. -/
def Neighbourhood.holds (b : Neighbourhood) (num den : Nat) : Bool :=
  if b.closed then b.low * den ≤ num && num ≤ b.high * den
  else b.low * den < num && num < b.high * den

structure Digits where
  digits : Nat
  exponent : Int

/-- The point of the grid `10 ^ exponent` that lies in the neighbourhood of `m * 2 ^ e` and is
nearest to it, if the grid has one there. -/
def gridPoint? (tie : Tie) (m : Nat) (e : Int) (exponent : Int) : Option Digits :=
  let b := Neighbourhood.ofScaled m e
  -- one grid step is `step / unit` quarter units of `2 ^ e`
  let step := tenTo exponent.toNat <<< (2 - e).toNat
  let unit := tenTo (-exponent).toNat <<< (e - 2).toNat
  let below := b.centre * unit / step
  let lower := b.holds (below * step) unit
  let upper := b.holds ((below + 1) * step) unit
  if lower && upper then
    some ⟨roundDiv tie (b.centre * unit) step, exponent⟩
  else if lower then some ⟨below, exponent⟩
  else if upper then some ⟨below + 1, exponent⟩
  else none

/-- The first grid with a point in the neighbourhood, from one digit to seventeen; seventeen
always suffice. -/
def shortestDigits (tie : Tie) (m : Nat) (e : Int) : Digits :=
  let k := (Fraction.ofScaled m e).magnitude
  let exponents := (List.range 17).map fun (i : Nat) => k - (i : Int)
  (exponents.findSome? (gridPoint? tie m e)).getD ⟨0, 0⟩

/-- Drops zeros at the end of the digits; at most seventeen can stand there. -/
def Digits.trimmed (d : Digits) : Digits :=
  (List.range 18).foldl
    (fun d _ => if d.digits % 10 = 0 ∧ d.digits ≠ 0 then ⟨d.digits / 10, d.exponent + 1⟩ else d) d

/-- The digits without a power of ten: zeros fill the places up to the point. -/
def Digits.positional (d : Digits) : String :=
  if 0 ≤ d.exponent then toString (d.digits * tenTo d.exponent.toNat)
  else withPoint (-d.exponent).toNat d.digits

/-- The shortest text of a double, never with a power of ten: `0.1`, `90`, `-0`. Of two equally
near shortest numbers the larger is written. -/
def shortest (x : Float) : String :=
  let body (m : Nat) (e : Int) : String :=
    if m = 0 then "0" else (shortestDigits .up m e).trimmed.positional
  let text := signedText body x
  text.1 ++ text.2

end GeoAlmanac.Decimal
