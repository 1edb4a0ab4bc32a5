/-! Rounding of quotients to whole numbers, and the decimal places of a positive fraction. -/

namespace GeoAlmanac.Decimal

/-- Which neighbour takes an exact half. -/
inductive Tie where
  | toEven
  | up
  deriving DecidableEq

def roundDiv (tie : Tie) (num den : Nat) : Nat :=
  let whole := num / den
  let rest := num % den
  if 2 * rest < den then whole
  else if den < 2 * rest then whole + 1
  else match tie with
    | .up => whole + 1
    | .toEven => whole + whole % 2

def tenTo (k : Nat) : Nat :=
  Nat.pow 10 k

structure Fraction where
  num : Nat
  den : Nat

def Fraction.ofScaled (m : Nat) (e : Int) : Fraction :=
  ⟨m <<< e.toNat, 1 <<< (-e).toNat⟩

def Fraction.shift (r : Fraction) (k : Int) : Fraction :=
  ⟨r.num * tenTo k.toNat, r.den * tenTo (-k).toNat⟩

/-- How many decimal digits a number has; zero has one. -/
def digitCount (n : Nat) : Nat :=
  (Nat.toDigits 10 n).length

/-- The power of ten of the leading digit of a positive fraction. -/
def Fraction.magnitude (r : Fraction) : Int :=
  if r.den ≤ r.num then (digitCount (r.num / r.den) : Int) - 1
  else
    let below := digitCount (r.den / r.num)
    if r.den ≤ r.num * tenTo (below - 1) then 1 - (below : Int) else -(below : Int)

/-- The digits of a number, filled with zeros on the left to a least width. -/
def padded (width n : Nat) : String :=
  String.ofList (List.replicate (width - digitCount n) '0' ++ Nat.toDigits 10 n)

/-- The digits of a number with a point before its last `places` digits; no point if there are
none. -/
def withPoint (places n : Nat) : String :=
  if places = 0 then toString n
  else toString (n / tenTo places) ++ "." ++ padded places (n % tenTo places)

end GeoAlmanac.Decimal
