/-! The numbers a formula is evaluated in. Every formula of the library is written once over these
classes, so that one text is read in binary64, over the rationals and over the reals. -/

namespace GeoAlmanac

/-- Ordered numbers with the four operations, whole parts and a remainder. Comparisons and `==`
are those of the numbers: in binary64 no comparison holds of a NaN and both zeros are equal. -/
class Arithmetic (α : Type) extends Add α, Sub α, Mul α, Div α, Neg α, LT α, LE α, BEq α,
    OfScientific α where
  decidableLT : DecidableLT α
  decidableLE : DecidableLE α
  ofInt : Int → α
  abs : α → α
  floor : α → α
  trunc : α → α
  /-- What is left of the dividend after taking whole divisors from it; it has the sign of the
  dividend. -/
  remainder : α → α → α
  /-- Whether the number carries a minus sign; a negative zero does. -/
  isNegative : α → Bool
  /-- The whole part held within a 32-bit count; what is no number counts as zero. -/
  toUInt32 : α → UInt32

instance (priority := low) instDecidableLTOfArithmetic {α : Type} [Arithmetic α] :
    DecidableLT α :=
  Arithmetic.decidableLT

instance (priority := low) instDecidableLEOfArithmetic {α : Type} [Arithmetic α] :
    DecidableLE α :=
  Arithmetic.decidableLE

/-- Arithmetic with the two irrational constructions of plane geometry. -/
class Geometric (α : Type) extends Arithmetic α where
  sqrt : α → α
  pi : α

/-- The elementary functions; angles are radians. -/
class Elementary (α : Type) where
  sin : α → α
  cos : α → α
  tan : α → α
  asin : α → α
  acos : α → α
  atan : α → α
  /-- The angle of the point `(x, y)` seen from the origin, ordinate first. -/
  atan2 : α → α → α
  hypot : α → α → α
  log : α → α

export Arithmetic (abs floor trunc)
export Geometric (sqrt pi)
export Elementary (sin cos tan asin acos atan atan2 hypot log)

section
variable {α : Type} [Arithmetic α]

/-- The nearest number of an interval; a NaN stays a NaN. -/
def clamp (low high x : α) : α :=
  if x < low then low else if high < x then high else x

def isWithin (low high x : α) : Bool :=
  decide (low ≤ x) && decide (x ≤ high)

def larger (x y : α) : α :=
  if x < y then y else x

def smaller (x y : α) : α :=
  if y < x then y else x

end

section
variable {α : Type} [Geometric α]

/-- Degrees to radians, through the rounded factor `π / 180`. -/
def toRadians (degrees : α) : α :=
  degrees * (pi / 180.0)

/-- Radians to degrees, through the rounded factor `180 / π`. -/
def toDegrees (radians : α) : α :=
  radians * (180.0 / pi)

end

end GeoAlmanac
