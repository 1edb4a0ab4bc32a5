import GeoAlmanac.Arithmetic

/-! Binary64 as an instance of the arithmetic. Whole parts and remainders are computed exactly on
the significand and exponent of a double, so they are rounded nowhere. -/

namespace GeoAlmanac.Binary64
open Float.Model Float.Model.UnpackedFloat

/-- The double nearest to `± m * 2 ^ e`; a tie goes to the even significand. -/
def ofScaled (sign : Sign) (m : Nat) (e : Int) : Float :=
  .ofModel (.pack (.round Format.binary64 sign m e))

def notANumber : Float := 0.0 / 0.0

def truncate (x : Float) : Float :=
  match x.toModel.unpack with
  | .finite s m e _ => if 0 ≤ e then x else ofScaled s (m >>> (-e).toNat) 0
  | _ => x

def floorOf (x : Float) : Float :=
  match x.toModel.unpack with
  | .finite .positive m e _ => if 0 ≤ e then x else ofScaled .positive (m >>> (-e).toNat) 0
  | .finite .negative m e _ =>
    if 0 ≤ e then x
    else
      let whole := m >>> (-e).toNat
      ofScaled .negative (if whole <<< (-e).toNat = m then whole else whole + 1) 0
  | _ => x

/-- The exact remainder of the truncated quotient. -/
def remainderOf (x y : Float) : Float :=
  match x.toModel.unpack, y.toModel.unpack with
  | .notANumber, _ | _, .notANumber | .infinity _, _ | _, .zero _ => notANumber
  | .zero _, _ | .finite .., .infinity _ => x
  | .finite s m e _, .finite _ n f _ =>
    let unit := min e f
    ofScaled s ((m <<< (e - unit).toNat) % (n <<< (f - unit).toNat)) unit

def signBit (x : Float) : Bool :=
  decide (0x8000000000000000 ≤ x.toBits)

instance : Arithmetic Float where
  decidableLT := Float.decLt
  decidableLE := Float.decLe
  ofInt := Float.ofInt
  abs := Float.abs
  floor := floorOf
  trunc := truncate
  remainder := remainderOf
  isNegative := signBit
  toUInt32 := Float.toUInt32

/-- The constant is the double nearest to `π`. -/
instance : Geometric Float where
  sqrt := Float.sqrt
  pi := 3.141592653589793

/-- The legs are scaled by a power of two where their squares would leave the range. -/
def hypotenuse (x y : Float) : Float :=
  let a := x.abs
  let b := y.abs
  if a.isInf || b.isInf then 1.0 / 0.0
  else
    let long := larger a b
    let scale : Float :=
      if 1e150 < long then ofScaled .positive 1 (-600)
      else if long < 1e-140 then ofScaled .positive 1 600
      else 1.0
    ((a * scale) * (a * scale) + (b * scale) * (b * scale)).sqrt / scale

/-- The elementary functions of the host. -/
instance : Elementary Float where
  sin := Float.sin
  cos := Float.cos
  tan := Float.tan
  asin := Float.asin
  acos := Float.acos
  atan := Float.atan
  atan2 := Float.atan2
  hypot := hypotenuse
  log := Float.log

end GeoAlmanac.Binary64
