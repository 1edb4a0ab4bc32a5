import GeoAlmanac.Decimal.Rounding

/-! Decimal text of a double with a fixed number of places or of significant digits, correctly
rounded from its exact value; a tie goes to the even digit. -/

namespace GeoAlmanac.Decimal
open Float.Model Float.Model.UnpackedFloat

/-- The sign and the unsigned text of a double whose magnitude is written by `body`. No sign is
written for what is no number. -/
def signedText (body : Nat → Int → String) (x : Float) : String × String :=
  match x.toModel.unpack with
  | .notANumber => ("", "NaN")
  | .infinity s => (signText s, "inf")
  | .zero s => (signText s, body 0 0)
  | .finite s m e _ => (signText s, body m e)
where
  signText : Sign → String
    | .negative => "-"
    | .positive => ""

/-- The number of units of the last place in `m * 2 ^ e`. -/
def fixedUnits (places m : Nat) (e : Int) : Nat :=
  let r := (Fraction.ofScaled m e).shift places
  roundDiv .toEven r.num r.den

/-- Text with exactly `places` digits after the point, such as `-0.50`. -/
def fixed (places : Nat) (x : Float) : String :=
  let text := signedText (fun m e => withPoint places (fixedUnits places m e)) x
  text.1 ++ text.2

/-- As `fixed`, filled with zeros between sign and digits to a least width. -/
def fixedPadded (width places : Nat) (x : Float) : String :=
  let text := signedText (fun m e => withPoint places (fixedUnits places m e)) x
  text.1 ++ String.ofList (List.replicate (width - text.1.length - text.2.length) '0') ++ text.2

/-- The leading digits of a positive `m * 2 ^ e` as a number of `places + 1` digits, with the
power of ten of the first of them. -/
def scientificDigits (places m : Nat) (e : Int) : Nat × Int :=
  let r := Fraction.ofScaled m e
  let k := r.magnitude
  let scaled := r.shift (places - k)
  let n := roundDiv .toEven scaled.num scaled.den
  if n = tenTo (places + 1) then (tenTo places, k + 1) else (n, k)

/-- Text with one digit before the point, `places` after it and a power of ten, such as
`-5.00e-1`. -/
def scientific (places : Nat) (x : Float) : String :=
  let body (m : Nat) (e : Int) : String :=
    let (n, k) := if m = 0 then (0, 0) else scientificDigits places m e
    withPoint places n ++ "e" ++ toString k
  let text := signedText body x
  text.1 ++ text.2

end GeoAlmanac.Decimal
