import ControlRecords.Decimal.Shortest

/-! Decimals written out in full. Every digit stands at its place, however many zeros
that takes; no exponent is ever written, and a whole number has no point. -/
namespace ControlRecords.Decimal

/-- The digits of `d` with the point at its place. -/
def Digits.positional (d : Digits) : String :=
  let digits := Nat.toDigits 10 d.significand
  if 0 ≤ d.exponent then
    String.ofList (digits ++ List.replicate d.exponent.toNat '0')
  else
    let places := (-d.exponent).toNat
    if places < digits.length then
      String.ofList (digits.take (digits.length - places)) ++ "."
        ++ String.ofList (digits.drop (digits.length - places))
    else
      "0." ++ String.ofList (List.replicate (places - digits.length) '0' ++ digits)

/-- How a number of the format is written: its shortest decimal in full, `inf` for an
infinity, a minus sign before either where the sign bit is set, also on zero, and `NaN`
for what is no number. -/
def Format.write (f : Format) : Datum → String
  | .nan => "NaN"
  | .infinite negative => if negative then "-inf" else "inf"
  | .finite negative m q =>
    (if negative then "-" else "") ++ (if m = 0 then "0" else (f.shortest m q).positional)

/-- The text of a double-precision number. -/
def writeDouble (x : Float) : String := Format.double.write (ofDouble x)

/-- The text of a single-precision number, with the digits that single precision needs. -/
def writeSingle (x : Float32) : String := Format.single.write (ofSingle x)

end ControlRecords.Decimal
