import ControlRecords.Decimal.Binary
import ControlRecords.Numeral

/-! Decimal texts read as double-precision numbers. A text is an optional sign, then
`inf`, `infinity` or `nan` in letters of any case, or digits with at most one point
among them, then an optional exponent: `e` or `E`, an optional sign, and digits. At
least one digit stands before the exponent, and blanks are not allowed. The value is the
number nearest to the decimal. -/
namespace ControlRecords.Decimal

/-- A decimal text taken apart: `digits * 10 ^ (exponent - places)`. -/
structure Reading where
  digits : List Char
  places : Nat
  exponent : Int

/-- Decimal digits. -/
def isDecimalDigit (c : Char) : Bool := Numeral.isDigit 10 c

/-- The exponent that makes up the whole text; no text at all is the exponent zero. -/
def readExponent? : List Char → Option Int
  | [] => some 0
  | e :: cs =>
    if e = 'e' ∨ e = 'E' then
      let (negative, digits) := Numeral.sign cs
      if digits ≠ [] ∧ digits.all isDecimalDigit then
        let n : Int := Numeral.valueOf 10 digits
        some (if negative then -n else n)
      else none
    else none

/-- An unsigned decimal. -/
def readUnsigned? (cs : List Char) : Option Reading :=
  let whole := cs.takeWhile isDecimalDigit
  let rest := cs.dropWhile isDecimalDigit
  let (fraction, rest) : List Char × List Char :=
    match rest with
    | '.' :: r => (r.takeWhile isDecimalDigit, r.dropWhile isDecimalDigit)
    | r => ([], r)
  if whole ++ fraction = [] then none
  else (readExponent? rest).map fun e => ⟨whole ++ fraction, fraction.length, e⟩

/-- The bits of the double-precision number nearest to `m * 10 ^ e`. Beyond these bounds on
its magnitude it is zero or infinite, so that no great power of ten has to be written out. -/
def nearest (m : Nat) (e : Int) : Nat :=
  let magnitude : Int := (Nat.toDigits 10 m).length + e
  if m = 0 ∨ magnitude < -400 then 0
  else if 400 < magnitude then Format.double.infinity
  else Format.double.round (m * Nat.pow 10 e.toNat) (Nat.pow 10 (-e).toNat)

/-- The bits of a decimal. -/
def Reading.bits (r : Reading) : Nat :=
  nearest (Numeral.valueOf 10 r.digits) (r.exponent - r.places)

/-- The bits that an unsigned text names. What is no number has the bits of infinity and
the first bit of the fraction. -/
def readMagnitude? (cs : List Char) : Option Nat :=
  let word := String.ofList (cs.map Char.toLower)
  if word = "inf" ∨ word = "infinity" then some Format.double.infinity
  else if word = "nan" then some (Format.double.infinity + Format.double.leadingBit / 2)
  else (readUnsigned? cs).map Reading.bits

/-- The double-precision number with the bits under a sign. -/
def doubleOf (negative : Bool) (bits : Nat) : Float :=
  Float.ofBits (UInt64.ofNat (Format.double.withSign negative bits))

/-- The number that a whole text names. -/
def read? (s : String) : Option Float :=
  let (negative, body) := Numeral.sign s.toList
  (readMagnitude? body).map (doubleOf negative)

end ControlRecords.Decimal
