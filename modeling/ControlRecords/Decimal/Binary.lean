/-! Binary floating point numbers taken apart and put together. A finite number is
`± m * 2 ^ q` with a whole `m`; `Format.decode` reads the two off its bits, and
`Format.round` finds the bits of the number nearest to a fraction. The exact arithmetic of
this library (decimal texts, truncation to an integer) works on these alone. -/
namespace ControlRecords.Decimal

/-- A binary interchange format, by the widths of its two fields. -/
structure Format where
  fractionBits : Nat
  exponentBits : Nat

namespace Format

/-- Thirty-two bits: eight of exponent, twenty-three of fraction. -/
def single : Format := ⟨23, 8⟩

/-- Sixty-four bits: eleven of exponent, fifty-two of fraction. -/
def double : Format := ⟨52, 11⟩

/-- The significand of the least number of every binade, the leading bit alone. -/
def leadingBit (f : Format) : Nat := 1 <<< f.fractionBits

/-- The exponent field of infinities and of what is no number. -/
def topExponent (f : Format) : Nat := (1 <<< f.exponentBits) - 1

/-- The exponent of the last bit of the numbers with the least exponent field. -/
def leastExponent (f : Format) : Int :=
  2 - (1 <<< (f.exponentBits - 1) : Nat) - f.fractionBits

/-- The bits of the infinity, which come next after those of the greatest number. -/
def infinity (f : Format) : Nat := f.topExponent * f.leadingBit

/-- The bit that the sign adds. -/
def signBit (f : Format) : Nat := (f.topExponent + 1) * f.leadingBit

/-- The bits under a sign. -/
def withSign (f : Format) (negative : Bool) (bits : Nat) : Nat :=
  if negative then f.signBit + bits else bits

end Format

/-- What the bits of a floating point number stand for. -/
inductive Datum where
  /-- No number. -/
  | nan
  | infinite (negative : Bool)
  /-- The number `m * 2 ^ q`, negated if the sign says so. -/
  | finite (negative : Bool) (m : Nat) (q : Int)
  deriving DecidableEq, Repr

/-- Read a number off its bits. -/
def Format.decode (f : Format) (bits : Nat) : Datum :=
  let fraction := bits % f.leadingBit
  let exponent := bits / f.leadingBit % (f.topExponent + 1)
  let negative := bits / f.leadingBit / (f.topExponent + 1) % 2 == 1
  if exponent = f.topExponent then
    if fraction = 0 then .infinite negative else .nan
  else if exponent = 0 then .finite negative fraction f.leastExponent
  else .finite negative (f.leadingBit + fraction) (f.leastExponent + (exponent - 1 : Nat))

/-- The datum of a double-precision number. -/
def ofDouble (x : Float) : Datum := Format.double.decode x.toBits.toNat

/-- The datum of a single-precision number. -/
def ofSingle (x : Float32) : Datum := Format.single.decode x.toBits.toNat

namespace Datum

/-- The whole part of `m * 2 ^ q`. -/
def wholePart (m : Nat) (q : Int) : Nat :=
  if 0 ≤ q then m <<< q.toNat else m >>> (-q).toNat

/-- The integer next to a finite number on the side of zero. -/
def truncate? : Datum → Option Int
  | .finite negative m q =>
    some (if negative then -(wholePart m q : Int) else (wholePart m q : Int))
  | _ => none

/-- The truncated number brought into the range from `lo` to `hi`: infinities go to the
end on their side, and what is no number goes to zero. -/
def saturate (lo hi : Int) : Datum → Int
  | .nan => 0
  | .infinite negative => if negative then lo else hi
  | .finite negative m q =>
    max lo (min hi (if negative then -(wholePart m q : Int) else (wholePart m q : Int)))

end Datum

/-- A quotient rounded to the nearest whole number, and to the even one of two. -/
def roundEven (numerator denominator : Nat) : Nat :=
  let whole := numerator / denominator
  let rest := 2 * (numerator % denominator)
  if rest < denominator ∨ (rest = denominator ∧ whole % 2 = 0) then whole else whole + 1

/-- The bits of the number nearest to a quotient. In steps of the least numbers of the
format the quotient has some bits too many for a significand; that many binades lie
between, and the steps are coarser in each of them. A significand that is rounded up to
twice the leading bit is carried into the next binade, or into infinity. -/
def Format.round (f : Format) (numerator denominator : Nat) : Nat :=
  let steps := numerator <<< (-f.leastExponent).toNat
  let binades := (steps / denominator).log2 - f.fractionBits
  min f.infinity (binades * f.leadingBit + roundEven steps (denominator <<< binades))

end ControlRecords.Decimal
