import ControlRecords.Decimal.Binary

/-! The shortest decimal that reads back as a given binary number. The reals that round
to `m * 2 ^ q` form an interval: it reaches half way to each neighbour, and its ends
belong to it exactly when `m` is even. The grids of decimals with no, one, two, …
significant digits are tried in turn; on each grid only the two neighbours of the
number can lie in the interval, the first grid with a hit wins, the nearer of two hits
is taken, and of two equally near ones the greater. -/
namespace ControlRecords.Decimal

/-- The reals that round to a number, over a common denominator: the number is
`value / denominator`, and so for the two ends. -/
structure Interval where
  low : Nat
  value : Nat
  high : Nat
  denominator : Nat
  /-- The ends themselves round to the number. -/
  closed : Bool

/-- The interval of `m * 2 ^ q`. The neighbour below a leading bit that stands alone is
only half as far as the one above it. -/
def Format.interval (f : Format) (m : Nat) (q : Int) : Interval :=
  let low := if m = f.leadingBit then 4 * m - 1 else 4 * m - 2
  let scale := 1 <<< (q - 2).toNat
  { low := low * scale
    value := 4 * m * scale
    high := (4 * m + 2) * scale
    denominator := 1 <<< (2 - q).toNat
    closed := m % 2 == 0 }

/-- The decimal `significand * 10 ^ exponent`. -/
structure Digits where
  significand : Nat
  exponent : Int
  deriving DecidableEq, Repr

namespace Interval

/-- `n * 10 ^ e` lies in the interval. -/
def contains (i : Interval) (n : Nat) (e : Int) : Bool :=
  let point := n * Nat.pow 10 e.toNat * i.denominator
  let unit := Nat.pow 10 (-e).toNat
  if i.closed then decide (i.low * unit ≤ point) && decide (point ≤ i.high * unit)
  else decide (i.low * unit < point) && decide (point < i.high * unit)

/-- The neighbour of the number on the grid of step `10 ^ e`, from below. -/
def below (i : Interval) (e : Int) : Nat :=
  i.value * Nat.pow 10 (-e).toNat / (i.denominator * Nat.pow 10 e.toNat)

/-- The number lies strictly closer to the grid point `n` than to the next one. -/
def closerBelow (i : Interval) (n : Nat) (e : Int) : Bool :=
  2 * i.value * Nat.pow 10 (-e).toNat < (2 * n + 1) * (i.denominator * Nat.pow 10 e.toNat)

/-- The grid point of step `10 ^ e` that stands for the number, if one does. -/
def hit? (i : Interval) (e : Int) : Option Nat :=
  let n := i.below e
  match n != 0 && i.contains n e, i.contains (n + 1) e with
  | true, true => some (if i.closerBelow n e then n else n + 1)
  | true, false => some n
  | false, true => some (n + 1)
  | false, false => none

/-- Refine the grid until one of its points stands for the number. -/
def search (i : Interval) : Nat → Int → Digits
  | 0, e => ⟨i.below e, e⟩
  | fuel + 1, e =>
    match i.hit? e with
    | some n => ⟨n, e⟩
    | none => i.search fuel (e - 1)

/-- The least number of decimal places that brings the number to one or more. -/
def places (i : Interval) : Nat → Nat → Nat
  | 0, k => k
  | fuel + 1, k => if i.denominator ≤ i.value * Nat.pow 10 k then k else i.places fuel (k + 1)

/-- A power of ten above the number, with none between the number and a tenth of it. -/
def magnitude (i : Interval) : Int :=
  let whole := i.value / i.denominator
  if whole = 0 then 1 - (i.places 400 1 : Int) else (Nat.toDigits 10 whole).length

end Interval

/-- Move the zeros at the end of the digits into the exponent. -/
def Digits.stripped : Nat → Digits → Digits
  | 0, d => d
  | fuel + 1, d =>
    if d.significand ≠ 0 ∧ d.significand % 10 = 0 then
      stripped fuel ⟨d.significand / 10, d.exponent + 1⟩
    else d

/-- Seventeen digits are enough for a double-precision number, and one grid more has no
digit of its own. -/
def gridCount : Nat := 20

/-- The shortest decimal that reads back as `m * 2 ^ q`, for `m` above zero. -/
def Format.shortest (f : Format) (m : Nat) (q : Int) : Digits :=
  let i := f.interval m q
  (i.search gridCount i.magnitude).stripped 400

end ControlRecords.Decimal
