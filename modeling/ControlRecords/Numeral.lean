/-! Integer literals in the three usual notations: `0x` and hexadecimal digits, a
leading `0` and octal digits, or decimal digits. A literal is read from the front of
a text, so each reader returns the value together with the text that it left. All
values are kept below `2 ^ 64`.

`unsigned?` tries the notations in this order and takes the first that succeeds. A
notation fails when its digits name a number that does not fit, and then the next one
is tried on the same text. -/
namespace ControlRecords.Numeral

/-- The value of a digit, hexadecimal letters of either case included. -/
def digitValue? (c : Char) : Option Nat :=
  let n := c.toNat
  if 48 ≤ n ∧ n ≤ 57 then some (n - 48)
  else if 65 ≤ n ∧ n ≤ 70 then some (n - 55)
  else if 97 ≤ n ∧ n ≤ 102 then some (n - 87)
  else none

/-- The character is a digit in the base. -/
def isDigit (base : Nat) (c : Char) : Bool :=
  match digitValue? c with
  | some d => decide (d < base)
  | none => false

/-- The number that a run of digits names, most significant digit first. -/
def valueOf (base : Nat) (digits : List Char) : Nat :=
  digits.foldl (fun n c => n * base + (digitValue? c).getD 0) 0

/-- Every literal names a number below this one. -/
def limit : Nat := UInt64.size

/-- The longest run of digits in front of a text, read in the base, when its value
fits; an empty run has the value zero. -/
def digits? (base : Nat) (cs : List Char) : Option (Nat × List Char) :=
  let value := valueOf base (cs.takeWhile (isDigit base))
  if value < limit then some (value, cs.dropWhile (isDigit base)) else none

/-- As `digits?`, with at least one digit. -/
def digitsOne? (base : Nat) (cs : List Char) : Option (Nat × List Char) :=
  if (cs.takeWhile (isDigit base)).isEmpty then none else digits? base cs

/-- `0x` or `0X` and at least one hexadecimal digit. -/
def hexadecimal? : List Char → Option (Nat × List Char)
  | '0' :: 'x' :: cs => digitsOne? 16 cs
  | '0' :: 'X' :: cs => digitsOne? 16 cs
  | _ => none

/-- `0` and any number of octal digits. -/
def octal? : List Char → Option (Nat × List Char)
  | '0' :: cs => digits? 8 cs
  | _ => none

/-- At least one decimal digit. -/
def decimal? (cs : List Char) : Option (Nat × List Char) := digitsOne? 10 cs

/-- The literal in front of a text, in the first notation that reads one. -/
def unsigned? (cs : List Char) : Option (Nat × List Char) :=
  hexadecimal? cs <|> octal? cs <|> decimal? cs

/-- A sign, if there is one: whether it negates, and the text after it. -/
def sign : List Char → Bool × List Char
  | '-' :: cs => (true, cs)
  | '+' :: cs => (false, cs)
  | cs => (false, cs)

/-- The signed literal in front of a text: at most one sign, then a literal whose
value is at most the largest signed 64-bit number. -/
def signed? (cs : List Char) : Option (Int × List Char) := do
  let (negative, body) := sign cs
  let (value, rest) ← unsigned? body
  if value < limit / 2 then some (if negative then -(value : Int) else value, rest) else none

/-- The value of a reading that left nothing. -/
def complete {α : Type} (reading : Option (α × List Char)) : Option α :=
  match reading with
  | some (value, []) => some value
  | _ => none

/-- The number that a whole text names. -/
def ofText? (s : String) : Option Nat := complete (unsigned? s.toList)

/-- The signed number that a whole text names. -/
def signedOfText? (s : String) : Option Int := complete (signed? s.toList)

/-- Spaces and tabs, which may stand between the parts of a link and before a number. -/
def isSpace (c : Char) : Bool := c == ' ' || c == '\t'

/-- The number in front of a text, after spaces and tabs, whatever follows it. -/
def leadingOfText? (s : String) : Option Nat :=
  (unsigned? (s.toList.dropWhile isSpace)).map (·.1)

/-- The digits of a number in a base up to sixteen, with upper-case letters. -/
def upperDigits (base n : Nat) : List Char := (Nat.toDigits base n).map Char.toUpper

/-- The digits of a number in base sixteen with lower-case letters, after `0x`. -/
def hexText (n : Nat) : String := "0x" ++ String.ofList (Nat.toDigits 16 n)

/-- The one spelling under which a number stands for a device: `0x` and the upper-case
hexadecimal digits. -/
def canonicalName (n : Nat) : String := "0x" ++ String.ofList (upperDigits 16 n)

end ControlRecords.Numeral
