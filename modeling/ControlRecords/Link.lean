import ControlRecords.Decimal.Reading
import ControlRecords.Numeral
import ControlRecords.Text

/-! Hardware links, the texts by which records name what they are connected to. A link
to hardware is written `#C<card> S<signal> @<parameter>`; a number, or nothing, is a
constant; and everything else is a link of some other kind, kept as it stands. -/
namespace ControlRecords

/-- A card, a signal on it, and a text for the device that has them. -/
structure HardwareAddress where
  card : UInt32
  signal : UInt32
  parameter : String
  deriving DecidableEq, Repr

/-- A link of a record. -/
inductive Link where
  /-- A number as it was written, or the empty text. -/
  | literal (text : String)
  | hardware (address : HardwareAddress)
  | other (text : String)
  deriving DecidableEq, Repr

namespace Link

/-- The empty constant. -/
instance : Inhabited Link := ⟨literal ""⟩

/-- The 32-bit number in front of a text, in decimal. -/
def readIndex? (cs : List Char) : Option (UInt32 × List Char) := do
  let (n, rest) ← Numeral.decimal? cs
  if n < UInt32.size then some (UInt32.ofNat n, rest) else none

/-- The text behind a letter of either case, after spaces and tabs. -/
def afterLetter? (upper lower : Char) (cs : List Char) : Option (List Char) :=
  match cs.dropWhile Numeral.isSpace with
  | c :: rest => if c = upper ∨ c = lower then some rest else none
  | [] => none

/-- The hardware address that a text names. -/
def readHardware? : List Char → Option HardwareAddress
  | '#' :: cs => do
    let (card, cs) ← readIndex? (← afterLetter? 'C' 'c' cs)
    let (signal, cs) ← readIndex? (← afterLetter? 'S' 's' cs)
    let parameter ← afterLetter? '@' '@' cs
    some ⟨card, signal, String.ofList (Text.trimChars parameter)⟩
  | _ => none

/-- The text is a number, in either of the two ways to write one. -/
def isNumeral (s : String) : Bool :=
  (Numeral.signedOfText? s).isSome || (Decimal.read? s).isSome

/-- The link that a text names. Blanks at its ends do not count. A text that starts with
`#` names hardware or is a link of some other kind. -/
def ofText (s : String) : Link :=
  let body := Text.trim s
  if body.toList.head? = some '#' then
    match readHardware? body.toList with
    | some address => hardware address
    | none => other body
  else if body = "" ∨ isNumeral body then literal body
  else other body

/-- A link as it is written, with a single space before the signal and before the
parameter. -/
def text : Link → String
  | literal s => s
  | hardware a =>
    "#C" ++ toString a.card.toNat ++ " S" ++ toString a.signal.toNat ++ " @" ++ a.parameter
  | other s => s

end Link

end ControlRecords
