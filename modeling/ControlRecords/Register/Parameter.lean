import ControlRecords.Numeral
import ControlRecords.Text

/-! The parameter of a link to a register, `<base>[+<offset>][,<access>][,<scan list>]`.
The base ends at the first plus sign or comma, the offset and the access key at the next
comma, and the scan list takes whatever follows. Blanks around a piece do not count, and a
piece of nothing but blanks is absent. -/
namespace ControlRecords.Register

/-- The pieces of a parameter. -/
structure Parameter where
  base : String
  offset : Nat := 0
  access : Option String := none
  scan : Option String := none
  deriving DecidableEq, Repr

namespace Parameter

/-- The pieces as they stand between the marks. -/
structure Pieces where
  base : List Char
  offset : Option (List Char)
  access : Option (List Char)
  scan : Option (List Char)

/-- The text behind a mark, if the mark comes first. -/
def behind? (mark : Char) : List Char → Option (List Char)
  | c :: cs => if c = mark then some cs else none
  | [] => none

/-- Everything before the first comma. -/
def beforeComma (cs : List Char) : List Char := cs.takeWhile (· != ',')

/-- The first comma and everything behind it. -/
def fromComma (cs : List Char) : List Char := cs.dropWhile (· != ',')

/-- Cut a text at the marks. -/
def cut (cs : List Char) : Pieces :=
  let isMark := fun c : Char => c == '+' || c == ','
  let base := cs.takeWhile (!isMark ·)
  let rest := cs.dropWhile (!isMark ·)
  let offset := behind? '+' rest
  let rest := match offset with
    | some tail => fromComma tail
    | none => rest
  let access := behind? ',' rest
  let rest := match access with
    | some tail => fromComma tail
    | none => rest
  { base, offset := offset.map beforeComma, access := access.map beforeComma,
    scan := behind? ',' rest }

/-- A piece without its outer blanks, if anything is left. -/
def present? (piece : Option (List Char)) : Option String :=
  match piece with
  | none => none
  | some cs => if Text.trimChars cs = [] then none else some (String.ofList (Text.trimChars cs))

/-- Read a parameter. The error is the text of an offset that is no number. -/
def ofText (s : String) : Except String Parameter :=
  let pieces := cut (Text.trimChars s.toList)
  let offset : Except String Nat :=
    match pieces.offset with
    | none => .ok 0
    | some cs =>
      let body := String.ofList (Text.trimChars cs)
      match Numeral.ofText? body with
      | some n => .ok n
      | none => .error body
  match offset with
  | .error body => .error body
  | .ok offset =>
    .ok { base := String.ofList (Text.trimChars pieces.base), offset,
          access := present? pieces.access, scan := present? pieces.scan }

end Parameter

end ControlRecords.Register
