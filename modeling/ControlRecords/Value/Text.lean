import ControlRecords.Decimal.Positional
import ControlRecords.Value.Basic

/-! Values as texts, and texts as values. A text field holds at most `fieldLimit` bytes
of UTF-8; `clip` shortens a text to the longest beginning of it that fits without
splitting a character. -/
namespace ControlRecords

namespace Text

/-- How many bytes a text field holds. -/
def fieldLimit : Nat := 39

/-- The longest beginning of the characters that takes at most `room` bytes. -/
def clipChars : Nat → List Char → List Char
  | _, [] => []
  | room, c :: cs => if c.utf8Size ≤ room then c :: clipChars (room - c.utf8Size) cs else []

/-- The longest beginning of a text that fits into a text field. -/
def clip (s : String) : String := String.ofList (clipChars fieldLimit s.toList)

/-- A text takes as many bytes as its first character and what follows. -/
theorem utf8ByteSize_ofList_cons (c : Char) (cs : List Char) :
    (String.ofList (c :: cs)).utf8ByteSize = c.utf8Size + (String.ofList cs).utf8ByteSize := by
  rw [← List.singleton_append, String.ofList_append, String.utf8ByteSize_append]
  simp

/-- Characters of a single byte take as many bytes as there are. -/
theorem utf8ByteSize_ofList {cs : List Char} (single : ∀ c ∈ cs, c.utf8Size = 1) :
    (String.ofList cs).utf8ByteSize = cs.length := by
  induction cs with
  | nil => rfl
  | cons c cs ih =>
    rw [utf8ByteSize_ofList_cons, single c (by simp), ih fun d mem => single d (by simp [mem]),
      List.length_cons, Nat.add_comm]

theorem clipChars_isPrefix (room : Nat) (cs : List Char) : clipChars room cs <+: cs := by
  induction cs generalizing room with
  | nil => simp [clipChars]
  | cons c cs ih =>
    simp only [clipChars]
    split
    · exact (List.prefix_cons_inj c).2 (ih _)
    · exact List.nil_prefix

theorem utf8ByteSize_clipChars_le (room : Nat) (cs : List Char) :
    (String.ofList (clipChars room cs)).utf8ByteSize ≤ room := by
  induction cs generalizing room with
  | nil => simp [clipChars]
  | cons c cs ih =>
    simp only [clipChars]
    split
    · have := ih (room - c.utf8Size)
      rw [utf8ByteSize_ofList_cons]
      omega
    · simp

/-- A beginning that takes at most `room` bytes is a beginning of what is kept. -/
theorem prefix_clipChars {front cs : List Char} {room : Nat} (begins : front <+: cs)
    (fits : (String.ofList front).utf8ByteSize ≤ room) : front <+: clipChars room cs := by
  induction cs generalizing front room with
  | nil => simpa [clipChars] using begins
  | cons c cs ih =>
    cases front with
    | nil => exact List.nil_prefix
    | cons d front =>
      obtain ⟨rfl, rest⟩ := List.cons_prefix_cons.1 begins
      rw [utf8ByteSize_ofList_cons] at fits
      rw [clipChars, if_pos (by omega)]
      exact (List.prefix_cons_inj d).2 (ih rest (by omega))

/-- A clipped text fits into a text field. -/
theorem utf8ByteSize_clip_le (s : String) : (clip s).utf8ByteSize ≤ fieldLimit :=
  utf8ByteSize_clipChars_le fieldLimit s.toList

theorem clipChars_eq_self {room : Nat} {cs : List Char}
    (h : (String.ofList cs).utf8ByteSize ≤ room) : clipChars room cs = cs := by
  induction cs generalizing room with
  | nil => rfl
  | cons c cs ih =>
    rw [utf8ByteSize_ofList_cons] at h
    rw [clipChars, if_pos (by omega), ih (by omega)]

/-- A text stays as it is exactly if it fits into a text field. -/
theorem clip_eq_self_iff {s : String} : clip s = s ↔ s.utf8ByteSize ≤ fieldLimit := by
  constructor
  · intro same
    rw [← same]
    exact utf8ByteSize_clip_le s
  · intro fits
    rw [clip, clipChars_eq_self (by rwa [String.ofList_toList]), String.ofList_toList]

end Text

namespace Value

/-- A value as it is written: a text as it stands, a whole number in decimal, any other
number as its shortest decimal in full. -/
def text : Value → String
  | string s => s
  | char n => toString n.toInt
  | uchar n => toString n.toNat
  | short n => toString n.toInt
  | ushort n => toString n.toNat
  | long n => toString n.toInt
  | ulong n => toString n.toNat
  | float x => Decimal.writeSingle x
  | double x => Decimal.writeDouble x
  | enum n => toString n.toNat

/-- The text value that holds as much of a text as fits into a text field. -/
def ofText (s : String) : Value := string (Text.clip s)

end Value

end ControlRecords
