import ControlRecords.Link
import ControlRecords.Proofs.Literals

/-! # Texts of hardware links

A hardware link may be written in many ways: the letters in either case, spaces and tabs before
each of its marks, zeros in front of the numbers, and blanks around the whole (`Spelling`).  All of
them are read as the same address, and a number that has no room in 32 bits makes the text a link
of another kind (`Spelling.ofText_text`).

Writing a link puts an address into one of these ways (`Spelling.canonical`), and leaves the text
of any other link as it was read, without its outer blanks.  Blanks that were taken off once are
not there to be taken off again (`Text.trimChars_trimChars`), so a link that is written and read is
the same (`hardware_links_survive_writing`). -/
namespace ControlRecords

namespace Text

/-- A text is what stands in front of the blanks at its end. -/
theorem exists_trail (cs : List Char) : ∃ body trail, cs = body ++ trail ∧
    (∀ c ∈ trail, isBlank c = true) ∧ ∀ c ∈ body.getLast?, isBlank c = false := by
  refine ⟨(cs.reverse.dropWhile isBlank).reverse, (cs.reverse.takeWhile isBlank).reverse,
    ?_, ?_, ?_⟩
  · rw [← List.reverse_append, List.takeWhile_append_dropWhile, List.reverse_reverse]
  · exact fun c mem => List.mem_takeWhile_imp (List.mem_reverse.1 mem)
  · intro c last
    have stop := List.head?_dropWhile_not isBlank cs.reverse
    rwa [← List.getLast?_reverse, show _ = some c from last] at stop

/-- Blanks around a text do not count. -/
theorem trimChars_surrounded {lead trail : List Char} (cs : List Char)
    (before : ∀ c ∈ lead, isBlank c = true) (behind : ∀ c ∈ trail, isBlank c = true) :
    trimChars (lead ++ (cs ++ trail)) = trimChars cs := by
  have reversed : ∀ c ∈ trail.reverse, isBlank c = true := fun c mem =>
    behind c (List.mem_reverse.1 mem)
  rw [trimChars, trimChars, List.dropWhile_append_of_pos before, List.dropWhile_append]
  split
  · rename_i blank
    rw [List.isEmpty_iff.1 blank, List.dropWhile_eq_nil_iff.2 behind]
  · rw [List.reverse_append, List.dropWhile_append_of_pos reversed]

@[simp] theorem trimChars_trimChars (cs : List Char) : trimChars (trimChars cs) = trimChars cs := by
  obtain ⟨body, trail, split, behind, last⟩ := exists_trail (cs.dropWhile isBlank)
  have first : ∀ c ∈ body.head?, isBlank c = false := by
    intro c first
    have stop := List.head?_dropWhile_not isBlank cs
    rwa [split, List.head?_append, show body.head? = some c from first] at stop
  have whole : cs = cs.takeWhile isBlank ++ (body ++ trail) := by
    rw [← split, List.takeWhile_append_dropWhile]
  have trimmed : trimChars cs = body := by
    rw [whole, trimChars_surrounded body (fun c mem => List.mem_takeWhile_imp mem) behind,
      trimChars_eq_self first last]
  rw [trimmed, trimChars_eq_self first last]

@[simp] theorem trim_trim (s : String) : trim (trim s) = trim s := by
  simp [trim]

end Text

namespace Link
open Numeral

/-! The ways to write a hardware link. -/

/-- A number of a hardware link as it may be written: spaces and tabs, its letter in either case,
and decimal digits, zeros in front included. -/
structure Coordinate (upper lower : Char) (n : Nat) where
  spaces : List Char
  letter : Char
  digits : List Char
  isSpace_spaces : ∀ c ∈ spaces, isSpace c = true
  letter_cased : letter = upper ∨ letter = lower
  digits_ne_nil : digits ≠ []
  spells : Spells 10 digits n

/-- A hardware link as it may be written: the two numbers behind a `#`, and the parameter behind
an `@`, with blanks around the whole. -/
structure Spelling (card signal : Nat) (parameter : String) where
  lead : List Char
  cardPlace : Coordinate 'C' 'c' card
  signalPlace : Coordinate 'S' 's' signal
  spaces : List Char
  trail : List Char
  isBlank_lead : ∀ c ∈ lead, Text.isBlank c = true
  isSpace_spaces : ∀ c ∈ spaces, isSpace c = true
  isBlank_trail : ∀ c ∈ trail, Text.isBlank c = true

/-- The characters of a number. -/
def Coordinate.chars {upper lower : Char} {n : Nat} (p : Coordinate upper lower n) : List Char :=
  p.spaces ++ p.letter :: p.digits

namespace Spelling
variable {card signal : Nat} {parameter : String} (w : Spelling card signal parameter)

/-- Everything from the `#` to the `@`. -/
def front : List Char :=
  '#' :: (w.cardPlace.chars ++ (w.signalPlace.chars ++ (w.spaces ++ ['@'])))

/-- The text that is written. -/
def text : String := String.ofList (w.lead ++ (w.front ++ parameter.toList ++ w.trail))

end Spelling

/-! Reading what is written. -/

/-- The character is no space and no digit, so it ends a run of either. -/
def IsMark (c : Char) : Prop := isSpace c = false ∧ isDigit 10 c = false

section Reading
variable {spaces digits rest : List Char} {letter : Char} {n : Nat}

theorem afterLetter?_spaces {upper lower : Char} (blank : ∀ c ∈ spaces, isSpace c = true)
    (cased : letter = upper ∨ letter = lower) (mark : IsMark letter) :
    afterLetter? upper lower (spaces ++ letter :: rest) = some rest := by
  have stop : ∀ c ∈ (letter :: rest).head?, isSpace c = false := by
    rintro c first
    obtain rfl := Option.some.inj first
    exact mark.1
  rw [afterLetter?, Text.dropWhile_run blank stop]
  simp [cased]

/-- Behind a number there are spaces or a letter, but no digit. -/
theorem head?_spaces (blank : ∀ c ∈ spaces, isSpace c = true) (mark : IsMark letter) :
    ∀ c ∈ (spaces ++ letter :: rest).head?, isDigit 10 c = false := by
  intro c first
  cases spaces with
  | nil =>
    obtain rfl := Option.some.inj first
    exact mark.2
  | cons space tail =>
    obtain rfl := Option.some.inj first
    exact isDigit_of_isSpace (blank space (by simp))

/-- Digits are read as the number that they spell, if it has room in 32 bits. -/
theorem readIndex?_digits (nonempty : digits ≠ []) (spells : Spells 10 digits n)
    (stop : ∀ c ∈ rest.head?, isDigit 10 c = false) :
    readIndex? (digits ++ rest) = if n < 2 ^ 32 then some (.ofNat n, rest) else none := by
  obtain ⟨all, rfl⟩ := (spells_iff (by decide)).1 spells
  have room : (2 : Nat) ^ 32 ≤ limit := by decide
  rw [readIndex?, decimal?, digitsOne?_run nonempty all stop, digits?_run all stop]
  by_cases small : valueOf 10 digits < 2 ^ 32
  · rw [if_pos (by omega), if_pos small]
    exact if_pos small
  · rw [if_neg small]
    split
    · exact if_neg small
    · rfl

end Reading

namespace Coordinate
variable {upper lower : Char} {n : Nat} {rest : List Char} (p : Coordinate upper lower n)
  (upper_mark : IsMark upper) (lower_mark : IsMark lower)

include upper_mark lower_mark in
theorem isMark_letter : IsMark p.letter := by
  rcases p.letter_cased with same | same
  · rwa [same]
  · rwa [same]

include upper_mark lower_mark in
theorem afterLetter?_chars :
    afterLetter? upper lower (p.chars ++ rest) = some (p.digits ++ rest) := by
  rw [chars, List.append_assoc, List.cons_append]
  exact afterLetter?_spaces p.isSpace_spaces p.letter_cased (p.isMark_letter upper_mark lower_mark)

include upper_mark lower_mark in
theorem head?_chars : ∀ c ∈ (p.chars ++ rest).head?, isDigit 10 c = false := by
  rw [chars, List.append_assoc, List.cons_append]
  exact head?_spaces p.isSpace_spaces (p.isMark_letter upper_mark lower_mark)

end Coordinate

namespace Spelling
variable {card signal : Nat} {parameter : String} (w : Spelling card signal parameter)

/-- Behind the `@` everything is parameter, and the numbers in front of it are read if they have
room. -/
theorem readHardware?_front (cs : List Char) :
    readHardware? (w.front ++ cs) =
      if card < 2 ^ 32 ∧ signal < 2 ^ 32 then
        some ⟨.ofNat card, .ofNat signal, String.ofList (Text.trimChars cs)⟩
      else none := by
  have split : w.front ++ cs =
      '#' :: (w.cardPlace.chars ++ (w.signalPlace.chars ++ (w.spaces ++ '@' :: cs))) := by
    simp [front]
  have card_stop : ∀ c ∈ (w.signalPlace.chars ++ (w.spaces ++ '@' :: cs)).head?,
      isDigit 10 c = false := w.signalPlace.head?_chars ⟨rfl, rfl⟩ ⟨rfl, rfl⟩
  have signal_stop : ∀ c ∈ (w.spaces ++ '@' :: cs).head?, isDigit 10 c = false :=
    head?_spaces w.isSpace_spaces ⟨rfl, rfl⟩
  have card_read := readIndex?_digits w.cardPlace.digits_ne_nil w.cardPlace.spells card_stop
  have signal_read :=
    readIndex?_digits w.signalPlace.digits_ne_nil w.signalPlace.spells signal_stop
  have parameter_read : afterLetter? '@' '@' (w.spaces ++ '@' :: cs) = some cs :=
    afterLetter?_spaces w.isSpace_spaces (Or.inl rfl) ⟨rfl, rfl⟩
  rw [split, readHardware?, w.cardPlace.afterLetter?_chars ⟨rfl, rfl⟩ ⟨rfl, rfl⟩]
  simp only [Option.bind_eq_bind, Option.bind_some]
  by_cases card_room : card < 2 ^ 32
  · rw [if_pos card_room] at card_read
    simp only [card_read, Option.bind_some, w.signalPlace.afterLetter?_chars ⟨rfl, rfl⟩ ⟨rfl, rfl⟩]
    by_cases signal_room : signal < 2 ^ 32
    · rw [if_pos signal_room] at signal_read
      simp only [signal_read, Option.bind_some, parameter_read]
      rw [if_pos ⟨card_room, signal_room⟩]
    · rw [if_neg signal_room] at signal_read
      rw [signal_read, if_neg fun room => signal_room room.2]
      rfl
  · rw [if_neg card_room] at card_read
    rw [card_read, if_neg fun room => card_room room.1]
    rfl

/-- Without its outer blanks the text is what it was up to the `@`, and the parameter has lost
the blanks at its end. -/
theorem exists_trimChars_text : ∃ cs, Text.trimChars w.text.toList = w.front ++ cs ∧
    Text.trimChars cs = Text.trimChars parameter.toList := by
  obtain ⟨cs, trail, split, behind, last⟩ := Text.exists_trail parameter.toList
  have first : ∀ c ∈ (w.front ++ cs).head?, Text.isBlank c = false := by
    intro c first
    obtain rfl := Option.some.inj first
    rfl
  have front_last : w.front.getLast? = some '@' := by
    rw [front, ← List.append_assoc, ← List.append_assoc, ← List.cons_append, List.getLast?_concat]
  have last : ∀ c ∈ (w.front ++ cs).getLast?, Text.isBlank c = false := by
    intro c final
    rw [List.getLast?_append, Option.mem_def, Option.or_eq_some_iff] at final
    rcases final with final | ⟨-, final⟩
    · exact last c final
    · obtain rfl := Option.some.inj (front_last.symm.trans final)
      rfl
  have behind_all : ∀ c ∈ trail ++ w.trail, Text.isBlank c = true :=
    List.forall_mem_append.2 ⟨behind, w.isBlank_trail⟩
  have whole : w.text.toList = w.lead ++ (w.front ++ cs ++ (trail ++ w.trail)) := by
    simp [text, split]
  refine ⟨cs, ?_, ?_⟩
  · rw [whole, Text.trimChars_surrounded _ w.isBlank_lead behind_all,
      Text.trimChars_eq_self first last]
  · rw [split]
    exact (Text.trimChars_surrounded cs (List.forall_mem_nil _) behind).symm

/-- **However a hardware link is written, it is read as its address**, if both numbers have room
in 32 bits. -/
theorem ofText_text : ofText w.text =
    if card < 2 ^ 32 ∧ signal < 2 ^ 32 then
      .hardware ⟨.ofNat card, .ofNat signal, Text.trim parameter⟩
    else .other (Text.trim w.text) := by
  obtain ⟨cs, trimmed, same⟩ := w.exists_trimChars_text
  have start : (w.front ++ cs).head? = some '#' := rfl
  simp only [ofText, Text.toList_trim, trimmed, w.readHardware?_front, same]
  rw [if_pos start]
  by_cases room : card < 2 ^ 32 ∧ signal < 2 ^ 32
  · rw [if_pos room, if_pos room]
    rfl
  · rw [if_neg room, if_neg room]

end Spelling

/-! Writing a link. -/

/-- A number with its own digits behind its letter, the capital one. -/
def Coordinate.canonical (upper lower : Char) (spaces : List Char)
    (blank : ∀ c ∈ spaces, isSpace c = true) (n : Nat) : Coordinate upper lower n where
  spaces := spaces
  letter := upper
  digits := Nat.toDigits 10 n
  isSpace_spaces := blank
  letter_cased := Or.inl rfl
  digits_ne_nil := Nat.toDigits_ne_nil
  spells := spells_toDigits (by decide) n

/-- The way in which a hardware link is written, with a single space before the second number and
before the parameter. -/
def Spelling.canonical (card signal : Nat) (parameter : String) :
    Spelling card signal parameter where
  lead := []
  cardPlace := .canonical 'C' 'c' [] (by simp) card
  signalPlace := .canonical 'S' 's' [' '] (by simp [isSpace]) signal
  spaces := [' ']
  trail := []
  isBlank_lead := by simp
  isSpace_spaces := by simp [isSpace]
  isBlank_trail := by simp

theorem text_hardware (a : HardwareAddress) :
    (hardware a).text = (Spelling.canonical a.card.toNat a.signal.toNat a.parameter).text := by
  rw [← String.toList_inj]
  simp [Spelling.text, Spelling.front, Spelling.canonical, Coordinate.canonical, Coordinate.chars,
    text, Nat.toList_repr]

theorem ofText_trim (s : String) : ofText (Text.trim s) = ofText s := by
  simp only [ofText, Text.trim_trim]

/-- The parameter of an address that was read has no outer blanks. -/
theorem trim_parameter {cs : List Char} {a : HardwareAddress} (read : readHardware? cs = some a) :
    Text.trim a.parameter = a.parameter := by
  unfold readHardware? at read
  split at read
  · simp only [Option.bind_eq_bind, Option.bind_eq_some_iff] at read
    obtain ⟨_, -, _, -, _, -, _, -, parameter, -, address⟩ := read
    obtain rfl := Option.some.inj address
    simp [Text.trim]
  · contradiction

/-- What a link was read from is left of it, or it is an address whose parameter has no outer
blanks. -/
theorem text_ofText (s : String) : (ofText s).text = Text.trim s ∨
    ∃ a, ofText s = hardware a ∧ Text.trim a.parameter = a.parameter := by
  unfold ofText
  dsimp only
  split
  · split
    · rename_i a read
      exact Or.inr ⟨a, rfl, trim_parameter read⟩
    · exact Or.inl rfl
  · split <;> exact Or.inl rfl

/-- **A link that is written and read again is the same link.** -/
theorem ofText_text_ofText (s : String) : ofText (ofText s).text = ofText s := by
  rcases text_ofText s with same | ⟨a, address, trimmed⟩
  · rw [same, ofText_trim]
  · have room : a.card.toNat < 2 ^ 32 ∧ a.signal.toNat < 2 ^ 32 :=
      ⟨a.card.toNat_lt, a.signal.toNat_lt⟩
    rw [address, text_hardware, Spelling.ofText_text, if_pos room, trimmed,
      UInt32.ofNat_toNat, UInt32.ofNat_toNat]

/-- **Links survive being written, and hardware links are read exactly.**  A link that is written
and read again is the same link.  Every way to write a hardware link is read as the card, the
signal and the parameter without its outer blanks; and if one of the two numbers has no room in 32
bits, as a link of another kind with the whole text without its outer blanks. -/
theorem hardware_links_survive_writing :
    (∀ s, ofText (ofText s).text = ofText s) ∧
    ∀ (card signal : Nat) (parameter : String) (w : Spelling card signal parameter),
      ofText w.text =
        if card < 2 ^ 32 ∧ signal < 2 ^ 32 then
          .hardware ⟨.ofNat card, .ofNat signal, Text.trim parameter⟩
        else .other (Text.trim w.text) :=
  ⟨ofText_text_ofText, fun _ _ _ w => w.ofText_text⟩

example : ofText "\t# c007\ts4294967295 @ valve " = .hardware ⟨7, 4294967295, "valve"⟩ ∧
    ofText "#C4294967296 S0 @valve " = .other "#C4294967296 S0 @valve" := by decide

end Link

end ControlRecords
