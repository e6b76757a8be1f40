import ControlRecords.Proofs.DecimalReadings
import ControlRecords.Register.Exchange

/-! # Constants that name registers

A link that is a number is the address of a register.  The text passes through two readings: it is
taken for a constant if it is a signed literal or a decimal text, and the address is then read
from it as an unsigned literal.  A literal below `2 ^ 63` is a signed literal
(`Numeral.signedOfText?_of_literal`); octal and decimal digits are a decimal text whatever they
name (`Decimal.isSome_read?_of_digits`); but hexadecimal digits are none
(`Decimal.read?_of_mark`).  So every literal that fits is bound to its value, except for the
hexadecimal ones from `2 ^ 63` on, which are taken for links of another kind
(`constant_links_bind`). -/
namespace ControlRecords

namespace Numeral
variable {base v : Nat}

/-- A literal is a signed one too, if its value leaves room for a sign. -/
theorem signedOfText?_of_literal {s : String} (h : Literal base s.toList v) :
    signedOfText? s = if v < 2 ^ 63 then some (v : Int) else none :=
  signedOfText?_of_signedLiteral (.unsigned h)

/-- The digits of a literal that is not hexadecimal are all decimal. -/
theorem Literal.forall_isDigit {cs : List Char} (h : Literal base cs v) (short : base ≠ 16) :
    ∀ c ∈ cs, isDigit 10 c = true := by
  cases h with
  | hexadecimal => exact absurd rfl short
  | octal spells =>
    have digits := ((spells_iff (by decide)).1 spells).1
    exact List.forall_mem_cons.2
      ⟨rfl, fun c mem => isDigit_of_base_le (by decide) (digits c mem)⟩
  | decimal _ spells => exact ((spells_iff (by decide)).1 spells).1

end Numeral

namespace Decimal
open Numeral

/-- Digits alone are a decimal text. -/
theorem isSome_read?_of_digits {s : String} {c : Char} {tail : List Char}
    (split : s.toList = c :: tail) (all : ∀ c ∈ s.toList, isDigit 10 c = true) :
    (read? s).isSome = true := by
  rw [split] at all
  have digit := all c (by simp)
  have positive : sign s.toList = (false, c :: tail) := by rw [split, sign_of_isDigit digit]
  rw [read?_of_isDigit positive digit, readUnsigned?_of_digits (by simp) all]
  rfl

/-- A hexadecimal mark makes no decimal text. -/
theorem read?_of_mark {s : String} {x : Char} {tail : List Char} (mark : x = 'x' ∨ x = 'X')
    (split : s.toList = '0' :: x :: tail) : read? s = none := by
  have positive : sign s.toList = (false, '0' :: x :: tail) := by rw [split, sign_of_isDigit rfl]
  rw [read?_of_isDigit positive rfl]
  rcases mark with rfl | rfl <;> rfl

end Decimal

namespace Link
open Numeral
variable {base v : Nat} {s : String}

/-- A literal is a number in one of the two ways unless it is hexadecimal and leaves no room for
a sign. -/
theorem isNumeral_of_literal (h : Literal base s.toList v) :
    isNumeral s = true ↔ ¬(base = 16 ∧ 2 ^ 63 ≤ v) := by
  rw [isNumeral, signedOfText?_of_literal h]
  by_cases sixteen : base = 16
  · subst sixteen
    obtain ⟨x, tail, mark, split⟩ := h.exists_mark
    simp [Decimal.read?_of_mark mark split]
  · obtain ⟨c, tail, split, -⟩ := h.exists_cons
    have decimal := Decimal.isSome_read?_of_digits split (h.forall_isDigit sixteen)
    simp [decimal, sixteen]

/-- A literal is taken for a constant if it is a number, else for a link of another kind. -/
theorem ofText_of_literal (h : Literal base s.toList v) :
    ofText s = if isNumeral s then .literal s else .other s := by
  obtain ⟨c, tail, split, digit⟩ := h.exists_cons
  have first : s.toList.head? ≠ some '#' := by
    rw [split]
    rintro hash
    obtain rfl := Option.some.inj hash
    exact absurd digit (by decide)
  have nonempty : s ≠ "" := by
    rintro rfl
    simp at split
  simp only [ofText, trim_of_signedLiteral (.unsigned h), if_neg first, nonempty, false_or]

end Link

namespace Register
open Numeral

/-- The number in front of a literal is the literal's. -/
theorem leadingOfText?_of_literal {base v : Nat} {s : String} (h : Literal base s.toList v)
    (fits : v < limit) : leadingOfText? s = some v := by
  obtain ⟨c, tail, split, digit⟩ := h.exists_cons
  have nospace : isSpace c = false := by
    by_contra space
    rw [isDigit_of_isSpace (by simpa using space)] at digit
    contradiction
  have start : s.toList.dropWhile isSpace = s.toList := by
    rw [split, List.dropWhile_cons_of_neg (by simp [nospace])]
  rw [leadingOfText?, start, unsigned?_of_literal h fits]
  rfl

/-- **A number that fits names the register at its value**, accessed by the default method, with
no device and no scan list, and the record and the catalogue stay as they are.  Only a
hexadecimal literal from `2 ^ 63` on is not taken for a constant: then the link is refused and the
record stays active. -/
theorem constant_links_bind (c : Catalogue) (common : Common) (s : String) (v : Nat)
    (number : ofText? s = some v) :
    (¬(Literal 16 s.toList v ∧ 2 ^ 63 ≤ v) →
      resolveFor c (Link.ofText s) common =
        (.ok { address := v, access := .builtin .be32, device := none, scan := none,
               owner := common.handle }, c, common)) ∧
    (Literal 16 s.toList v ∧ 2 ^ 63 ≤ v →
      resolveFor c (Link.ofText s) common =
        (.error (.badLinkType s), c, { common with active := true })) := by
  obtain ⟨base, reads, fits⟩ := ofText?_eq_some_iff.1 number
  have numeral := Link.isNumeral_of_literal reads
  refine ⟨fun narrow => ?_, fun ⟨hexadecimal, great⟩ => ?_⟩
  · have constant : Link.isNumeral s = true := numeral.2 fun ⟨sixteen, great⟩ =>
      narrow ⟨sixteen ▸ reads, great⟩
    rw [Link.ofText_of_literal reads, if_pos constant, resolveFor]
    simp only [resolve, leadingOfText?_of_literal reads fits]
    rfl
  · have wide := Link.isNumeral_of_literal hexadecimal
    rw [Link.ofText_of_literal reads, if_neg fun constant => wide.1 constant ⟨rfl, great⟩]
    rfl

/-- The greatest number, in octal digits, is bound. -/
theorem greatest_octal_constant_binds :
    let greatest := "01777777777777777777777"
    ofText? greatest = some (2 ^ 64 - 1) ∧
      ¬(Literal 16 greatest.toList (2 ^ 64 - 1) ∧ 2 ^ 63 ≤ 2 ^ 64 - 1) ∧
      resolveFor {} (Link.ofText greatest) { name := "reg" } =
        (.ok { address := 2 ^ 64 - 1 }, {}, { name := "reg" }) := by
  intro greatest
  have number : ofText? greatest = some (2 ^ 64 - 1) := by decide
  have narrow : ¬(Literal 16 greatest.toList (2 ^ 64 - 1) ∧ 2 ^ 63 ≤ 2 ^ 64 - 1) := by
    rintro ⟨hexadecimal, -⟩
    obtain ⟨x, tail, mark, split⟩ := hexadecimal.exists_mark
    obtain ⟨rfl, -⟩ : '1' = x ∧ _ = tail := by simpa [greatest] using split
    exact absurd mark (by decide)
  exact ⟨number, narrow, (constant_links_bind _ _ _ _ number).1 narrow⟩

/-- The first hexadecimal number that leaves no room for a sign is refused, although it fits. -/
theorem wide_hexadecimal_constant_is_refused :
    let wide := "0x8000000000000000"
    ofText? wide = some (2 ^ 63) ∧
      resolveFor {} (Link.ofText wide) { name := "reg" } =
        (.error (.badLinkType wide), {}, { name := "reg", active := true }) := by
  exact ⟨by decide, rfl⟩

end Register

end ControlRecords
