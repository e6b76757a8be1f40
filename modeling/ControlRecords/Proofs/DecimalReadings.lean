import ControlRecords.Decimal.Reading
import ControlRecords.Proofs.SignedLiterals

/-! # Decimals that are read

A decimal in full is written with digits alone, or with digits and a point among them
(`Writing`).  It starts with a digit, so it is none of the words for infinities and for what is no
number, and nothing is left behind its digits: it is read as the number nearest to it, with its
sign (`Writing.read?`).  Where the text is an integer literal as well, the literal names the same
number (`Writing.eq_of_literal`). -/
namespace ControlRecords.Decimal
open Numeral

/-- Digits alone are a decimal without places. -/
theorem readUnsigned?_of_digits {cs : List Char} (nonempty : cs ≠ [])
    (all : ∀ c ∈ cs, isDigit 10 c = true) : readUnsigned? cs = some ⟨cs, 0, 0⟩ := by
  have whole : cs.takeWhile isDecimalDigit = cs := List.takeWhile_eq_self_iff.2 all
  have rest : cs.dropWhile isDecimalDigit = [] := List.dropWhile_eq_nil_iff.2 all
  simp [readUnsigned?, whole, rest, nonempty, readExponent?]

/-- Digits before and behind a point are a decimal with as many places as stand behind it. -/
theorem readUnsigned?_of_point {whole fraction : List Char} (nonempty : whole ≠ [])
    (all : ∀ c ∈ whole ++ fraction, isDigit 10 c = true) :
    readUnsigned? (whole ++ '.' :: fraction) = some ⟨whole ++ fraction, fraction.length, 0⟩ := by
  have before : ∀ c ∈ whole, isDecimalDigit c = true := fun c mem => all c (by simp [mem])
  have behind : ∀ c ∈ fraction, isDecimalDigit c = true := fun c mem => all c (by simp [mem])
  have stop : ∀ c ∈ ('.' :: fraction).head?, isDecimalDigit c = false := by
    intro c first
    obtain rfl := Option.some.inj first
    rfl
  have run : fraction.takeWhile isDecimalDigit = fraction := List.takeWhile_eq_self_iff.2 behind
  have rest : fraction.dropWhile isDecimalDigit = [] := List.dropWhile_eq_nil_iff.2 behind
  simp [readUnsigned?, Text.takeWhile_run before stop, Text.dropWhile_run before stop, run, rest,
    nonempty, readExponent?]

/-- A text whose first character behind the sign is a digit is none of the words. -/
theorem read?_of_isDigit {s : String} {negative : Bool} {c : Char} {tail : List Char}
    (split : sign s.toList = (negative, c :: tail)) (digit : isDigit 10 c = true) :
    read? s = (readUnsigned? (c :: tail)).map fun r => doubleOf negative r.bits := by
  have lower : c.toLower ≠ 'i' ∧ c.toLower ≠ 'n' := by
    obtain ⟨d, small, writes⟩ := (isDigit_iff (by decide)).1 digit
    have table : ∀ d < 10, (Nat.digitChar d).toLower ≠ 'i' ∧ (Nat.digitChar d).toLower ≠ 'n' ∧
        (Nat.digitChar d).toUpper.toLower ≠ 'i' ∧ (Nat.digitChar d).toUpper.toLower ≠ 'n' := by
      decide
    obtain ⟨one, two, three, four⟩ := table d small
    rcases writes with rfl | rfl
    · exact ⟨one, two⟩
    · exact ⟨three, four⟩
  have word : ∀ w : String, (w.toList.head? = some 'i' ∨ w.toList.head? = some 'n') →
      String.ofList ((c :: tail).map Char.toLower) ≠ w := by
    rintro w first rfl
    simp [lower.1, lower.2] at first
  simp only [read?, split, readMagnitude?]
  rw [if_neg, if_neg (word "nan" (Or.inr rfl)), Option.map_map]
  · rfl
  · rintro (infinite | infinite)
    · exact word "inf" (Or.inl rfl) infinite
    · exact word "infinity" (Or.inl rfl) infinite

/-- The characters write the decimal `n * 10 ^ e`: the digits of a whole number, or digits with a
point among them. -/
inductive Writing : List Char → Nat → Int → Prop
  | whole (n : Nat) : Writing (Nat.toDigits 10 n) n 0
  | point {whole fraction : List Char} {n : Nat} (nonempty : whole ≠ [])
      (spells : Spells 10 (whole ++ fraction) n) :
      Writing (whole ++ '.' :: fraction) n (-fraction.length)

/-- The sign, if there is one, in front of a text. -/
def signed (negative : Bool) (text : String) : String := (if negative then "-" else "") ++ text

theorem toList_signed (negative : Bool) (text : String) :
    (signed negative text).toList = if negative then '-' :: text.toList else text.toList := by
  cases negative <;> simp [signed]

namespace Writing
variable {cs : List Char} {text : String} {n : Nat} {e : Int}

/-- The digits are taken whole, with as many places as stand behind the point. -/
theorem readUnsigned? (h : Writing cs n e) :
    ∃ r, Decimal.readUnsigned? cs = some r ∧ r.bits = nearest n e := by
  cases h with
  | whole n =>
    obtain ⟨all, value⟩ := (spells_iff (by decide)).1 (spells_toDigits (by decide : 1 < 10) n)
    exact ⟨_, readUnsigned?_of_digits Nat.toDigits_ne_nil all, by rw [Reading.bits, value]; rfl⟩
  | point nonempty spells =>
    obtain ⟨all, value⟩ := (spells_iff (by decide)).1 spells
    exact ⟨_, readUnsigned?_of_point nonempty all, by rw [Reading.bits, value, Int.zero_sub]⟩

/-- Only digits and points are written. -/
theorem forall_mem (h : Writing cs n e) : ∀ c ∈ cs, isDigit 10 c = true ∨ c = '.' := by
  cases h with
  | whole n =>
    obtain ⟨all, -⟩ := (spells_iff (by decide)).1 (spells_toDigits (by decide : 1 < 10) n)
    exact fun c mem => Or.inl (all c mem)
  | point nonempty spells =>
    obtain ⟨all, -⟩ := (spells_iff (by decide)).1 spells
    intro c mem
    rcases List.mem_append.1 mem with before | behind
    · exact Or.inl (all c (by simp [before]))
    · rcases List.mem_cons.1 behind with rfl | behind
      · exact Or.inr rfl
      · exact Or.inl (all c (by simp [behind]))

theorem exists_cons (h : Writing cs n e) : ∃ c tail, cs = c :: tail ∧ isDigit 10 c = true := by
  cases h with
  | whole n =>
    obtain ⟨base, reads⟩ := literal_toDigits n
    exact reads.exists_cons
  | point nonempty spells =>
    obtain ⟨c, tail, rfl⟩ := List.exists_cons_of_ne_nil nonempty
    exact ⟨c, _, rfl, ((spells_iff (by decide)).1 spells).1 c (by simp)⟩

theorem sign (h : Writing text.toList n e) (negative : Bool) :
    Numeral.sign (signed negative text).toList = (negative, text.toList) := by
  rw [toList_signed]
  cases negative with
  | true => rfl
  | false =>
    obtain ⟨c, tail, split, digit⟩ := h.exists_cons
    rw [split]
    exact sign_of_isDigit digit

theorem not_isBlank (h : Writing text.toList n e) (negative : Bool) :
    ∀ c ∈ (signed negative text).toList, Text.isBlank c = false := by
  have plain : ∀ c ∈ text.toList, Text.isBlank c = false := by
    intro c mem
    rcases h.forall_mem c mem with digit | rfl
    · exact isBlank_of_isLiteralChar (Or.inl (isDigit_of_base_le (by decide) digit))
    · rfl
  rw [toList_signed]
  cases negative with
  | true => exact List.forall_mem_cons.2 ⟨rfl, plain⟩
  | false => exact plain

/-- **What is written of a decimal is read as the number nearest to it.** -/
theorem read? (h : Writing text.toList n e) (negative : Bool) :
    Decimal.read? (signed negative text) = some (doubleOf negative (nearest n e)) := by
  obtain ⟨c, tail, split, digit⟩ := h.exists_cons
  obtain ⟨r, reading, bits⟩ := h.readUnsigned?
  have signs := h.sign negative
  rw [split] at signs reading
  rw [read?_of_isDigit signs digit, reading, Option.map_some, bits]

/-- Where the text is a literal too, it names the decimal: with a point there is none. -/
theorem eq_of_literal (h : Writing cs n e) {v : Nat} (whole : complete (unsigned? cs) = some v) :
    n = v ∧ e = 0 := by
  cases h with
  | whole n =>
    obtain ⟨base, reads⟩ := literal_toDigits n
    rw [complete_unsigned?_of_literal reads] at whole
    split at whole
    · exact ⟨Option.some.inj whole, rfl⟩
    · contradiction
  | point =>
    obtain ⟨base, reads, -⟩ := unsigned?_eq_some_nil_iff.1 (complete_eq_some_iff.1 whole)
    rcases reads.forall_mem '.' (by simp) with digit | mark | mark <;> contradiction

end Writing

end ControlRecords.Decimal
