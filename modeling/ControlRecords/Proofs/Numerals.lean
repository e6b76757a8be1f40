import Mathlib
import ControlRecords.Numeral

/-! # Canonical numerals

The canonical name of a number is written in the first of the three notations, so it is read
back as the number that it was made from, whatever the number is (`ofText?_canonicalName`).
Different numbers have different names (`canonicalName_injective`). -/
namespace ControlRecords.Numeral

theorem digitValue?_upper {d : Nat} (h : d < 16) :
    digitValue? (Nat.digitChar d).toUpper = some d := by
  revert d
  decide

section Digits
variable {base n : Nat}

theorem upperDigits_of_lt (h : n < base) : upperDigits base n = [(Nat.digitChar n).toUpper] := by
  simp [upperDigits, Nat.toDigits_of_lt_base h]

/-- The last digit of a number is what is left of it by the base. -/
theorem upperDigits_of_le (two : 1 < base) (h : base ≤ n) :
    upperDigits base n = upperDigits base (n / base) ++ [(Nat.digitChar (n % base)).toUpper] := by
  have positive : 0 < n / base := Nat.div_pos h (by omega)
  have small : n % base < base := Nat.mod_lt n (by omega)
  have split := Nat.toDigits_append_toDigits two positive small
  rw [Nat.div_add_mod, Nat.toDigits_of_lt_base small] at split
  rw [upperDigits, ← split, List.map_append]
  rfl

theorem valueOf_append_singleton (base : Nat) (digits : List Char) (c : Char) :
    valueOf base (digits ++ [c]) = valueOf base digits * base + (digitValue? c).getD 0 := by
  simp [valueOf]

/-- The digits of a number name that number. -/
theorem valueOf_upperDigits (two : 1 < base) (sixteen : base ≤ 16) (n : Nat) :
    valueOf base (upperDigits base n) = n := by
  -- All digits but the last are those of the quotient, which is smaller.
  induction n using Nat.strong_induction_on with
  | _ n ih =>
    by_cases single : n < base
    · rw [upperDigits_of_lt single, ← List.nil_append [_], valueOf_append_singleton,
        digitValue?_upper (by omega)]
      simp [valueOf]
    · have shorter : n / base < n := Nat.div_lt_self (by omega) two
      have small : n % base < base := Nat.mod_lt n (by omega)
      rw [upperDigits_of_le two (by omega), valueOf_append_singleton, ih _ shorter,
        digitValue?_upper (by omega), Option.getD_some, Nat.div_add_mod']

theorem isDigit_upper (sixteen : base ≤ 16) {d : Nat} (h : d < base) :
    isDigit base (Nat.digitChar d).toUpper = true := by
  simp [isDigit, digitValue?_upper (show d < 16 by omega), h]

theorem isDigit_of_mem_upperDigits (two : 1 < base) (sixteen : base ≤ 16) (n : Nat) :
    ∀ c ∈ upperDigits base n, isDigit base c = true := by
  induction n using Nat.strong_induction_on with
  | _ n ih =>
    by_cases single : n < base
    · rw [upperDigits_of_lt single]
      simpa using isDigit_upper sixteen single
    · have shorter : n / base < n := Nat.div_lt_self (by omega) two
      have small : n % base < base := Nat.mod_lt n (by omega)
      rw [upperDigits_of_le two (by omega)]
      intro c hc
      rcases List.mem_append.1 hc with front | last
      · exact ih _ shorter c front
      · obtain rfl := List.mem_singleton.1 last
        exact isDigit_upper sixteen small

theorem upperDigits_ne_nil (two : 1 < base) (n : Nat) : upperDigits base n ≠ [] := by
  by_cases single : n < base
  · simp [upperDigits_of_lt single]
  · simp [upperDigits_of_le two (Nat.le_of_not_lt single)]

/-- The digits of a number that fits are read as the number, and nothing is left. -/
theorem digitsOne?_upperDigits (two : 1 < base) (sixteen : base ≤ 16) (fits : n < limit) :
    digitsOne? base (upperDigits base n) = some (n, []) := by
  have digits := isDigit_of_mem_upperDigits two sixteen n
  have all : (upperDigits base n).takeWhile (isDigit base) = upperDigits base n :=
    List.takeWhile_eq_self_iff.2 digits
  have rest : (upperDigits base n).dropWhile (isDigit base) = [] :=
    List.dropWhile_eq_nil_iff.2 digits
  simp [digitsOne?, digits?, all, rest, upperDigits_ne_nil two n, valueOf_upperDigits two sixteen n,
    fits]

end Digits

theorem toList_canonicalName (n : Nat) :
    (canonicalName n).toList = '0' :: 'x' :: upperDigits 16 n := by
  simp [canonicalName]

/-- **The canonical name of a number is read as that number.** -/
theorem ofText?_canonicalName {n : Nat} (fits : n < limit) :
    ofText? (canonicalName n) = some n := by
  simp [ofText?, toList_canonicalName, unsigned?, hexadecimal?,
    digitsOne?_upperDigits (by decide : 1 < 16) (by decide) fits, complete]

/-- **No two numbers have the same canonical name.** -/
theorem canonicalName_injective : Function.Injective canonicalName := by
  have read : Function.LeftInverse (fun s : String => valueOf 16 (s.toList.drop 2)) canonicalName :=
    fun n => by simp [toList_canonicalName, valueOf_upperDigits]
  exact read.injective

end ControlRecords.Numeral
