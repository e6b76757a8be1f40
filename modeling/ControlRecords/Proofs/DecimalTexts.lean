import ControlRecords.Decimal.Positional
import ControlRecords.Proofs.DecimalReadings
import ControlRecords.Proofs.ShortestDecimals

/-! # Decimals in full

A decimal is written with all its zeros: those behind its digits if it is a whole number, those
between the point and its digits if it is small (`Digits.writing_positional`).  So the length of the
text grows with the magnitude of the decimal on either side of one, and the text has room in a
field exactly if the decimal is small enough and has few enough places
(`Digits.length_positional_le_iff`). -/
namespace ControlRecords.Decimal
open Numeral

/-- Zeros in front do not change what digits spell. -/
theorem spells_zeros {digits : List Char} {n : Nat} (h : Spells 10 digits n) (k : Nat) :
    Spells 10 (List.replicate k '0' ++ digits) n := by
  obtain ⟨all, value⟩ := (spells_iff (by decide)).1 h
  apply (spells_iff (by decide)).2
  induction k with
  | zero => exact ⟨all, value⟩
  | succ k ih =>
    rw [List.replicate_succ, List.cons_append, valueOf_zero_cons]
    exact ⟨List.forall_mem_cons.2 ⟨rfl, ih.1⟩, ih.2⟩

theorem toDigits_mul_pow {n : Nat} (positive : 0 < n) (k : Nat) :
    Nat.toDigits 10 (n * 10 ^ k) = Nat.toDigits 10 n ++ List.replicate k '0' := by
  induction k with
  | zero => simp
  | succ k ih =>
    have shift := Nat.toDigits_append_toDigits (b := 10) (n := n * 10 ^ k) (d := 0) (by decide)
      (by positivity) (by decide)
    have product : 10 * (n * 10 ^ k) + 0 = n * 10 ^ (k + 1) := by ring
    rw [product, ih, List.append_assoc] at shift
    rw [← shift, List.replicate_succ']
    rfl

namespace Digits
variable {d : Digits}

/-- A decimal in full is written with its digits and the zeros that bring the point to its place,
and with at least one digit before the point. -/
theorem writing_positional (nonzero : d.significand ≠ 0) :
    ∃ n e, Writing d.positional.toList n e ∧ (n * 10 ^ e : ℚ) = d.toRat ∧
      d.positional.toList.length =
        if 0 ≤ d.exponent then (Nat.toDigits 10 d.significand).length + d.exponent.toNat
        else max ((Nat.toDigits 10 d.significand).length + 1) ((-d.exponent).toNat + 2) := by
  have spells := spells_toDigits (by decide : 1 < 10) d.significand
  unfold positional
  dsimp only
  split
  · rename_i whole
    obtain ⟨k, exponent⟩ := Int.eq_ofNat_of_zero_le whole
    have digits := toDigits_mul_pow (Nat.pos_of_ne_zero nonzero) k
    rw [exponent, Int.toNat_natCast, String.toList_ofList, ← digits]
    refine ⟨d.significand * 10 ^ k, 0, .whole _, ?_, ?_⟩
    · rw [toRat, exponent]
      push_cast
      simp
    · rw [digits]
      simp
  · rename_i fraction
    obtain ⟨p, exponent⟩ := Int.exists_eq_neg_ofNat (Int.le_of_not_le fraction)
    rw [exponent, neg_neg, Int.toNat_natCast]
    set digits := Nat.toDigits 10 d.significand
    -- both ways, the digits around the point spell the significand, and as many stand behind it
    suffices around : ∀ {text : String} (before behind : List Char), before ≠ [] →
        text.toList = before ++ '.' :: behind → Spells 10 (before ++ behind) d.significand →
        behind.length = p → before.length + p + 1 = max (digits.length + 1) (p + 2) →
        ∃ n e, Writing text.toList n e ∧ (n * 10 ^ e : ℚ) = d.toRat ∧
          text.toList.length = max (digits.length + 1) (p + 2) by
      split
      · rename_i inside
        apply around (digits.take (digits.length - p)) (digits.drop (digits.length - p))
        · rw [← List.length_pos_iff, List.length_take]
          omega
        · simp
        · rwa [List.take_append_drop]
        · rw [List.length_drop]
          omega
        · rw [List.length_take]
          omega
      · rename_i small
        apply around ['0'] (List.replicate (p - digits.length) '0' ++ digits)
        · simp
        · simp
        · exact spells_zeros (spells_zeros spells _) 1
        · rw [List.length_append, List.length_replicate]
          omega
        · rw [List.length_singleton]
          omega
    intro text before behind nonempty split spells places length
    refine ⟨d.significand, -p, ?_, by rw [toRat, exponent], ?_⟩
    · rw [split, ← places]
      exact .point nonempty spells
    · rw [split, List.length_append, List.length_cons, places, ← length]
      rfl

/-- The decimal has room in a field of this size, with a digit before the point and the point
itself if it has places. -/
def Fits (d : Digits) (room : Nat) : Prop := d.toRat < 10 ^ room ∧ (-d.exponent).toNat + 2 ≤ room

/-- A decimal of few digits is short enough in full if it is small enough and has few enough
places. -/
theorem length_positional_le_iff (nonzero : d.significand ≠ 0) (digits : d.significand ≤ 10 ^ 17)
    {room : Nat} (enough : 20 ≤ room) : d.positional.toList.length ≤ room ↔ d.Fits room := by
  obtain ⟨-, -, -, -, length⟩ := writing_positional nonzero
  have few : (Nat.toDigits 10 d.significand).length ≤ 18 :=
    (Nat.length_toDigits_le_iff (by decide) (by decide)).2 (digits.trans_lt (by decide))
  rw [length, Fits]
  split
  · rename_i whole
    obtain ⟨k, exponent⟩ := Int.eq_ofNat_of_zero_le whole
    have size : (Nat.toDigits 10 d.significand).length + k ≤ room ↔
        d.significand * 10 ^ k < 10 ^ room := by
      rw [← Nat.length_toDigits_le_iff (by decide) (by omega),
        toDigits_mul_pow (Nat.pos_of_ne_zero nonzero)]
      simp
    have value : d.toRat < 10 ^ room ↔ d.significand * 10 ^ k < 10 ^ room := by
      rw [toRat, exponent, zpow_natCast]
      norm_cast
    have places : (-d.exponent).toNat = 0 := by omega
    rw [value, places, exponent, Int.toNat_natCast, size]
    exact (and_iff_left (by omega)).symm
  · rename_i fraction
    have small : d.toRat < 10 ^ room := by
      calc d.toRat ≤ d.significand * 10 ^ (0 : Int) := by
            rw [toRat]
            gcongr
            · norm_num
            · omega
        _ ≤ 10 ^ 17 := by
            rw [zpow_zero, mul_one]
            exact_mod_cast digits
        _ < 10 ^ room := pow_lt_pow_right₀ (by norm_num) (by omega)
    constructor
    · exact fun fits => ⟨small, by omega⟩
    · exact fun fits => by omega

end Digits

end ControlRecords.Decimal
