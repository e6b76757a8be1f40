import ControlRecords.Proofs.ConversionRoutes
import ControlRecords.Proofs.DecimalTexts
import ControlRecords.Proofs.NearestNumbers

/-! # Numbers as texts

A number is written in full, without an exponent, and a text field holds 39 bytes.  That is enough
for all whole numbers, for the words for infinities and for what is no number, and for those
floating point numbers whose shortest decimal is below `10 ^ 39` and has at most 37 places, or one
digit less on both sides where a sign is written (`Format.Compact`).  The text of any other number
is cut, and with its digits the number loses its magnitude (`great_double_is_cut`).

Where the text is left in full, it names a decimal that rounds to the number that was written
(`Format.reads_write`).  Reading it gives that decimal itself, if it is an integer, or else the
double that it rounds to; for a double that is the number written (`Format.Reads.ofDouble_eq`).  So
a number becomes its text exactly if it is compact, and the text stands for the number
(`numbers_become_texts`). -/
namespace ControlRecords
open Decimal

/-- The number is the one named, with the sign, or the double that it rounds to. -/
inductive Number.Names (negative : Bool) (r : ℚ) : Number → Prop
  | whole {n : Int} (same : (n : ℚ) = if negative then -r else r) : Names negative r (.whole n)
  | real {x : Float} {m : Nat} {q : Int} (datum : ofDouble x = .finite negative m q)
      (rounds : Format.double.RoundsTo r m q) : Names negative r (.real x)

/-- A text without outer blanks is read as a literal first, and else as a decimal. -/
theorem Value.number_string {s : String} {x : Float} (trimmed : Text.trim s = s)
    (read : read? s = some x) :
    (string s).number = .ok ((Numeral.signedOfText? s).elim (.real x) .whole) := by
  unfold number
  dsimp only
  rw [trimmed, read]
  cases Numeral.signedOfText? s <;> rfl

namespace Decimal
open Numeral

/-- What is written of a decimal is read as a literal if it is one, and else as the double that
the decimal rounds to. -/
theorem Writing.number {text : String} {n m : Nat} {e q : Int} (h : Writing text.toList n e)
    (negative : Bool) (rounds : Format.double.RoundsTo (n * 10 ^ e) m q) :
    ∃ x, (Value.string (signed negative text)).number = .ok x ∧ x.Names negative (n * 10 ^ e) := by
  have trimmed := Text.trim_eq_self (h.not_isBlank negative)
  refine ⟨_, Value.number_string trimmed (h.read? negative), ?_⟩
  cases literal : signedOfText? (signed negative text) with
  | none => exact .real (ofDouble_nearest negative rounds) rounds
  | some k =>
    refine .whole ?_
    rw [signedOfText?_eq_bind, h.sign, Option.bind_eq_some_iff] at literal
    obtain ⟨v, whole, kept⟩ := literal
    obtain ⟨rfl, rfl⟩ := h.eq_of_literal whole
    split at kept
    · rw [← Option.some.inj kept]
      cases negative <;> simp
    · contradiction

namespace Format
variable {f : Format} {negative : Bool} {m : Nat} {q : Int}

/-- The number is written within a text field: its shortest decimal has room there, beside the
sign. -/
def Compact (f : Format) : Datum → Prop
  | .finite negative m q => m = 0 ∨ (f.shortest m q).Fits (if negative then 38 else 39)
  | _ => True

/-- A finite number is written as a decimal of its interval. -/
theorem write_finite (covered : f.Covered) (has : m ≠ 0 → f.Has m q) (negative : Bool) :
    ∃ text n e, f.write (.finite negative m q) = signed negative text ∧ Writing text.toList n e ∧
      (if m = 0 then (n * 10 ^ e : ℚ) = 0 else (f.interval m q).Admits (n * 10 ^ e)) ∧
      (text.toList.length ≤ (if negative then 38 else 39) ↔ f.Compact (.finite negative m q)) := by
  by_cases zero : m = 0
  · subst zero
    refine ⟨"0", 0, 0, rfl, .whole 0, by simp, ?_⟩
    cases negative <;> simp [Compact]
  · obtain ⟨admitted, nonzero, digits, -⟩ := shortest_spec covered (has zero)
    obtain ⟨n, e, written, value, -⟩ := Digits.writing_positional nonzero
    refine ⟨(f.shortest m q).positional, n, e, ?_, written, ?_, ?_⟩
    · simp [write, signed, zero]
    · rw [if_neg zero, value]
      exact admitted
    · rw [Digits.length_positional_le_iff nonzero digits (by split <;> decide), Compact]
      exact (or_iff_right zero).symm

theorem utf8ByteSize_write_le_iff (covered : f.Covered) (bits : Nat) :
    (f.write (f.decode bits)).utf8ByteSize ≤ Text.fieldLimit ↔ f.Compact (f.decode bits) := by
  cases datum : f.decode bits with
  | nan => exact iff_of_true (show "NaN".utf8ByteSize ≤ Text.fieldLimit by decide) trivial
  | infinite negative =>
    have words : ∀ b : Bool, (if b then "-inf" else "inf").utf8ByteSize ≤ Text.fieldLimit := by
      decide
    exact iff_of_true (words negative) trivial
  | finite negative m q =>
    have has := has_of_decode datum
    obtain ⟨text, n, e, eq, written, -, size⟩ := write_finite covered has negative
    have bytes : text.utf8ByteSize = text.toList.length := by
      rw [← Text.utf8ByteSize_ofList, String.ofList_toList]
      intro c mem
      rcases written.forall_mem c mem with digit | rfl
      · exact utf8Size_of_isDigit digit
      · rfl
    have sign : (if negative then "-" else "").utf8ByteSize = if negative then 1 else 0 := by
      cases negative <;> rfl
    rw [← size, eq, signed, String.utf8ByteSize_append, bytes, sign, Text.fieldLimit]
    split <;> omega

/-- What the text of a number is read as. -/
def Reads (f : Format) : Datum → Number → Prop
  | .nan, x => ∃ y, x = .real y ∧ ofDouble y = .nan
  | .infinite negative, x => ∃ y, x = .real y ∧ ofDouble y = .infinite negative
  | .finite negative m q, x => ∃ r : ℚ, f.RoundsTo r m q ∧ x.Names negative r

/-- What the text of a double is read as is that double, unless it is an integer. -/
theorem Reads.ofDouble_eq {d : Datum} {y : Float} (reads : Format.double.Reads d (.real y)) :
    ofDouble y = d := by
  cases d with
  | nan =>
    obtain ⟨x, same, datum⟩ := reads
    rwa [Number.real.inj same]
  | infinite negative =>
    obtain ⟨x, same, datum⟩ := reads
    rwa [Number.real.inj same]
  | finite negative m q =>
    obtain ⟨r, written, names⟩ := reads
    cases names with
    | real datum read =>
      obtain ⟨rfl, rfl⟩ := read.unique written
      exact datum

theorem fractionBits_pos (basic : f = .single ∨ f = .double) : 0 < f.fractionBits := by
  rcases basic with rfl | rfl <;> decide

/-- **A number in full is read back.** -/
theorem reads_write (basic : f = .single ∨ f = .double) (bits : Nat) :
    ∃ x, (Value.string (f.write (f.decode bits))).number = .ok x ∧ f.Reads (f.decode bits) x := by
  cases datum : f.decode bits with
  | nan =>
    have word : read? "NaN" = some _ := rfl
    have text : f.write .nan = "NaN" := rfl
    rw [text]
    exact ⟨_, Value.number_string rfl word, _, rfl, by decide +kernel⟩
  | infinite negative =>
    cases negative with
    | true =>
      have word : read? "-inf" = some _ := rfl
      have text : f.write (.infinite true) = "-inf" := rfl
      rw [text]
      exact ⟨_, Value.number_string rfl word, _, rfl, by decide +kernel⟩
    | false =>
      have word : read? "inf" = some _ := rfl
      have text : f.write (.infinite false) = "inf" := rfl
      rw [text]
      exact ⟨_, Value.number_string rfl word, _, rfl, by decide +kernel⟩
  | finite negative m q =>
    obtain ⟨text, n, e, eq, written, stands, -⟩ :=
      write_finite (covered_of_eq basic) (has_of_decode datum) negative
    have rounds := roundsTo_of_decode (fractionBits_pos basic) datum stands
    obtain ⟨m', q', nearest⟩ := exists_roundsTo_double basic rounds
    obtain ⟨x, read, names⟩ := written.number negative nearest
    exact ⟨x, eq ▸ read, _, rounds, names⟩

/-- The decimal rounds to the number, and no other that does has fewer places or more zeros at its
end.  Nothing is said of the least number with a leading bit, whose interval is taken too narrow. -/
structure IsShortest (f : Format) (m : Nat) (q : Int) (d : Digits) : Prop where
  rounds : f.RoundsTo d.toRat m q
  shortest : ¬(m = f.leadingBit ∧ q = f.leastExponent) → ∀ (n : Nat) e, n ≠ 0 →
    f.RoundsTo (n * 10 ^ e) m q → e ≤ d.exponent

theorem isShortest_shortest {bits : Nat} (basic : f = .single ∨ f = .double)
    (datum : f.decode bits = .finite negative m q) (nonzero : m ≠ 0) :
    f.IsShortest m q (f.shortest m q) := by
  have covered := covered_of_eq basic
  have has := has_of_decode datum nonzero
  have fraction := fractionBits_pos basic
  have stands : if m = 0 then (f.shortest m q).toRat = 0
      else (f.interval m q).Admits (f.shortest m q).toRat := by
    rw [if_neg nonzero]
    exact (shortest_spec covered has).1
  refine ⟨roundsTo_of_decode fraction datum stands, fun common n e some rounds => ?_⟩
  exact exponent_le_shortest covered has some (rounds.admits fraction nonzero common)

theorem lt_of_ten_zpow_lt {a b : Int} (h : (10 : ℚ) ^ a < 10 ^ b) : a < b :=
  (zpow_lt_zpow_iff_right₀ (by norm_num)).1 h

/-- Numbers of common magnitudes are compact. -/
theorem compact_of_lt (covered : f.Covered) (has : f.Has m q)
    (least : (10 : ℚ) ^ (-20 : Int) ≤ m * 2 ^ q) (lt : (m * 2 ^ q : ℚ) < 10 ^ 37) :
    f.Compact (.finite negative m q) := by
  obtain ⟨-, -, -, k, low, high, -, le, places⟩ := shortest_spec covered has
  have lower : -20 < k := lt_of_ten_zpow_lt (least.trans_lt high)
  have upper : k - 1 < (37 : ℕ) := lt_of_ten_zpow_lt (low.trans_lt (by exact_mod_cast lt))
  have room : 38 ≤ if negative then 38 else 39 := by split <;> decide
  refine Or.inr ⟨?_, by omega⟩
  calc (f.shortest m q).toRat ≤ 10 ^ k := le
    _ ≤ 10 ^ ((37 : ℕ) : Int) := zpow_le_zpow_right₀ (by norm_num) (by omega)
    _ = 10 ^ 37 := zpow_natCast _ _
    _ < 10 ^ (if negative then 38 else 39) := pow_lt_pow_right₀ (by norm_num) (by omega)

/-- Very great numbers have too many digits before the point, and very small ones behind it. -/
theorem not_compact_of_lt (covered : f.Covered) (has : f.Has m q)
    (extreme : (m * 2 ^ q : ℚ) < 10 ^ (-38 : Int) ∨ (10 : ℚ) ^ 39 ≤ m * 2 ^ q) :
    ¬f.Compact (.finite negative m q) := by
  obtain ⟨-, nonzero, -, k, low, high, least, greatest, -⟩ := shortest_spec covered has
  have room : (if negative then 38 else 39) ≤ 39 := by split <;> decide
  rintro (zero | ⟨small, short⟩)
  · exact absurd zero has.positive.ne'
  · rcases extreme with tiny | huge
    · have below : k - 1 < -38 := lt_of_ten_zpow_lt (low.trans_lt tiny)
      have one : (1 : ℚ) ≤ (f.shortest m q).significand := by
        exact_mod_cast Nat.one_le_iff_ne_zero.2 nonzero
      have step : (10 : ℚ) ^ (f.shortest m q).exponent ≤ 10 ^ k :=
        (le_mul_of_one_le_left (by positivity) one).trans greatest
      have finer := (zpow_le_zpow_iff_right₀ (by norm_num : (1 : ℚ) < 10)).1 step
      omega
    · have above : (39 : ℕ) < k := lt_of_ten_zpow_lt (lt_of_le_of_lt (by exact_mod_cast huge) high)
      have top : (10 : ℚ) ^ (k - 1) < 10 ^ ((if negative then 38 else 39 : ℕ) : Int) := by
        rw [zpow_natCast]
        exact least.trans_lt small
      have digits := lt_of_ten_zpow_lt top
      omega

end Format

end Decimal

namespace Value
variable {v : Value}

/-- The format of a value of a floating point type, and what its bits stand for. -/
def binary? : Value → Option (Format × Datum)
  | float x => some (.single, ofSingle x)
  | double x => some (.double, ofDouble x)
  | _ => none

/-- The text of the value has room in a text field. -/
def Compact (v : Value) : Prop := ∀ b ∈ v.binary?, b.1.Compact b.2

/-- The number is what an integer value holds, or what the text of a floating point value is read
as: of a double it is the same double, unless it is an integer. -/
structure IsReadAs (v : Value) (x : Number) : Prop where
  whole : ∀ n ∈ v.toInt?, x = .whole n
  binary : ∀ b ∈ v.binary?, b.1.Reads b.2 x
  double : ∀ y z, v = double y → x = .real z → ofDouble z = ofDouble y

/-- A number is of an integer type or of a floating point type. -/
theorem toInt?_or_binary? (number : v.type ≠ .string) :
    (∃ n, v.toInt? = some n ∧ v.binary? = none) ∨
      ∃ f bits, v.toInt? = none ∧ v.binary? = some (f, f.decode bits) ∧
        (f = .single ∨ f = .double) ∧ v.text = f.write (f.decode bits) := by
  cases v with
  | string => exact absurd rfl number
  | float x => exact Or.inr ⟨.single, x.toBits.toNat, rfl, rfl, Or.inl rfl, rfl⟩
  | double x => exact Or.inr ⟨.double, x.toBits.toNat, rfl, rfl, Or.inr rfl, rfl⟩
  | _ => exact Or.inl ⟨_, rfl, rfl⟩

/-- The text of a number has room in a text field exactly if the number is compact. -/
theorem utf8ByteSize_text_le_iff (number : v.type ≠ .string) :
    v.text.utf8ByteSize ≤ Text.fieldLimit ↔ v.Compact := by
  rcases toInt?_or_binary? number with ⟨n, holds, none⟩ | ⟨f, bits, -, some, basic, text⟩
  · have small : n.natAbs < 10 ^ 38 := (natAbs_lt_of_toInt? holds).trans (by norm_num)
    have fits := Text.clip_eq_self_iff.1 (Text.clip_toString small)
    rw [← text_of_toInt? holds] at fits
    exact iff_of_true fits (by simp [Compact, none])
  · rw [text, Format.utf8ByteSize_write_le_iff (Format.covered_of_eq basic)]
    simp [Compact, some]

/-- The text of a number in full is read as the number. -/
theorem exists_isReadAs (number : v.type ≠ .string) :
    ∃ x, (string v.text).number = .ok x ∧ v.IsReadAs x := by
  rcases toInt?_or_binary? number with ⟨n, holds, none⟩ | ⟨f, bits, none, some, basic, text⟩
  · have small : n.natAbs < 2 ^ 63 := (natAbs_lt_of_toInt? holds).trans (by norm_num)
    rw [text_of_toInt? holds]
    refine ⟨.whole n, number_toString small, by simp [holds], by simp [none], ?_⟩
    rintro y z rfl -
    contradiction
  · obtain ⟨x, read, reads⟩ := Format.reads_write basic bits
    rw [text]
    refine ⟨x, read, by simp [none], by simpa [some] using reads, ?_⟩
    rintro y z rfl rfl
    obtain ⟨rfl, datum⟩ := Prod.mk.inj (Option.some.inj some)
    rw [← datum] at reads
    exact reads.ofDouble_eq

/-- **A number becomes as much of its text as has room in a text field**, which is all of it exactly
for compact numbers.  The text has the shortest decimal that rounds to the number, and in full it is
read as the number. -/
theorem numbers_become_texts (number : v.type ≠ .string) :
    v.convert .string = .ok (string (Text.clip v.text)) ∧
      (v.convert .string = .ok (string v.text) ↔ v.Compact) ∧
      (∀ f negative m q, v.binary? = some (f, .finite negative m q) → m ≠ 0 →
        f.IsShortest m q (f.shortest m q) ∧
        ((10 : ℚ) ^ (-20 : Int) ≤ m * 2 ^ q → (m * 2 ^ q : ℚ) < 10 ^ 37 → v.Compact) ∧
        ((m * 2 ^ q : ℚ) < 10 ^ (-38 : Int) ∨ (10 : ℚ) ^ 39 ≤ m * 2 ^ q → ¬v.Compact)) ∧
      ∃ x, (string v.text).number = .ok x ∧ v.IsReadAs x := by
  have converted : v.convert .string = .ok (string (Text.clip v.text)) := by
    rw [convert, if_neg number, if_pos rfl, ofText]
  refine ⟨converted, ?_, ?_, exists_isReadAs number⟩
  · rw [converted, ← utf8ByteSize_text_le_iff number, ← Text.clip_eq_self_iff]
    simp
  · intro f negative m q binary nonzero
    rcases toInt?_or_binary? number with ⟨n, -, none⟩ | ⟨g, bits, -, some, basic, -⟩
    · rw [none] at binary
      contradiction
    · rw [some, Option.some.injEq, Prod.mk.injEq] at binary
      obtain ⟨rfl, datum⟩ := binary
      have compact : v.Compact ↔ g.Compact (.finite negative m q) := by
        simp [Compact, some, datum]
      have covered := Format.covered_of_eq basic
      have has := Format.has_of_decode datum nonzero
      rw [compact]
      exact ⟨Format.isShortest_shortest basic datum nonzero, Format.compact_of_lt covered has,
        Format.not_compact_of_lt covered has⟩

/-- A tenth is written with one place, which has room in a text field, and is read back. -/
theorem tenth_becomes_a_text :
    let tenth := double 0.1
    tenth.type ≠ .string ∧ tenth.convert .string = .ok (string "0.1") ∧ tenth.Compact ∧
      ∃ x, (string "0.1").number = .ok x ∧ tenth.IsReadAs x := by
  intro tenth
  have number : tenth.type ≠ .string := by decide
  have text : tenth.text = "0.1" := by decide +kernel
  obtain ⟨converted, compact, -, read⟩ := numbers_become_texts number
  rw [text] at converted compact read
  have short : Text.clip "0.1" = "0.1" := by decide +kernel
  rw [short] at converted
  exact ⟨number, converted, compact.1 converted, read⟩

/-- A double next to `10 ^ 39` is written with one zero more than a text field holds; it becomes the
text of a tenth of it, and is read as a tenth. -/
theorem great_double_is_cut :
    let great := Float.ofBits 0x48078287F49C4A1D
    let tenth := Float.ofBits 0x47D2CED32A16A1B1
    let cut := "100000000000000000000000000000000000000"
    (double great).text = "1000000000000000000000000000000000000000" ∧
      (double great).convert .string = .ok (string cut) ∧
      (double great).convert .string ≠ .ok (string (double great).text) ∧
      (string cut).number = .ok (.real tenth) ∧
      ofDouble great = .finite false 0x178287F49C4A1D 77 ∧
      ofDouble tenth = .finite false 0x12CED32A16A1B1 74 ∧
      (9 * (0x12CED32A16A1B1 * 2 ^ (74 : Int)) : ℚ) < 0x178287F49C4A1D * 2 ^ (77 : Int) := by
  intro great tenth cut
  have text : (double great).text = "1000000000000000000000000000000000000000" := by
    decide +kernel
  have clipped : Text.clip (double great).text = cut := by
    rw [text]
    decide +kernel
  have converted : (double great).convert .string = .ok (string (Text.clip (double great).text)) :=
    rfl
  have digits : Nat.toDigits 10 (10 ^ 38) = cut.toList := by decide +kernel
  have written : Writing cut.toList (10 ^ 38) 0 := digits ▸ .whole (10 ^ 38)
  have trimmed : Text.trim cut = cut := Text.trim_eq_self (written.not_isBlank false)
  have read : read? cut = some tenth := by
    have bits : nearest (10 ^ 38) 0 = 0x47D2CED32A16A1B1 := by decide +kernel
    have reads := written.read? false
    rw [bits] at reads
    exact reads
  have literal : Numeral.signedOfText? cut = none := by decide +kernel
  refine ⟨text, ?_, ?_, ?_, by decide +kernel, by decide +kernel, by norm_num⟩
  · rw [converted, clipped]
  · rw [converted, clipped, text]
    simp [cut]
  · rw [number_string trimmed read, literal]
    rfl

end Value

end ControlRecords
