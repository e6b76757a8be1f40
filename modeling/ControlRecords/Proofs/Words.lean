import ControlRecords.Record.Scalar
import ControlRecords.Register.Access
import ControlRecords.Value.Convert
import Mathlib

/-! # Bits through registers and values

A record has a word of thirty-two bits, and what it is connected to has fewer or as many.
On the way in a word is filled up, with zeros or with the sign, and on the way out it is cut
off, so that within the width of the other side no bit is ever lost or changed.  For
registers this is said of the octets in register memory, for variables of the `pattern` of
their values. -/
namespace ControlRecords

/-- The remainder of a remainder. -/
theorem toNat_emod_two_pow (n : Int) {j k : Nat} (h : j ≤ k) :
    (n % 2 ^ k).toNat % 2 ^ j = (n % 2 ^ j).toNat := by
  have divides : (2 : Int) ^ j ∣ 2 ^ k := by
    have := Int.natCast_dvd_natCast.2 (Nat.pow_dvd_pow 2 h)
    simpa using this
  have nonneg : ∀ m : Nat, (0 : Int) ≤ 2 ^ m := fun m => Int.le_of_lt (Int.pow_pos (by decide))
  have nonneg' : 0 ≤ n % 2 ^ k := Int.emod_nonneg n (Int.pow_ne_zero (by decide))
  have cut := Int.toNat_emod nonneg' (nonneg j)
  rw [Int.emod_emod_of_dvd n divides] at cut
  rw [cut]
  congr 1

/-- A bit below two widths is the same in the remainders for both. -/
theorem testBit_emod_two_pow (n : Int) {i k m : Nat} (hk : i < k) (hm : i < m) :
    (n % 2 ^ k).toNat.testBit i = (n % 2 ^ m).toNat.testBit i := by
  -- Both have the bit of the narrowest remainder that has it at all.
  have below : ∀ {k : Nat}, i < k →
      (n % 2 ^ k).toNat.testBit i = (n % 2 ^ (i + 1)).toNat.testBit i := by
    intro k h
    rw [← toNat_emod_two_pow n h, Nat.testBit_mod_two_pow]
    simp
  rw [below hk, below hm]

/-- The word for a whole number is its remainder. -/
theorem toNat_ofInt (n : Int) : (UInt32.ofInt n).toNat = (n % 2 ^ 32).toNat := by
  have nonneg : 0 ≤ n % 2 ^ 32 := Int.emod_nonneg n (by decide)
  have below : n % 2 ^ 32 < 2 ^ 32 := Int.emod_lt_of_pos n (by decide)
  rw [UInt32.ofInt, UInt32.toNat_ofNat']
  exact Nat.mod_eq_of_lt (by omega)

/-- The word for a whole number has its low bits. -/
theorem testBit_ofInt (n : Int) {i k : Nat} (hk : i < k) (h : i < 32) :
    (UInt32.ofInt n).toNat.testBit i = (n % 2 ^ k).toNat.testBit i := by
  rw [toNat_ofInt, testBit_emod_two_pow n h hk]

/-- A bit below the width is there in the remainder. -/
theorem testBit_natCast_emod (n : Nat) {i k : Nat} (h : i < k) :
    ((n : Int) % 2 ^ k).toNat.testBit i = n.testBit i := by
  have cast : ((n : Int) % 2 ^ k).toNat = n % 2 ^ k := by
    have := Int.toNat_natCast (n % 2 ^ k)
    simpa using this
  rw [cast, Nat.testBit_mod_two_pow]
  simp [h]

/-- A word has no bits beyond its width. -/
theorem lt_of_testBit {w : UInt32} {i : Nat} (h : w.toNat.testBit i = true) : i < 32 := by
  by_cases low : i < 32
  · exact low
  · have below : w.toNat < 2 ^ i :=
      Nat.lt_of_lt_of_le w.toNat_lt (Nat.pow_le_pow_right (by decide) (Nat.le_of_not_lt low))
    rw [Nat.testBit_lt_two_pow below] at h
    contradiction

/-! ## Words under a mask -/

namespace Bits

theorem testBit_not (w : UInt32) (i : Nat) :
    (~~~w).toNat.testBit i = (decide (i < 32) && !w.toNat.testBit i) := by
  show (~~~w.toBitVec).getLsbD i = _
  rw [BitVec.getLsbD_not]
  rfl

/-- **A merged word has the wanted bits under the mask, and the current ones elsewhere.** -/
theorem testBit_merge (current wanted mask : UInt32) (i : Nat) :
    (merge current wanted mask).toNat.testBit i =
      if mask.toNat.testBit i then wanted.toNat.testBit i else current.toNat.testBit i := by
  have high : ¬i < 32 → current.toNat.testBit i = false := fun h =>
    Bool.eq_false_iff.2 fun bit => h (lt_of_testBit bit)
  rw [merge, UInt32.toNat_or, UInt32.toNat_and, UInt32.toNat_and, Nat.testBit_or, Nat.testBit_and,
    Nat.testBit_and, testBit_not]
  by_cases h : i < 32
  · cases mask.toNat.testBit i <;> simp [h]
  · cases mask.toNat.testBit i <;> simp [high h]

/-- A bit of a word that is shifted to the left comes from that much further right. -/
theorem testBit_shiftLeft (w : UInt32) (n : UInt16) {i : Nat} (h : i < 32) :
    (shiftLeft w n).toNat.testBit i =
      (decide (n.toNat ≤ i) && w.toNat.testBit (i - n.toNat)) := by
  show (w.toBitVec <<< n.toNat).getLsbD i = _
  rw [BitVec.getLsbD_shiftLeft]
  by_cases shifted : n.toNat ≤ i
  · simp [h, shifted, Nat.not_lt.2 shifted]
    rfl
  · simp [h, shifted, Nat.lt_of_not_le shifted]

end Bits

/-! ## Registers -/

namespace Register.Builtin

/-- The number that the octets of a register stand for, as they lie in register memory. -/
def stored (b : Builtin) (address : Nat) (m : Memory) : Nat := b.numberOf (m.load address b.width)

/-- How many bits the register has. -/
def bits (b : Builtin) : Nat := 8 * b.width

theorem pow_width (b : Builtin) : Nat.pow 256 b.width = 2 ^ b.bits := by
  show 256 ^ b.width = 2 ^ b.bits
  rw [bits, Nat.pow_mul]

theorem bits_le (b : Builtin) : b.bits ≤ 32 := by
  cases b <;> decide

/-- The octets of a word stand for what the register can hold of it. -/
theorem numberOf_octetsOf (b : Builtin) (word : UInt32) :
    b.numberOf (b.octetsOf word) = word.toNat % 2 ^ b.bits := by
  rw [← pow_width]
  unfold numberOf octetsOf
  split
  · exact ofOctets_octets _ _
  · rw [List.reverse_reverse]
    exact ofOctets_octets _ _

/-- What is written is stored, as far as the register can hold it. -/
theorem stored_store (b : Builtin) (address : Nat) (word : UInt32) (m : Memory) :
    b.stored address (m.store address (b.octetsOf word)) = word.toNat % 2 ^ b.bits := by
  have loaded := m.load_store address (b.octetsOf word)
  rw [length_octetsOf] at loaded
  rw [stored, loaded, numberOf_octetsOf]

/-- Filling a number up changes none of the bits of the register. -/
theorem testBit_extend (b : Builtin) (n : Nat) {i : Nat} (h : i < b.bits) :
    (b.extend n).toNat.testBit i = n.testBit i := by
  have h32 : i < 32 := Nat.lt_of_lt_of_le h b.bits_le
  rw [extend, pow_width]
  split
  · have same : Int.bmod n (2 ^ b.bits) % 2 ^ b.bits = n % 2 ^ b.bits := by
      have := Int.bmod_emod (x := n) (m := 2 ^ b.bits)
      simpa using this
    rw [testBit_ofInt _ h h32, same, testBit_natCast_emod n h]
  · rw [UInt32.toNat_ofNat', Nat.testBit_mod_two_pow]
    simp [h32]

end Register.Builtin

/-! ## Values -/

namespace DataType

theorem bits_le (t : DataType) : t.bits ≤ 32 := by
  cases t <;> decide

/-- The number of an integer type that has the low bits of a whole number. -/
def wrap (t : DataType) (n : Int) : Int :=
  if t.isSigned then n.bmod (2 ^ t.bits) else n % 2 ^ t.bits

theorem wrap_emod (t : DataType) (n : Int) : t.wrap n % 2 ^ t.bits = n % 2 ^ t.bits := by
  unfold wrap
  split
  · simpa using Int.bmod_emod (x := n) (m := 2 ^ t.bits)
  · exact Int.emod_emod_of_dvd n (dvd_refl _)

/-- Numbers with the same low bits wrap to the same number. -/
theorem wrap_eq_wrap {t : DataType} {m n : Int} (same : m % 2 ^ t.bits = n % 2 ^ t.bits) :
    t.wrap m = t.wrap n := by
  have cast : ((2 ^ t.bits : Nat) : Int) = 2 ^ t.bits := by simp
  unfold wrap
  rw [same, Int.bmod_def, Int.bmod_def, cast, same]

/-- What a number wraps to lies in the range of the type. -/
theorem wrap_bounds {t : DataType} (h : t.isInteger = true) (n : Int) :
    t.least ≤ t.wrap n ∧ t.wrap n ≤ t.greatest := by
  obtain ⟨k, bits⟩ : ∃ k, t.bits = k + 1 := by
    cases t <;> first | contradiction | exact ⟨_, rfl⟩
  have double : 2 ^ (k + 1) = 2 * 2 ^ k := Nat.pow_succ'
  have positive : 0 < 2 ^ k := Nat.two_pow_pos k
  unfold wrap least greatest
  rw [bits, Nat.add_sub_cancel, Nat.shiftLeft_eq, Nat.shiftLeft_eq, Nat.one_mul, Nat.one_mul]
  split
  · have low : _ ≤ n.bmod (2 ^ (k + 1)) := Int.le_bmod (by omega)
    have high : n.bmod (2 ^ (k + 1)) < _ := Int.bmod_lt (by omega)
    omega
  · have modulus : (0 : Int) < 2 ^ (k + 1) := by positivity
    have low := Int.emod_nonneg n modulus.ne'
    have high := Int.emod_lt_of_pos n modulus
    push_cast
    omega

end DataType

namespace Value

/-- The bits of a whole number in a machine word of its type; the other types have none. -/
def pattern (v : Value) : Nat := (v.toInt?.getD 0 % 2 ^ v.type.bits).toNat

theorem pattern_of_toInt? {v : Value} {n : Int} (h : v.toInt? = some n) :
    v.pattern = (n % 2 ^ v.type.bits).toNat := by
  simp [pattern, h]

theorem pattern_ulong (w : UInt32) : (ulong w).pattern = w.toNat := by
  have below := w.toNat_lt
  show ((w.toNat : Int) % 2 ^ 32).toNat = w.toNat
  omega

/-- The value of an integer type that stands for a whole number holds it wrapped. -/
theorem toInt?_ofInt {t : DataType} (h : t.isInteger = true) (n : Int) :
    (ofInt t n).toInt? = some (t.wrap n) := by
  cases t with
  | string | float | double => contradiction
  | char => exact congrArg some Int8.toInt_ofInt
  | short => exact congrArg some Int16.toInt_ofInt
  | long => exact congrArg some Int32.toInt_ofInt
  | uchar =>
    refine congrArg some ?_
    rw [UInt8.ofInt, UInt8.toNat_ofNat']
    show _ = n % 2 ^ 8
    omega
  | ushort | enum =>
    refine congrArg some ?_
    rw [UInt16.ofInt, UInt16.toNat_ofNat']
    show _ = n % 2 ^ 16
    omega
  | ulong =>
    refine congrArg some ?_
    rw [UInt32.ofInt, UInt32.toNat_ofNat']
    show _ = n % 2 ^ 32
    omega

/-- A value of an integer type is the one that stands for the number that it holds. -/
theorem ofInt_of_toInt? {v : Value} {n : Int} (h : v.toInt? = some n) : ofInt v.type n = v := by
  cases v with
  | string | float | double => contradiction
  | char x =>
    obtain rfl := Option.some.inj h
    exact congrArg char (Int8.ofInt_toInt x)
  | short x =>
    obtain rfl := Option.some.inj h
    exact congrArg short (Int16.ofInt_toInt x)
  | long x =>
    obtain rfl := Option.some.inj h
    exact congrArg long (Int32.ofInt_toInt x)
  | uchar x =>
    obtain rfl := Option.some.inj h
    have below := x.toNat_lt
    refine congrArg uchar (UInt8.toNat_inj.1 ?_)
    rw [UInt8.ofInt, UInt8.toNat_ofNat']
    omega
  | ushort x | enum x =>
    obtain rfl := Option.some.inj h
    have below := x.toNat_lt
    have same : UInt16.ofInt x.toNat = x := by
      apply UInt16.toNat_inj.1
      rw [UInt16.ofInt, UInt16.toNat_ofNat']
      omega
    simp only [ofInt, type, same]
  | ulong x =>
    obtain rfl := Option.some.inj h
    have below := x.toNat_lt
    refine congrArg ulong (UInt32.toNat_inj.1 ?_)
    rw [UInt32.ofInt, UInt32.toNat_ofNat']
    omega

/-- The value of an integer type that stands for a whole number has its low bits. -/
theorem pattern_ofInt {t : DataType} (h : t.isInteger = true) (n : Int) :
    (ofInt t n).pattern = (n % 2 ^ t.bits).toNat := by
  rw [pattern_of_toInt? (toInt?_ofInt h n), type_ofInt, t.wrap_emod]

/-- A value of an integer type counts as the whole number that it holds. -/
theorem number_of_toInt? {v : Value} {n : Int} (h : v.toInt? = some n) :
    v.number = .ok (.whole n) := by
  cases v <;> simp_all [toInt?, number]

/-- **A value of an integer type becomes the value of another one that stands for its number.** -/
theorem convert_eq_ofInt {v : Value} {n : Int} {t : DataType} (h : v.toInt? = some n)
    (ht : t.isInteger = true) : v.convert t = .ok (ofInt t n) := by
  by_cases same : v.type = t
  · subst same
    rw [ofInt_of_toInt? h, convert_self]
  · have text : t ≠ .string := by
      rintro rfl
      contradiction
    simp [convert, same, text, number_of_toInt? h]

/-- **Between integer types a conversion always succeeds, and keeps the low bits.** -/
theorem convert_of_toInt? {v : Value} {n : Int} {t : DataType} (h : v.toInt? = some n)
    (ht : t.isInteger = true) :
    ∃ w, v.convert t = .ok w ∧ w.type = t ∧ w.pattern = (n % 2 ^ t.bits).toNat :=
  ⟨ofInt t n, convert_eq_ofInt h ht, type_ofInt t n, pattern_ofInt ht n⟩

/-- An integer value as an unsigned word: its own bits, as far as it has any. -/
theorem convert_ulong {v : Value} (h : v.type.isInteger = true) :
    ∃ w, v.convert .ulong = .ok (.ulong w) ∧
      ∀ i, i < v.type.bits → w.toNat.testBit i = v.pattern.testBit i := by
  obtain ⟨n, hn⟩ := Option.isSome_iff_exists.1 ((toInt?_isSome v).trans h)
  obtain ⟨x, hx, type, pattern⟩ := convert_of_toInt? hn (t := .ulong) rfl
  cases x with
  | ulong w =>
    refine ⟨w, hx, fun i hi => ?_⟩
    have word : w.toNat = (n % 2 ^ 32).toNat := (pattern_ulong w).symm.trans pattern
    rw [word, pattern_of_toInt? hn]
    exact testBit_emod_two_pow n (Nat.lt_of_lt_of_le hi v.type.bits_le) hi
  | _ => contradiction

/-- An unsigned word as a value of an integer type: the bits that the type has room for. -/
theorem convert_of_ulong (w : UInt32) {t : DataType} (ht : t.isInteger = true) :
    ∃ x, (ulong w).convert t = .ok x ∧ x.type = t ∧
      ∀ i, i < t.bits → x.pattern.testBit i = w.toNat.testBit i := by
  obtain ⟨x, hx, type, pattern⟩ := convert_of_toInt? (v := ulong w) (n := w.toNat) rfl ht
  refine ⟨x, hx, type, fun i hi => ?_⟩
  rw [pattern, testBit_natCast_emod w.toNat hi]

end Value

end ControlRecords
