import ControlRecords.Proofs.Regions
import ControlRecords.Proofs.Words

/-! # What the octets of a register hold

The key of a built-in method says how a register lies in memory: `be` puts the most significant
octet first, `le` and `m` the least significant one, and an `s` at the end gives what is read a
sign.  A write lays the low octets of the word out in this order, and every read of these octets
puts a number together from them again: the same method finds what was written, cut off to the
width and filled up (`Builtin.read_store`), and a method of the other order finds it with its
octets reversed (`Builtin.read_store_of_opposite`).  An address that the method does not accept is
refused in both directions, and nothing is written. -/
namespace ControlRecords

/-- The octet of a word that counts multiples of 256 to the power `k`. -/
def octetOf (word : UInt32) (k : Nat) : UInt8 := UInt8.ofNat (word.toNat / 256 ^ k)

/-- Every octet of a number is found at the place that it counts for. -/
theorem getElem?_octets {n i : Nat} (h : i < n) (v : Nat) :
    (octets n v)[i]? = some (UInt8.ofNat (v / 256 ^ i)) := by
  induction n generalizing v i with
  | zero => omega
  | succ n ih =>
    cases i with
    | zero => simp [octets]
    | succ i =>
      rw [octets, List.getElem?_cons_succ, ih (by omega), Nat.div_div_eq_div_mul, Nat.pow_succ,
        Nat.mul_comm]

/-- **The octets of the word for a number are those that the number was put together from.** -/
theorem octetOf_ofOctets {bs : List UInt8} (fits : bs.length ≤ 4) (k : Nat) :
    octetOf (UInt32.ofNat (ofOctets bs)) k = (bs[k]?).getD 0 := by
  have bound : ofOctets bs < 256 ^ bs.length := ofOctets_lt bs
  have small : ofOctets bs < 2 ^ 32 := by
    have le : 256 ^ bs.length ≤ 256 ^ 4 := Nat.pow_le_pow_right (by decide) fits
    omega
  have number : (UInt32.ofNat (ofOctets bs)).toNat = ofOctets bs := by
    rw [UInt32.toNat_ofNat']
    exact Nat.mod_eq_of_lt small
  rw [octetOf, number]
  by_cases inside : k < bs.length
  · have octet := getElem?_octets inside (ofOctets bs)
    rw [octets_ofOctets] at octet
    rw [octet]
    rfl
  · -- Beyond the octets nothing is left of the number.
    have le : 256 ^ bs.length ≤ 256 ^ k :=
      Nat.pow_le_pow_right (by decide) (Nat.le_of_not_lt inside)
    have nothing : ofOctets bs / 256 ^ k = 0 :=
      Nat.div_eq_of_lt (Nat.lt_of_lt_of_le bound le)
    rw [nothing, List.getElem?_eq_none (Nat.le_of_not_lt inside)]
    rfl

theorem reverse_of_length_one {α : Type} {xs : List α} (h : xs.length = 1) : xs.reverse = xs := by
  obtain ⟨x, rfl⟩ := List.length_eq_one_iff.1 h
  rfl

namespace Register.Builtin
variable (b : Builtin)

/-- The key of the method puts the most significant octet first. -/
def namesBigEndian : Bool := "be".toList.isPrefixOf b.key.toList

/-- The key of the method gives what is read a sign. -/
def namesSign : Bool := "s".toList.isSuffixOf b.key.toList

/-- The octet of a word that lies at the `i`-th address of the register. -/
def significance (i : Nat) : Nat := if b.namesBigEndian then b.width - 1 - i else i

/-- What the register can hold of a word, filled up to a word again. -/
def extension (word : UInt32) : UInt32 :=
  let held := word.toBitVec.setWidth (8 * b.width)
  ⟨if b.namesSign then held.signExtend 32 else held.setWidth 32⟩

/-- The memory after a write, which is the memory before it if the write failed. -/
def memoryAfter (address : Nat) (word : UInt32) (m : Memory) : Memory :=
  (b.write address word m).toOption.getD m

/-! ## Orders of octets -/

/-- One octet lies in either order, so that an order matters to wider registers only. -/
theorem order_or_width :
    b.width = 1 ∨ (b.order = .bigEndian ∧ b.namesBigEndian = true) ∨
      (b.order = .littleEndian ∧ b.namesBigEndian = false) := by
  cases b <;> decide

theorem isSigned_eq : b.isSigned = b.namesSign := by
  cases b <;> decide

theorem width_le : b.width ≤ 4 := by
  cases b <;> decide

/-- The octets of a word lie in the order that the key names. -/
theorem octetsOf_eq (word : UInt32) :
    b.octetsOf word =
      if b.namesBigEndian then (octets b.width word.toNat).reverse
      else octets b.width word.toNat := by
  unfold octetsOf
  rcases b.order_or_width with one | ⟨order, named⟩ | ⟨order, named⟩
  · have same := reverse_of_length_one ((length_octets b.width word.toNat).trans one)
    cases b.order <;> simp [same]
  · simp [order, named]
  · simp [order, named]

/-- A number is put together from octets in the order that the key names. -/
theorem numberOf_eq {bytes : List UInt8} (h : bytes.length = b.width) :
    b.numberOf bytes = ofOctets (if b.namesBigEndian then bytes.reverse else bytes) := by
  unfold numberOf
  rcases b.order_or_width with one | ⟨order, named⟩ | ⟨order, named⟩
  · have same := reverse_of_length_one (h.trans one)
    cases b.order <;> simp [same]
  · simp [order, named]
  · simp [order, named]

/-- The octets at the addresses of the register, from the first on. -/
theorem getElem?_octetsOf (word : UInt32) {i : Nat} (h : i < b.width) :
    (b.octetsOf word)[i]? = some (octetOf word (b.significance i)) := by
  rw [octetsOf_eq, significance]
  cases b.namesBigEndian with
  | false => exact getElem?_octets h _
  | true =>
    have inside : i < (octets b.width word.toNat).length := by rwa [length_octets]
    rw [if_pos rfl, if_pos rfl, List.getElem?_reverse inside, length_octets]
    exact getElem?_octets (by omega) _

/-- Put together in the other order, the octets of a word are reversed. -/
theorem numberOf_octetsOf_of_opposite {o : Builtin} (width : o.width = b.width)
    (opposite : o.namesBigEndian ≠ b.namesBigEndian) (word : UInt32) :
    o.numberOf (b.octetsOf word) = ofOctets (octets b.width word.toNat).reverse := by
  have length : (b.octetsOf word).length = o.width := by rw [length_octetsOf, width]
  rw [o.numberOf_eq length, octetsOf_eq]
  cases this : b.namesBigEndian <;> cases that : o.namesBigEndian <;> simp_all

/-! ## Filling up -/

/-- A number that the register can hold is filled up as a pattern of its bits. -/
theorem extend_mod (word : UInt32) : b.extend (word.toNat % 2 ^ b.bits) = b.extension word := by
  have held : (word.toBitVec.setWidth (8 * b.width)).toNat = word.toNat % 2 ^ b.bits :=
    BitVec.toNat_setWidth ..
  rw [extend, extension, isSigned_eq]
  cases b.namesSign with
  | false =>
    apply UInt32.toNat_inj.1
    show _ = ((word.toBitVec.setWidth (8 * b.width)).setWidth 32).toNat
    rw [BitVec.toNat_setWidth, held]
    exact UInt32.toNat_ofNat'
  | true =>
    apply UInt32.toNat_inj.1
    show _ = ((word.toBitVec.setWidth (8 * b.width)).signExtend 32).toNat
    rw [BitVec.signExtend, BitVec.toInt_eq_toNat_bmod, held, BitVec.toNat_ofInt, if_pos rfl,
      toNat_ofInt, pow_width]
    rfl

/-! ## Accesses -/

/-- The method accepts the address. -/
theorem check_of_aligned {address : Nat} (nonzero : address ≠ 0)
    (aligned : address % b.width = 0) : b.check address = .ok () := by
  simp [check, nonzero, aligned]

theorem check_zero : b.check 0 = .error .nullAddress := rfl

theorem check_of_misaligned {address : Nat} (nonzero : address ≠ 0)
    (misaligned : address % b.width ≠ 0) :
    b.check address = .error (.misaligned address b.width) := by
  simp [check, nonzero, misaligned]

section Refused
variable {b} {address : Nat} {e : AccessError} (refused : b.check address = .error e)
include refused

/-- A refused address is refused in both directions, and the memory stays as it was. -/
theorem refused_accesses (word : UInt32) (m : Memory) :
    b.read address m = .error e ∧ b.write address word m = .error e ∧
      b.memoryAfter address word m = m := by
  have read : b.read address m = .error e := by rw [Builtin.read, refused]
  have write : b.write address word m = .error e := by rw [Builtin.write, refused]
  exact ⟨read, write, by rw [memoryAfter, write]; rfl⟩

end Refused

section Accepted
variable {b} {address : Nat} (accepted : b.check address = .ok ())
include accepted

theorem write_of_accepted (word : UInt32) (m : Memory) :
    b.write address word m = .ok (m.store address (b.octetsOf word)) := by
  rw [Builtin.write, accepted]

/-- What was written is read back, as far as the register can hold it. -/
theorem read_store (word : UInt32) (m : Memory) :
    b.read address (m.store address (b.octetsOf word)) = .ok (b.extension word) := by
  have number := b.stored_store address word m
  rw [stored] at number
  rw [Builtin.read, accepted]
  dsimp only
  rw [number, extend_mod]

/-- A method of the same width accepts the same addresses. -/
theorem check_of_width {o : Builtin} (width : o.width = b.width) : o.check address = .ok () := by
  rw [check, width]
  exact accepted

/-- **A method of the other order reads the octets in reverse.** -/
theorem read_store_of_opposite {o : Builtin} (width : o.width = b.width)
    (unsigned : o.namesSign = false) (opposite : o.namesBigEndian ≠ b.namesBigEndian)
    (word : UInt32) (m : Memory) :
    ∃ w, o.read address (m.store address (b.octetsOf word)) = .ok w ∧
      ∀ k, octetOf w k = if k < b.width then octetOf word (b.width - 1 - k) else 0 := by
  have loaded := m.load_store address (b.octetsOf word)
  rw [length_octetsOf] at loaded
  have fits : (octets b.width word.toNat).reverse.length ≤ 4 := by
    rw [List.length_reverse, length_octets]
    exact b.width_le
  refine ⟨UInt32.ofNat (ofOctets (octets b.width word.toNat).reverse), ?_, fun k => ?_⟩
  · rw [Builtin.read, check_of_width accepted width, width, loaded]
    dsimp only
    rw [b.numberOf_octetsOf_of_opposite width opposite, extend, isSigned_eq, unsigned]
    rfl
  · rw [octetOf_ofOctets fits]
    by_cases inside : k < b.width
    · have place : k < (octets b.width word.toNat).length := by rwa [length_octets]
      rw [if_pos inside, List.getElem?_reverse place, length_octets,
        getElem?_octets (by omega)]
      rfl
    · rw [if_neg inside, List.getElem?_eq_none (by simpa using inside)]
      rfl

end Accepted

/-- After `word` was written to the register, memory that was `before` is `after`: the octets of
the register are those of the word, all others are untouched, and reads find the word again. -/
structure Written (address : Nat) (word : UInt32) (before after : Memory) : Prop where
  /-- Each address of the register has its octet of the word. -/
  inside : ∀ i < b.width, after.octetAt (address + i) = octetOf word (b.significance i)
  outside : ∀ x, x < address ∨ address + b.width ≤ x → after.octetAt x = before.octetAt x
  /-- The same method reads what the register can hold of the word. -/
  readBack : b.read address after = .ok (b.extension word)
  /-- A method of the other order reads the octets in reverse. -/
  reversed : ∀ o : Builtin, o.width = b.width → o.namesSign = false →
    o.namesBigEndian ≠ b.namesBigEndian →
    ∃ w, o.read address after = .ok w ∧
      ∀ k, octetOf w k = if k < b.width then octetOf word (b.width - 1 - k) else 0

theorem written_store {address : Nat} (accepted : b.check address = .ok ()) (word : UInt32)
    (m : Memory) : b.Written address word m (m.store address (b.octetsOf word)) where
  inside i hi := by
    have length : (b.octetsOf word).length = b.width := b.length_octetsOf word
    have place : address + i - address < (b.octetsOf word).length := by omega
    have octet := b.getElem?_octetsOf word hi
    rw [m.octetAt_store_of_inside (Nat.le_add_right ..) place]
    rw [← Nat.add_sub_cancel_left address i, List.getElem?_eq_getElem place] at octet
    rw [Option.some.inj octet, Nat.add_sub_cancel_left]
  outside x hx := m.octetAt_store_of_outside (by rwa [length_octetsOf])
  readBack := read_store accepted word m
  reversed _ width unsigned opposite :=
    read_store_of_opposite accepted width unsigned opposite word m

/-- **The laws of register accesses.**  A method refuses address zero and every address that is no
multiple of its width, and leaves memory as it was.  At any other address, a write
lays the low octets of the word out in the order that the key of the method names and touches
nothing else; the method reads them back filled up with zeros, or with the sign if the key says so,
and every method of the same width and the other order that carries no sign reads them in
reverse. -/
theorem access_laws (b : Builtin) (address : Nat) (word : UInt32) (m : Memory) :
    (address = 0 →
      b.read address m = .error .nullAddress ∧
      b.write address word m = .error .nullAddress ∧
      b.memoryAfter address word m = m) ∧
    (address ≠ 0 → address % b.width ≠ 0 →
      b.read address m = .error (.misaligned address b.width) ∧
      b.write address word m = .error (.misaligned address b.width) ∧
      b.memoryAfter address word m = m) ∧
    (address ≠ 0 → address % b.width = 0 →
      b.write address word m = .ok (b.memoryAfter address word m) ∧
      b.Written address word m (b.memoryAfter address word m)) := by
  refine ⟨fun zero => ?_, fun nonzero misaligned => ?_, fun nonzero aligned => ?_⟩
  · subst zero
    exact refused_accesses b.check_zero word m
  · exact refused_accesses (b.check_of_misaligned nonzero misaligned) word m
  · have accepted := b.check_of_aligned nonzero aligned
    have after : b.memoryAfter address word m = m.store address (b.octetsOf word) := by
      rw [memoryAfter, write_of_accepted accepted]
      rfl
    rw [after]
    exact ⟨write_of_accepted accepted word m, b.written_store accepted word m⟩

/-- A signed register with the most significant octet first takes two octets of a word, and finds
them with the sign; the other order finds them reversed.  One address further, and at zero, nothing
is read or written. -/
theorem access_laws_be16s :
    (be16s.write 0x7FFE00000002 0x18001 .blank =
        .ok (be16s.memoryAfter 0x7FFE00000002 0x18001 .blank) ∧
      (be16s.memoryAfter 0x7FFE00000002 0x18001 .blank).octetAt 0x7FFE00000002 = 0x80 ∧
      (be16s.memoryAfter 0x7FFE00000002 0x18001 .blank).octetAt 0x7FFE00000003 = 0x01 ∧
      (be16s.memoryAfter 0x7FFE00000002 0x18001 .blank).octetAt 0x7FFE00000004 = 0 ∧
      be16s.read 0x7FFE00000002 (be16s.memoryAfter 0x7FFE00000002 0x18001 .blank) =
        .ok 0xFFFF8001 ∧
      ∃ w, le16.read 0x7FFE00000002 (be16s.memoryAfter 0x7FFE00000002 0x18001 .blank) = .ok w ∧
        octetOf w 0 = 0x80 ∧ octetOf w 1 = 0x01 ∧ octetOf w 2 = 0) ∧
    (be16s.write 0x7FFE00000003 0x18001 .blank = .error (.misaligned 0x7FFE00000003 2) ∧
      be16s.memoryAfter 0x7FFE00000003 0x18001 .blank = .blank) ∧
    be16s.write 0 0x18001 .blank = .error .nullAddress := by
  obtain ⟨-, -, aligned⟩ := access_laws .be16s 0x7FFE00000002 0x18001 .blank
  obtain ⟨-, misaligned, -⟩ := access_laws .be16s 0x7FFE00000003 0x18001 .blank
  obtain ⟨zero, -, -⟩ := access_laws .be16s 0 0x18001 .blank
  obtain ⟨write, written⟩ := aligned (by decide) (by decide)
  obtain ⟨w, read, octets⟩ := written.reversed .le16 rfl (by decide) (by decide)
  refine ⟨⟨write, ?_, ?_, ?_, written.readBack, w, read, ?_, ?_, ?_⟩,
    (misaligned (by decide) (by decide)).2, (zero rfl).2.1⟩
  · exact written.inside 0 (by decide)
  · exact written.inside 1 (by decide)
  · exact written.outside 0x7FFE00000004 (Or.inr (by decide))
  · rw [octets]; rfl
  · rw [octets]; rfl
  · rw [octets]; rfl

end Register.Builtin

end ControlRecords
