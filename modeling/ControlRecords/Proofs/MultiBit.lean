import ControlRecords.Proofs.Accesses
import ControlRecords.Proofs.MaskedPass

/-! # Values of several bits

A multi-bit value lies under a mask at some place of a word.  `Bits.testBit_place` says which
bits are under the mask, `Bits.testBit_state` what is taken from there, and a word to which its
own state is written back is the same word, but for the bits that a state of sixteen bits has no
room for (`Bits.merge_state`).

How the state is exchanged is the same for all records with bits of their own: a pass reads the
word, notes it, and writes it with the record's bits replaced.  This is said here of the fields
and of the target at once, whatever the access is and whether or not the write is admitted
(`Record.pass_into_register`, `Record.pass_into_variable`). -/
namespace ControlRecords

namespace Bits

/-- Words with the same bits are the same. -/
theorem eq_of_testBit {v w : UInt32} (h : ∀ i < 32, v.toNat.testBit i = w.toNat.testBit i) :
    v = w := by
  apply UInt32.toNat_inj.1
  apply Nat.eq_of_testBit_eq
  intro i
  by_cases below : i < 32
  · exact h i below
  · have none : ∀ u : UInt32, u.toNat.testBit i = false := fun u =>
      Bool.eq_false_iff.2 fun bit => below (lt_of_testBit bit)
    rw [none, none]

theorem testBit_ones {i : Nat} (h : i < 32) : (0xFFFFFFFF : UInt32).toNat.testBit i = true := by
  show (2 ^ 32 - 1).testBit i = true
  rw [Nat.testBit_two_pow_sub_one]
  exact decide_eq_true h

/-- A bit of a word that is shifted to the right comes from that much further left. -/
theorem testBit_shiftRight (w : UInt32) (n : UInt16) (i : Nat) :
    (shiftRight w n).toNat.testBit i = w.toNat.testBit (n.toNat + i) := by
  show (w.toBitVec >>> n.toNat).toNat.testBit i = _
  rw [BitVec.toNat_ushiftRight, Nat.testBit_shiftRight]
  rfl

theorem testBit_low (n : UInt16) {i : Nat} (h : i < 32) :
    (low n).toNat.testBit i = decide (i < n.toNat) := by
  show ((1#32 <<< n.toNat) - 1#32).toNat.testBit i = _
  by_cases small : n.toNat < 32
  · have one : (1#32 <<< n.toNat).toNat = 2 ^ n.toNat := by
      have below : 2 ^ n.toNat < 2 ^ 32 := Nat.pow_lt_pow_right (by decide) small
      rw [BitVec.toNat_shiftLeft, Nat.shiftLeft_eq]
      simpa using Nat.mod_eq_of_lt below
    have positive : 1#32 ≤ 1#32 <<< n.toNat := by
      rw [BitVec.le_def, one]
      exact Nat.one_le_two_pow
    rw [BitVec.toNat_sub_of_le positive, one]
    exact Nat.testBit_two_pow_sub_one _ _
  · -- The one is shifted out, and zero less one has all bits.
    have gone : 1#32 <<< n.toNat = 0#32 := BitVec.shiftLeft_eq_zero (Nat.le_of_not_lt small)
    have inside : i < n.toNat := by omega
    rw [gone, decide_eq_true inside]
    exact testBit_ones h

/-- **The mask at its place covers the record's bits, or all from there on if it has none.** -/
theorem testBit_place (n shift : UInt16) {i : Nat} (h : i < 32) :
    (place (low n) n shift).toNat.testBit i =
      (decide (shift.toNat ≤ i) && (decide (n = 0) || decide (i - shift.toNat < n.toNat))) := by
  have below : i - shift.toNat < 32 := Nat.lt_of_le_of_lt (Nat.sub_le _ _) h
  rw [place, testBit_shiftLeft _ _ h]
  congr 1
  split
  · rename_i none
    rw [testBit_ones below]
    simp [none]
  · rename_i some
    simp [some, testBit_low n below]

theorem le_of_testBit_place {n shift : UInt16} {i : Nat}
    (h : (place (low n) n shift).toNat.testBit i = true) : shift.toNat ≤ i := by
  rw [testBit_place _ _ (lt_of_testBit h), Bool.and_eq_true, decide_eq_true_eq] at h
  exact h.1

/-- **A state has sixteen bits, and takes them from under the mask.** -/
theorem testBit_state (raw mask : UInt32) (shift : UInt16) (i : Nat) :
    (state raw mask shift).toNat.testBit i = (decide (i < 16) &&
      (raw.toNat.testBit (shift.toNat + i) && mask.toNat.testBit (shift.toNat + i))) := by
  rw [state, UInt32.toNat_toUInt16, Nat.testBit_mod_two_pow, testBit_shiftRight, UInt32.toNat_and,
    Nat.testBit_and]

/-- **The state is the number that stands in the bits of the word under the mask.** -/
theorem state_place {n shift : UInt16} {w : UInt32} {value : Nat} (positive : 0 < n.toNat)
    (small : n.toNat ≤ 16) (inside : n.toNat + shift.toNat ≤ 32)
    (same : ∀ i < n.toNat, w.toNat.testBit (shift.toNat + i) = value.testBit i) :
    state w (place (low n) n shift) shift = UInt16.ofNat (value % 2 ^ n.toNat) := by
  have some : n ≠ 0 := by
    rintro rfl
    exact absurd positive (by decide)
  have below : value % 2 ^ n.toNat < 2 ^ 16 :=
    Nat.lt_of_lt_of_le (Nat.mod_lt _ (Nat.two_pow_pos _)) (Nat.pow_le_pow_right (by decide) small)
  apply UInt16.toNat_inj.1
  rw [UInt16.toNat_ofNat', Nat.mod_eq_of_lt below]
  apply Nat.eq_of_testBit_eq
  intro i
  rw [testBit_state, Nat.testBit_mod_two_pow]
  by_cases own : i < n.toNat
  · have far : shift.toNat + i < 32 := by omega
    have near : i < 16 := by omega
    rw [same i own, testBit_place _ _ far]
    simp [own, near]
  · have outside : (place (low n) n shift).toNat.testBit (shift.toNat + i) = false := by
      rw [Bool.eq_false_iff]
      intro bit
      rw [testBit_place _ _ (lt_of_testBit bit)] at bit
      simp [some, own] at bit
    rw [outside, decide_eq_false own]
    simp

/-! ## Writing a state back -/

/-- The bits under a mask that a state has no room for: those that lie sixteen places and more
beyond the shift. -/
def overhang (mask : UInt32) (shift : UInt16) : UInt32 :=
  mask &&& shiftLeft (shiftLeft 0xFFFFFFFF 16) shift

theorem testBit_overhang (mask : UInt32) (shift : UInt16) {i : Nat} (h : i < 32) :
    (overhang mask shift).toNat.testBit i =
      (mask.toNat.testBit i && decide (shift.toNat + 16 ≤ i)) := by
  have below : i - shift.toNat < 32 := Nat.lt_of_le_of_lt (Nat.sub_le _ _) h
  have below' : i - shift.toNat - (16 : UInt16).toNat < 32 :=
    Nat.lt_of_le_of_lt (Nat.sub_le _ _) below
  rw [overhang, UInt32.toNat_and, Nat.testBit_and, testBit_shiftLeft _ _ h,
    testBit_shiftLeft _ _ below, testBit_ones below', Bool.and_true, ← Bool.decide_and]
  congr 1
  apply decide_eq_decide.2
  show shift.toNat ≤ i ∧ 16 ≤ i - shift.toNat ↔ _
  omega

/-- **A word to which its own state is written back loses the overhang.** -/
theorem merge_state {mask : UInt32} {shift : UInt16}
    (placed : ∀ i, mask.toNat.testBit i = true → shift.toNat ≤ i) (w : UInt32) :
    merge w (shiftLeft (state w mask shift).toUInt32 shift) mask =
      w &&& ~~~overhang mask shift := by
  apply eq_of_testBit
  intro i h
  rw [testBit_merge, UInt32.toNat_and, Nat.testBit_and, testBit_not, testBit_overhang _ _ h,
    decide_eq_true h, Bool.true_and]
  by_cases under : mask.toNat.testBit i = true
  · have far := placed i under
    have back : shift.toNat + (i - shift.toNat) = i := Nat.add_sub_cancel' far
    have room : decide (i - shift.toNat < 16) = !decide (shift.toNat + 16 ≤ i) := by
      rw [← decide_not]
      apply decide_eq_decide.2
      omega
    rw [if_pos under, testBit_shiftLeft _ _ h, UInt16.toNat_toUInt32, testBit_state, back, under,
      room, decide_eq_true far, Bool.true_and, Bool.true_and, Bool.and_true, Bool.and_comm]
  · rw [if_neg under]
    simp [under]

/-- A word is kept if it has none of the bits that are lost. -/
theorem and_not_of_and_eq_zero {w lost : UInt32} (none : w &&& lost = 0) : w &&& ~~~lost = w := by
  apply eq_of_testBit
  intro i h
  have apart : (w.toNat.testBit i && lost.toNat.testBit i) = false := by
    rw [← Nat.testBit_and, ← UInt32.toNat_and, none]
    exact Nat.zero_testBit i
  rw [UInt32.toNat_and, Nat.testBit_and, testBit_not, decide_eq_true h, Bool.true_and]
  revert apart
  cases w.toNat.testBit i <;> simp

/-- Up to sixteen bits fit in a state, and so does all that lies sixteen places to the left. -/
theorem overhang_place {n shift : UInt16}
    (narrow : (0 < n.toNat ∧ n.toNat ≤ 16) ∨ 16 ≤ shift.toNat) :
    overhang (place (low n) n shift) shift = 0 := by
  apply eq_of_testBit
  intro i h
  have zero : (0 : UInt32).toNat.testBit i = false := Nat.zero_testBit i
  rw [testBit_overhang _ _ h, testBit_place _ _ h, zero]
  rcases narrow with ⟨positive, small⟩ | far
  · have some : n ≠ 0 := by
      rintro rfl
      exact absurd positive (by decide)
    simp only [some, decide_false, Bool.false_or, Bool.and_eq_false_iff, decide_eq_false_iff_not]
    omega
  · have below : ¬shift.toNat + 16 ≤ i := by omega
    rw [decide_eq_false below, Bool.and_false]

end Bits

/-! ## Passes that merge -/

theorem Register.registers_send (b : Binding) (r : Record) (word : UInt32) (t : Registers) :
    (send b r word t).target = (b.write word t).toOption.getD t := by
  unfold send
  cases b.write word t <;> rfl

theorem Register.body_send (b : Binding) (r : Record) (word : UInt32) (t : Registers) :
    (send b r word t).record.body = r.body := by
  unfold send
  split <;> rfl

/-- A write does not touch the fields of a record. -/
theorem Variable.body_giveOut (b : Binding) (r : Record) (v : Variable) :
    (giveOut b r v).record.body = r.body := by
  have delivered : ∀ (q : Record) (w : Variable), (deliver b q w).record.body = q.body := by
    intro q w
    unfold deliver
    split
    · rfl
    · split <;> rfl
  cases gave_giveOut b r v with
  | second _ same =>
    rw [same]
    rfl
  | refused _ _ same =>
    rw [same]
    rfl
  | admitted _ _ same =>
    rw [same, delivered]
    rfl

/-- A record with bits of its own gives its raw value. -/
theorem Variable.given?_of_merges {b : Binding} {r : Record} {support : ScalarSupport} {s : Scalar}
    (body : r.body = .scalar support s) (merges : s.merges = true) (field : b.field = .rval)
    (v : Variable) : v.given? b r =
      if v.admits b r then ((Value.ulong s.word).convert v.type).toOption else none := by
  have got : (r.setActive b.flags.asynchronous).get? b.field = some (.ulong s.word) := by
    have own : (r.setActive b.flags.asynchronous).body = .scalar support s := body
    simp only [Record.get?, field, own, Body.get?, Scalar.get?_rval merges]
    rfl
  simp only [given?, got, Option.bind_some]

/-- A pass leaves a record that writes with the fields that the exchange gave it. -/
theorem Record.body_process_of_output {r : Record} {t : Target}
    (bound : r.common.binding ≠ .unbound)
    (output : (Target.exchange r.prepare t).record.body.isOutput = true) :
    (r.process Target.exchange t).1.body = (Target.exchange r.prepare t).record.body := by
  rcases process_cases Target.exchange t bound with ⟨-, -, e⟩ | ⟨-, e⟩
  · rw [e]
  · rw [e]
    exact body_finish output _

section Pass
variable {r : Record} {s : Scalar} {w : UInt32} (merges : s.merges = true)
  (idle : r.common.active = false)
include merges idle

/-- **A pass over a register from which a word is read.** -/
theorem Record.pass_into_register (body : r.body = .scalar .registers s) {b : Register.Binding}
    (bound : r.common.binding = .toRegister b) {t : Register.Registers} (read : b.read t = .ok w) :
    (r.process Target.exchange (.registers t)).1.body =
        .scalar .registers (s.toRaw.noteReadBack w) ∧
      (r.process Target.exchange (.registers t)).2 =
        .registers ((b.write (Bits.merge w s.toRaw.word s.mask) t).toOption.getD t) := by
  have raw := Scalar.Alike.toRaw s
  have prepared := prepare_of_idle body idle
  have bound' : r.prepare.common.binding = .toRegister b := by rw [common_prepare, bound]
  have moved :=
    Register.exchange_of_merges (by rw [prepared]) (raw.merges.trans merges) bound' read
  have noted : (Target.exchange r.prepare (.registers t)).record.body =
      .scalar .registers (s.toRaw.noteReadBack w) := by
    show (Register.exchange r.prepare t).record.body = _
    rw [moved, Register.body_send, prepared]
    rfl
  have connected : r.common.binding ≠ .unbound := by simp [bound]
  have output : (s.toRaw.noteReadBack w).isOutput = true :=
    Scalar.isOutput_of_merges ((raw.trans (.noteReadBack _ w)).merges.trans merges)
  constructor
  · rw [body_process_of_output connected (by rw [noted]; exact output), noted]
  · rw [target_process_of_bound _ connected]
    show Target.registers (Register.exchange r.prepare t).target = _
    rw [moved, Register.registers_send, raw.mask]

/-- **A pass over a variable from which a word is read.** -/
theorem Record.pass_into_variable (body : r.body = .scalar .shared s) {b : Variable.Binding}
    (bound : r.common.binding = .toVariable b) (field : b.field = .rval) {v : Variable}
    (converted : v.value.convert .ulong = .ok (.ulong w)) :
    (r.process Target.exchange (.shared v)).1.body = .scalar .shared (s.toRaw.mixed w) ∧
      ∃ v', (r.process Target.exchange (.shared v)).2 = .shared v' ∧
        v'.value = (if v.admits b r then
          ((Value.ulong (Bits.merge w s.toRaw.word s.mask)).convert v.type).toOption
          else none).getD v.value := by
  have raw := Scalar.Alike.toRaw s
  have merges' : s.toRaw.merges = true := raw.merges.trans merges
  have mixed := raw.trans (.mixed s.toRaw w)
  have prepared := prepare_of_idle body idle
  let q : Record := ⟨r.common, r.link, .scalar .shared (s.toRaw.mixed w)⟩
  have moved : Target.exchange r.prepare (.shared v) =
      ⟨(Variable.giveOut b q v).record, .shared (Variable.giveOut b q v).target,
        (Variable.giveOut b q v).result.mapError .shared⟩ := by
    have bound' : r.prepare.common.binding = .toVariable b := by rw [common_prepare, bound]
    have idle' : r.prepare.common.active = false := by rw [common_prepare, idle]
    simp only [Target.exchange,
      Variable.exchange_of_merges (by rw [prepared]) merges' idle' bound' field converted]
    rw [prepared]
  have connected : r.common.binding ≠ .unbound := by simp [bound]
  have noted : (Target.exchange r.prepare (.shared v)).record.body =
      .scalar .shared (s.toRaw.mixed w) := by
    rw [moved]
    exact Variable.body_giveOut b q v
  have output : (s.toRaw.mixed w).isOutput = true :=
    Scalar.isOutput_of_merges (mixed.merges.trans merges)
  constructor
  · rw [body_process_of_output connected (by rw [noted]; exact output), noted]
  · refine ⟨(Variable.giveOut b q v).target, ?_, ?_⟩
    · rw [target_process_of_bound _ connected, moved]
    · rw [Variable.value_giveOut, Variable.given?_of_merges rfl (mixed.merges.trans merges) field,
        Scalar.word_mixed merges', raw.mask]
      rfl

end Pass

end ControlRecords
