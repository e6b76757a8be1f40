import ControlRecords.Proofs.Pass
import ControlRecords.Proofs.Words

/-! # Writing some bits of a word

A binary output with a mask and a multi-bit output own some bits of what they write to.
Such a record reads the word, replaces its own bits by those that its value asks for
(`Scalar.chosenBit`) and writes the word back.  This is followed here through one pass, over
a register by each of the built-in methods and over a variable of each integer type: the
bits under the mask are written, and all others are written back as they were. -/
namespace ControlRecords

namespace Scalar

/-- The fields of a record that has read a word back and merged its own bits into it. -/
def mixed (s : Scalar) (w : UInt32) : Scalar :=
  ((s.setWord w).noteReadBack w).setWord (Bits.merge w s.word s.mask)

/-- What a bit under the mask has to be for the present value: all of them are set for the
one state of a binary output, and a multi-bit output has its value at its place. -/
def chosenBit (s : Scalar) (i : Nat) : Bool :=
  match s with
  | bo b => b.val != 0
  | mbbo m _ => decide (m.shift.toNat ≤ i) && m.val.toNat.testBit (i - m.shift.toNat)
  | _ => false

/-- The same bits are the record's own, and they have to be the same. -/
structure Alike (s t : Scalar) : Prop where
  mask : t.mask = s.mask
  merges : t.merges = s.merges
  chosen : ∀ i, t.chosenBit i = s.chosenBit i

namespace Alike
variable {s t u : Scalar}

theorem trans (h : Alike s t) (h' : Alike t u) : Alike s u :=
  ⟨h'.mask.trans h.mask, h'.merges.trans h.merges, fun i => (h'.chosen i).trans (h.chosen i)⟩

theorem toRaw (s : Scalar) : Alike s s.toRaw := by
  cases s <;> exact ⟨rfl, rfl, fun _ => rfl⟩

theorem setWord (s : Scalar) (w : UInt32) : Alike s (s.setWord w) := by
  cases s <;> exact ⟨rfl, rfl, fun _ => rfl⟩

theorem noteReadBack (s : Scalar) (w : UInt32) : Alike s (s.noteReadBack w) := by
  cases s <;> exact ⟨rfl, rfl, fun _ => rfl⟩

theorem mixed (s : Scalar) (w : UInt32) : Alike s (s.mixed w) :=
  ((setWord s w).trans (noteReadBack _ w)).trans (setWord _ _)

end Alike

theorem isOutput_of_merges {s : Scalar} (h : s.merges = true) : s.isOutput = true := by
  cases s <;> simp_all [merges, isOutput]

section Raw
variable {s : Scalar} (h : s.merges = true)
include h

theorem type?_rval : s.type? .rval = some .ulong := by
  cases s <;> simp_all [merges, type?, Binary.type?, MultiBit.type?]

theorem get?_rval : s.get? .rval = some (.ulong s.word) := by
  cases s <;> simp_all [merges, get?, word, Binary.get?, MultiBit.get?]

theorem set_rval (w : UInt32) : s.set .rval (.ulong w) = s.setWord w := by
  cases s <;> simp_all [merges, set, setWord, Binary.set, MultiBit.set]

theorem word_setWord (w : UInt32) : (s.setWord w).word = w := by
  cases s <;> simp_all [merges, setWord, word]

theorem word_mixed (w : UInt32) : (s.mixed w).word = Bits.merge w s.word s.mask := by
  cases s with
  | bo _ | mbbo _ _ => rfl
  | _ => simp [merges] at h

end Raw

/-- The raw value has the chosen bits under the mask. -/
theorem testBit_word_toRaw {s : Scalar} {i : Nat} (h : s.merges = true)
    (under : s.mask.toNat.testBit i = true) : s.toRaw.word.toNat.testBit i = s.chosenBit i := by
  cases s with
  | bo b =>
    have mask : b.mask ≠ 0 := by simpa [merges] using h
    by_cases off : b.val = 0
    · simp [toRaw, word, Binary.toRaw, chosenBit, off]
    · have bits : (bo b).toRaw.word = b.mask := by
        simp [toRaw, word, Binary.toRaw, off, mask]
      have on : (b.val != 0) = true := by simpa using off
      rw [bits]
      exact under.trans on.symm
  | mbbo m readBack =>
    have h32 : i < 32 := lt_of_testBit under
    show (Bits.shiftLeft m.val.toUInt32 m.shift).toNat.testBit i = _
    rw [Bits.testBit_shiftLeft _ _ h32, UInt16.toNat_toUInt32]
    rfl
  | _ => simp [merges] at h

end Scalar

/-! ## One pass -/

/-- The record is idle and owns some bits of what it writes to. -/
structure Record.Masked (support : ScalarSupport) (r : Record) : Prop where
  idle : r.common.active = false
  body : ∃ s, r.body = .scalar support s ∧ s.merges = true

/-- A record after a pass that is over, with fields that are alike. -/
structure Record.Rewritten (r : Record) (support : ScalarSupport) (s : Scalar) (r' : Record) :
    Prop where
  skeleton : r'.skeleton = r.skeleton
  idle : r'.common.active = false
  body : ∃ u, r'.body = .scalar support u ∧ s.Alike u

/-- The same bits are the record's own. -/
theorem Record.Rewritten.masked {r r' : Record} {support : ScalarSupport} {s : Scalar}
    (h : r.Rewritten support s r') (merges : s.merges = true) :
    r'.Masked support ∧ r'.body.mask = s.mask := by
  obtain ⟨u, body, alike⟩ := h.body
  refine ⟨⟨h.idle, u, body, alike.merges.trans merges⟩, ?_⟩
  rw [body]
  exact alike.mask

section Pass
variable {r : Record} {s : Scalar}

/-- A record is rewritten if its pass ends after an exchange that kept it alike. -/
theorem Record.Rewritten.of_finish {support : ScalarSupport} {u : Scalar} {q : Record}
    (body : r.body = .scalar support s) (output : s.isOutput = true)
    (skeleton : q.skeleton = r.skeleton) (body' : q.body = .scalar support u) (alike : s.Alike u)
    (result : Except SupportError Transfer) : r.Rewritten support s (q.finish result) := by
  have isOutput : q.body.isOutput = true := by
    rw [isOutput_of_skeleton skeleton, body]
    exact output
  exact ⟨(skeleton_finish q result).trans skeleton, rfl, u,
    (body_finish isOutput result).trans body', alike⟩

/-- A record with bits of its own reads the register and writes there what it merged. -/
theorem Register.exchange_of_merges {b : Binding} (body : r.body = .scalar .registers s)
    (merges : s.merges = true) (bound : r.common.binding = .toRegister b) {t : Registers}
    {w : UInt32} (read : b.read t = .ok w) :
    exchange r t = send b (r.mapScalar (·.noteReadBack w)) (Bits.merge w s.word s.mask) t := by
  simp only [exchange, body, bound, exchangeBound, Scalar.isOutput_of_merges merges, merges, read,
    Bool.not_true, Bool.and_false, Bool.false_eq_true, if_false, if_true]

/-- **A pass over a register:** the bits under the mask are written, the others written
back. -/
theorem Record.process_into_register {b : Register.Binding} {m : Register.Builtin}
    (body : r.body = .scalar .registers s) (merges : s.merges = true)
    (idle : r.common.active = false) (bound : r.common.binding = .toRegister b)
    (access : b.access = .builtin m) (accessible : m.check b.address = .ok ())
    (t : Register.Registers) :
    ∃ r' word, r.process Target.exchange (.registers t) =
        (r', .registers { t with memory := t.memory.store b.address (m.octetsOf word) }) ∧
      r.Rewritten .registers s r' ∧ ∀ i < m.bits, word.toNat.testBit i =
        if s.mask.toNat.testBit i then s.chosenBit i
        else (m.stored b.address t.memory).testBit i := by
  have raw := Scalar.Alike.toRaw s
  -- The word that is read is filled up from the register, and the one that is written is cut.
  generalize hw : m.extend (m.stored b.address t.memory) = w
  generalize hword : Bits.merge w s.toRaw.word s.mask = word
  have read : b.read t = .ok w := by
    simp only [Register.Binding.read, access, Register.Access.read, Register.Builtin.read,
      accessible]
    rw [← hw]
    rfl
  have write : b.write word t =
      .ok { t with memory := t.memory.store b.address (m.octetsOf word) } := by
    simp only [Register.Binding.write, access, Register.Access.write, Register.Builtin.write,
      accessible]
  have moved : Target.exchange r.prepare (.registers t) =
      ⟨r.prepare.mapScalar (·.noteReadBack w),
        .registers { t with memory := t.memory.store b.address (m.octetsOf word) }, .ok .raw⟩ := by
    have bound' : r.prepare.common.binding = .toRegister b := by rw [common_prepare, bound]
    have body' : r.prepare.body = .scalar .registers s.toRaw := by
      rw [prepare_of_idle body idle]
    simp only [Target.exchange,
      Register.exchange_of_merges body' (raw.merges.trans merges) bound' read, raw.mask, hword,
      Register.send, write]
  have bound' : r.common.binding ≠ .unbound := by simp [bound]
  have idle' : (Target.exchange r.prepare (.registers t)).record.common.active = false := by
    rw [moved]
    simpa [mapScalar] using idle
  refine ⟨_, word, by rw [process_of_idle bound' idle', moved], ?_, ?_⟩
  · rw [prepare_of_idle body idle]
    refine .of_finish body (Scalar.isOutput_of_merges merges) ?_ rfl
      (raw.trans (.noteReadBack _ _)) _
    simp [skeleton, mapScalar, Body.mapScalar, Body.skeleton, body]
  · intro i hi
    rw [← hword, Bits.testBit_merge]
    split
    · exact Scalar.testBit_word_toRaw merges ‹_›
    · rw [← hw, Register.Builtin.testBit_extend _ _ hi]

/-- The raw value goes to the variable as far as the variable has room for it. -/
theorem Variable.deliver_of_merges {support : ScalarSupport} {b : Variable.Binding}
    (body : r.body = .scalar support s) (merges : s.merges = true) (field : b.field = .rval)
    {v : Variable} (type : v.type.isInteger = true) :
    ∃ v', deliver b r v = ⟨r, v', .ok .raw⟩ ∧ v'.type = v.type ∧
      ∀ i, i < v.type.bits → v'.value.pattern.testBit i = s.word.toNat.testBit i := by
  obtain ⟨x, converted, type', bits⟩ := Value.convert_of_ulong s.word type
  have get : r.get? b.field = some (.ulong s.word) := by
    simp only [Record.get?, field, body, Body.get?, Scalar.get?_rval merges]
    rfl
  have store : v.store (.ulong s.word) = .ok { v with value := x } := by
    simp only [Variable.store, converted]
  refine ⟨({ v with value := x, alarm := r.common.alarms.pending } : Variable).post b.flags,
    by simp only [deliver, get, store], ?_, ?_⟩
  · unfold post
    split <;> exact type'
  · intro i hi
    unfold post
    split <;> exact bits i hi

/-- An idle record with bits of its own reads the variable back and stores there what it
merged. -/
theorem Variable.exchange_of_merges {b : Variable.Binding} (body : r.body = .scalar .shared s)
    (merges : s.merges = true) (idle : r.common.active = false)
    (bound : r.common.binding = .toVariable b) (field : b.field = .rval) {v : Variable}
    {w : UInt32} (converted : v.value.convert .ulong = .ok (.ulong w)) :
    exchange r v =
      let x := giveOut b ⟨r.common, r.link, .scalar .shared (s.mixed w)⟩ v
      ⟨x.record, x.target, x.result.mapError .shared⟩ := by
  have put : r.put b.field v.value = .ok { r with body := .scalar .shared (s.setWord w) } := by
    simp only [Record.put, field, body, Body.type?, Scalar.type?_rval merges, converted, Body.set,
      Scalar.set_rval merges]
  have merged : mergeOut b s.word r v =
      giveOut b ⟨r.common, r.link, .scalar .shared (s.mixed w)⟩ v := by
    simp only [mergeOut, readBack, put, Record.mapScalar, Body.mapScalar,
      Scalar.word_setWord merges, (Scalar.Alike.setWord s w).mask]
    rfl
  have moved : move b s r v = mergeOut b s.word r v := by
    cases s with
    | bo _ | mbbo _ _ => simp [move, secondPhase, idle, merges]
    | _ => simp [Scalar.merges] at merges
  simp only [exchange, body, bound, moved, merged]

/-- **A pass over a variable:** the bits under the mask are written, the others written
back. -/
theorem Record.process_into_variable {b : Variable.Binding} (body : r.body = .scalar .shared s)
    (merges : s.merges = true) (idle : r.common.active = false)
    (bound : r.common.binding = .toVariable b) (field : b.field = .rval)
    (synchronous : b.flags.asynchronous = false) {v : Variable}
    (type : v.type.isInteger = true) :
    ∃ r' v', r.process Target.exchange (.shared v) = (r', .shared v') ∧ v'.type = v.type ∧
      r.Rewritten .shared s r' ∧ ∀ i < v.type.bits, v'.value.pattern.testBit i =
        if s.mask.toNat.testBit i then s.chosenBit i else v.value.pattern.testBit i := by
  have raw := Scalar.Alike.toRaw s
  have merges' : s.toRaw.merges = true := raw.merges.trans merges
  have prepared := prepare_of_idle body idle
  obtain ⟨w, converted, read⟩ := Value.convert_ulong type
  -- What is stored is merged from what was read and the raw value from before the reading.
  have word := Scalar.word_mixed merges' w
  have alike := raw.trans (.mixed s.toRaw w)
  generalize hu : s.toRaw.mixed w = u at word alike
  obtain ⟨v', delivered, type', stored⟩ := Variable.deliver_of_merges
    (r := { r with body := .scalar .shared u }) rfl (alike.merges.trans merges) field type
  have moved : Target.exchange r.prepare (.shared v) =
      ⟨{ r with body := .scalar .shared u }, .shared v', .ok .raw⟩ := by
    have bound' : r.prepare.common.binding = .toVariable b := by rw [common_prepare, bound]
    have idle' : r.prepare.common.active = false := by rw [common_prepare, idle]
    simp only [Target.exchange,
      Variable.exchange_of_merges (by rw [prepared]) merges' idle' bound' field converted, hu]
    rw [prepared, Variable.giveOut_of_synchronous (by exact idle) synchronous, delivered]
    rfl
  have bound' : r.common.binding ≠ .unbound := by simp [bound]
  have idle' : (Target.exchange r.prepare (.shared v)).record.common.active = false := by
    rw [moved]
    exact idle
  refine ⟨_, v', by rw [process_of_idle bound' idle', moved], type', ?_, ?_⟩
  · refine .of_finish body (Scalar.isOutput_of_merges merges) ?_ rfl alike _
    have same : u.skeleton = s.skeleton := by simp [← hu, Scalar.mixed]
    simp [skeleton, Body.skeleton, body, same]
  · intro i hi
    rw [stored i hi, word, raw.mask, Bits.testBit_merge]
    split
    · exact Scalar.testBit_word_toRaw merges ‹_›
    · exact read i hi

end Pass

end ControlRecords
