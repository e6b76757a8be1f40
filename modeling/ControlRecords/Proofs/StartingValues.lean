import ControlRecords.Proofs.Definedness
import ControlRecords.Proofs.WordPass

/-! # What a record starts with

A record that is not to be processed at once takes over what it finds when it is connected.  What
becomes of its fields and of its common part is worked out here once for each support, from the
word that was read (`Register.connected_connect`) or the value that was loaded
(`Variable.connected_connect`).

Taking over the same thing again changes nothing (`Scalar.fromRegister_again`,
`Scalar.fromVariable_again`): a raw value that was cut off to the record's bits is cut off
already, an alarm that was made the current one is raised again and made the current one again,
and the mask is worked out from the record's bits each time before it is put in its place, so that
it does not move any further. -/
namespace ControlRecords

/-! ## Fields -/

namespace Value
variable {w : Value}

/-! A value is of the form that its type says. -/

theorem exists_double (h : w.type = .double) : ∃ x, w = .double x := by
  cases w with
  | double x => exact ⟨x, rfl⟩
  | _ => contradiction

theorem exists_long (h : w.type = .long) : ∃ n, w = .long n := by
  cases w with
  | long n => exact ⟨n, rfl⟩
  | _ => contradiction

theorem exists_ulong (h : w.type = .ulong) : ∃ n, w = .ulong n := by
  cases w with
  | ulong n => exact ⟨n, rfl⟩
  | _ => contradiction

theorem exists_enum (h : w.type = .enum) : ∃ n, w = .enum n := by
  cases w with
  | enum n => exact ⟨n, rfl⟩
  | _ => contradiction

end Value

namespace Scalar

/-- The record's bits are `bits` in number and lie `shift` places from the right. -/
def HasBits (s : Scalar) (bits shift : UInt16) : Prop :=
  s.get? .nobt = some (.ushort bits) ∧ s.get? .shft = some (.ushort shift)

/-- Only the multi-bit types have bits. -/
theorem HasBits.cases {s : Scalar} {bits shift : UInt16} (h : s.HasBits bits shift) :
    ∃ val raw mask, s = mbbi ⟨val, raw, mask, bits, shift⟩ ∨
      ∃ back, s = mbbo ⟨val, raw, mask, bits, shift⟩ back := by
  obtain ⟨nobt, shft⟩ := h
  cases s with
  | mbbi m =>
    obtain rfl := Value.ushort.inj (Option.some.inj nobt)
    obtain rfl := Value.ushort.inj (Option.some.inj shft)
    exact ⟨m.val, m.raw, m.mask, Or.inl rfl⟩
  | mbbo m back =>
    obtain rfl := Value.ushort.inj (Option.some.inj nobt)
    obtain rfl := Value.ushort.inj (Option.some.inj shft)
    exact ⟨m.val, m.raw, m.mask, Or.inr ⟨back, rfl⟩⟩
  | _ => contradiction

/-- The fields with which a record starts on a register, by the word in it if that was read. -/
def fromRegister (s : Scalar) (read : Option UInt32) : Scalar :=
  match s with
  | ai _ | bi _ | mbbi _ | longin _ => s.placed
  | ao _ | bo _ | longout _ => (read.elim s s.receive).ofRaw
  | mbbo _ _ =>
    let loaded := read.elim s.placed fun w => (s.placed.setWord w).noteReadBack w
    (loaded.setWord (loaded.word &&& loaded.mask)).ofRaw

/-- **Starting on the same word again gives the same fields.** -/
theorem fromRegister_again (s : Scalar) (read : Option UInt32) :
    (s.sized.fromRegister read).sized.fromRegister read = s.sized.fromRegister read := by
  cases s with
  | mbbo m back =>
    cases read with
    | none =>
      -- What the record had is cut off to its own bits, and they are there the second time.
      simp only [fromRegister, sized, placed, setWord, word, mask, ofRaw, MultiBit.sized,
        MultiBit.placed, Option.elim_none, UInt32.and_assoc, UInt32.and_self]
      rfl
    | some w => rfl
  | ao _ | bo _ | longout _ => cases read <;> rfl
  | _ => rfl

/-- On a register the mask is the one for the record's bits, in its place. -/
theorem get?_mask_fromRegister {s : Scalar} {bits shift : UInt16} (has : s.HasBits bits shift)
    (read : Option UInt32) : (s.sized.fromRegister read).get? .mask =
      some (.ulong (Bits.place (Bits.low bits) bits shift)) := by
  obtain ⟨val, raw, mask, rfl | ⟨back, rfl⟩⟩ := has.cases
  · rfl
  · cases read <;> rfl

/-- The bits of a raw value that are a record's own, and the mask of a multi-bit output in its
place. -/
def ownBits : Scalar → Scalar
  | bo b => bo { b with raw := Bits.masked b.raw b.mask }
  | mbbo m _ => mbbo { m.placed with raw := Bits.masked m.raw m.placed.mask } m.raw
  | s => s

/-- The fields with which a record that writes starts on a variable, by the value that is loaded
and whether that is the final one. -/
def fromVariable (s : Scalar) (f : Field) (w : Value) (final : Bool) : Scalar :=
  let loaded := (s.set f w).ownBits
  if final then loaded else loaded.ofRaw

/-- A field of a record that writes, and a value that can be loaded into it. -/
inductive Takes : Scalar → Field → Value → Prop where
  | number (a : Analog) (x : Float) : Takes (ao a) .val (.double x)
  | raw (a : Analog) (n : Int32) : Takes (ao a) .rval (.long n)
  | bits (b : Binary) (w : UInt32) : Takes (bo b) .rval (.ulong w)
  | states (m : MultiBit) (back w : UInt32) : Takes (mbbo m back) .rval (.ulong w)
  | whole (n m : Int32) : Takes (longout n) .val (.long m)

theorem Takes.type? {s : Scalar} {f : Field} {w : Value} (h : s.Takes f w) :
    s.type? f = some w.type := by
  cases h <;> rfl

theorem Takes.of_sized {s : Scalar} {f : Field} {w : Value} (h : s.sized.Takes f w) :
    s.Takes f w := by
  cases s <;> cases h <;> constructor

/-- What was loaded can be loaded again. -/
theorem Takes.again {s : Scalar} {f : Field} {w : Value} (h : s.Takes f w) (final : Bool) :
    (s.fromVariable f w final).sized.Takes f w := by
  cases h <;> cases final <;> constructor

/-- On a variable it is the same mask, for a record that writes. -/
theorem get?_mask_fromVariable {s : Scalar} {bits shift : UInt16} {f : Field} {w : Value}
    (has : s.HasBits bits shift) (takes : s.sized.Takes f w) (final : Bool) :
    (s.sized.fromVariable f w final).get? .mask =
      some (.ulong (Bits.place (Bits.low bits) bits shift)) := by
  obtain ⟨val, raw, mask, rfl | ⟨back, rfl⟩⟩ := has.cases
  · cases takes
  · cases takes
    cases final <;> rfl

/-- And for one that reads. -/
theorem get?_mask_placed {s : Scalar} {bits shift : UInt16} (has : s.HasBits bits shift) :
    s.sized.placed.get? .mask = some (.ulong (Bits.place (Bits.low bits) bits shift)) := by
  obtain ⟨val, raw, mask, rfl | ⟨back, rfl⟩⟩ := has.cases <;> rfl

/-- The field that a link chooses, by whether it asks for the value in the record's own terms. -/
def chosen (s : Scalar) (direct : Bool) : Field :=
  match s with
  | longin _ | longout _ => .val
  | bo _ | mbbo _ _ => .rval
  | ai _ | ao _ | bi _ | mbbi _ => if direct then .val else .rval

/-- What has the type of the chosen field can be loaded into it. -/
theorem takes_chosen {s : Scalar} {direct : Bool} {t : DataType} {w : Value}
    (output : s.isOutput = true) (type : s.type? (s.chosen direct) = some t) (typed : w.type = t) :
    s.Takes (s.chosen direct) w := by
  cases s with
  | ao a =>
    cases direct with
    | true =>
      obtain ⟨x, rfl⟩ := Value.exists_double (typed.trans (Option.some.inj type).symm)
      exact .number a x
    | false =>
      obtain ⟨n, rfl⟩ := Value.exists_long (typed.trans (Option.some.inj type).symm)
      exact .raw a n
  | bo b =>
    obtain ⟨x, rfl⟩ := Value.exists_ulong (typed.trans (Option.some.inj type).symm)
    exact .bits b x
  | mbbo m back =>
    obtain ⟨x, rfl⟩ := Value.exists_ulong (typed.trans (Option.some.inj type).symm)
    exact .states m back x
  | longout n =>
    obtain ⟨x, rfl⟩ := Value.exists_long (typed.trans (Option.some.inj type).symm)
    exact .whole n x
  | _ => simp [isOutput] at output

/-- **Loading the same value again gives the same fields.** -/
theorem fromVariable_again {s : Scalar} {f : Field} {w : Value} (takes : s.Takes f w)
    (final : Bool) :
    (s.sized.fromVariable f w final).sized.fromVariable f w final =
      s.sized.fromVariable f w final := by
  cases takes <;> cases final <;> rfl

end Scalar

/-! ## Common parts -/

/-- An alarm that is raised anew when it was made the current one comes to the same. -/
theorem Alarms.promote_raise_again {s : Alarms} (clear : s.pending = .none) (a : Alarm) :
    ((s.raise a).promote.raise a).promote = (s.raise a).promote := by
  have same : ((s.raise a).promote.raise a).pending = (s.raise a).pending := by
    rw [pending_raise, pending_promote, pending_raise, clear]
  rw [promote, same]
  rfl

namespace Common

/-- The common part with which a record starts on a register. -/
def fromRegister (c : Common) (s : Scalar) (b : Register.Binding) (read : Option UInt32) :
    Common :=
  let bound := { c with binding := .toRegister b }
  match s with
  | .ai _ | .mbbi _ | .longin _ => bound
  | .bi _ => { bound with undefined := false }
  | .ao _ | .bo _ | .mbbo _ _ | .longout _ =>
    { (read.elim (bound.raise .read .invalid) fun _ => bound).promoteAlarms with
      undefined := false }

theorem keeps_fromRegister (c : Common) (s : Scalar) (b : Register.Binding)
    (read : Option UInt32) : (c.fromRegister s b read).handle = c.handle ∧
      (c.fromRegister s b read).initProcess = c.initProcess := by
  cases s with
  | ao _ | bo _ | mbbo _ _ | longout _ => cases read <;> exact ⟨rfl, rfl⟩
  | _ => exact ⟨rfl, rfl⟩

/-- Without a pending alarm before it, a start has the same alarms as its repetition. -/
theorem fromRegister_again {c : Common} (clear : c.alarms.pending = .none) (s : Scalar)
    (b : Register.Binding) (read : Option UInt32) :
    (c.fromRegister s b read).fromRegister (s.fromRegister read).sized b read =
      c.fromRegister s b read := by
  obtain ⟨_, _, _, _, _, _, _, _, ⟨_, pending⟩, _, _⟩ := c
  obtain rfl : pending = .none := clear
  cases s with
  | ao _ | bo _ | mbbo _ _ | longout _ => cases read <;> rfl
  | _ => rfl

/-- The common part with which a record that writes starts on a variable. -/
def fromVariable (c : Common) (b : Variable.Binding) (v : Variable) : Common :=
  { c with
    binding := .toVariable b
    undefined := false
    time := if c.timeSource = .device then v.time else c.time
    alarms := (c.alarms.raise v.alarm).promote }

/-- It is what the record inherits, with the alarm made the current one. -/
theorem promoteAlarms_inherited (c : Common) (b : Variable.Binding) (v : Variable) :
    { ((({ c with binding := .toVariable b } : Common).stampFromDevice v.time).raise v.alarm.status
        v.alarm.severity).promoteAlarms with undefined := false } = c.fromVariable b v := by
  unfold stampFromDevice fromVariable
  by_cases device : c.timeSource = .device
  · simp [device, raise, promoteAlarms]
  · simp [device, raise, promoteAlarms]

theorem fromVariable_again {c : Common} (clear : c.alarms.pending = .none)
    (b : Variable.Binding) (v : Variable) :
    (c.fromVariable b v).fromVariable b v = c.fromVariable b v := by
  by_cases device : c.timeSource = .device
  · simp [fromVariable, device, Alarms.promote_raise_again clear]
  · simp [fromVariable, device, Alarms.promote_raise_again clear]

end Common

/-! ## Records -/

namespace Register

/-- **A record starts on a register with what it takes over from there.** -/
theorem connected_connect {b : Binding} {s : Scalar} {r : Record} {t : Registers}
    (body : r.body = .scalar .registers s) (quiet : r.common.initProcess = false) :
    (connect b s r t).1.connected (connect b s r t).2 =
      ⟨r.common.fromRegister s b (b.read t).toOption, r.link,
        .scalar .registers (s.fromRegister (b.read t).toOption)⟩ := by
  obtain ⟨⟨_, _, _, init, _, _, _, _, _, _, _⟩, link, _⟩ := r
  obtain rfl : _ = Body.scalar .registers s := body
  obtain rfl : init = false := quiet
  rcases read : b.read t with e | w
  · cases s with
    | ao _ | bo _ | longout _ | mbbo _ _ =>
      simp only [connect, readBack, read]
      rfl
    | _ => rfl
  · cases s with
    | ao _ | bo _ | longout _ | mbbo _ _ =>
      simp only [connect, readBack, read]
      rfl
    | _ => rfl

end Register

namespace Variable
variable {b : Binding} {s : Scalar} {r x : Record} {v : Variable} {w : Value}

theorem connectOutput_of_put (quiet : r.common.initProcess = false)
    (put : (r.bind (.toVariable b)).put b.field v.value = .ok x) :
    connectOutput b r v =
      if b.flags.noConvert then
        ⟨((inherit x v).setUndefined false).withCommon Common.promoteAlarms, v, .ok .final⟩
      else ⟨(inherit x v).withCommon Common.promoteAlarms, v, .ok .raw⟩ := by
  have quiet' : (r.bind (.toVariable b)).common.initProcess = false := quiet
  cases direct : b.flags.noConvert <;> simp [connectOutput, quiet', takeIn, put, direct]

/-- What a record takes over becomes its own bits. -/
theorem connect_of_takes {y : Record} {status : Transfer} (takes : s.Takes b.field w)
    (made : connectOutput b r v = ⟨y, v, .ok status⟩) (quiet : y.common.initProcess = false)
    (loaded : y.body = .scalar .shared (s.set b.field w)) :
    connect b s r v =
      ⟨{ y with body := .scalar .shared (s.set b.field w).ownBits }, v, .ok status⟩ := by
  obtain ⟨common, link, _⟩ := y
  obtain rfl : _ = Body.scalar .shared (s.set b.field w) := loaded
  have still : common.initProcess = false := quiet
  generalize b.field = f at takes made ⊢
  -- The record that is connected is `y`, with the bits that are not its own taken away.
  cases takes with
  | number | raw | whole =>
    simp only [connect, made]
    rfl
  | bits | states =>
    simp only [connect, made]
    exact (if_neg (Bool.eq_false_iff.1 still)).trans
      (congrArg (Exchanged.mk · v _) (maskRaw_scalar _ _ _ _))

/-- **A record that writes starts on a variable with what it takes over from there.** -/
theorem connected_connect (body : r.body = .scalar .shared s)
    (quiet : r.common.initProcess = false) (takes : s.Takes b.field w)
    (converted : v.value.convert w.type = .ok w) :
    ∃ status, (connect b s r v).result = .ok status ∧
      (connect b s r v).record.connected status = ⟨r.common.fromVariable b v, r.link,
        .scalar .shared (s.fromVariable b.field w b.flags.noConvert)⟩ := by
  let x : Record := { r.bind (.toVariable b) with body := .scalar .shared (s.set b.field w) }
  have put : (r.bind (.toVariable b)).put b.field v.value = .ok x := by
    have own : (r.bind (.toVariable b)).body = .scalar .shared s := body
    simp only [Record.put, own, Body.type?, takes.type?, converted]
    rfl
  have still : (inherit x v).common.initProcess = false :=
    (congrArg (·.common.initProcess) (skeleton_inherit x v)).trans quiet
  have common := r.common.promoteAlarms_inherited b v
  have made := connectOutput_of_put quiet put
  cases direct : b.flags.noConvert with
  | true =>
    rw [direct, if_pos rfl] at made
    have linked := connect_of_takes takes made still rfl
    refine ⟨.final, by rw [linked], ?_⟩
    rw [linked, ← common]
    rfl
  | false =>
    rw [direct, if_neg Bool.false_ne_true] at made
    have linked := connect_of_takes takes made still rfl
    have output : (s.set b.field w).ownBits.isOutput = true := by
      generalize b.field = f at takes
      cases takes <;> rfl
    refine ⟨.raw, by rw [linked], ?_⟩
    rw [linked, ← common]
    exact if_pos output

theorem Choice.ofScalar_skeleton (s : Scalar) : ofScalar s.skeleton = ofScalar s := by
  cases s <;> rfl

/-- The field that a link chooses. -/
theorem field_eq_chosen
    (field : Field.ofText? ((Choice.ofScalar s).fieldName b.flags) = some b.field) :
    b.field = s.chosen b.flags.noConvert := by
  have name : (Choice.ofScalar s).fieldName b.flags = (s.chosen b.flags.noConvert).text := by
    unfold Choice.fieldName
    cases s <;> cases b.flags.noConvert <;> rfl
  rw [name, Field.ofText?_text] at field
  exact (Option.some.inj field).symm

/-- A record that was connected to a variable has taken over a value. -/
theorem exists_takes (body : r.body = .scalar .shared s) (output : s.isOutput = true)
    (quiet : r.common.initProcess = false)
    (field : Field.ofText? ((Choice.ofScalar s).fieldName b.flags) = some b.field)
    {status : Transfer} (ok : (connect b s r v).result = .ok status) :
    ∃ w, v.value.convert w.type = .ok w ∧ s.Takes b.field w := by
  obtain ⟨result, -⟩ := connect_of_output (b := b) (v := v) output quiet
  obtain ⟨⟨x, put⟩, -⟩ := connectOutput_eq_ok quiet (result ▸ ok)
  have own : (r.bind (.toVariable b)).body = .scalar .shared s := body
  simp only [Record.put, own, Body.type?] at put
  split at put
  · rename_i t type
    split at put
    · rename_i w converted
      have typed := Value.type_convert converted
      refine ⟨w, by rw [typed, converted], ?_⟩
      rw [field_eq_chosen field] at type ⊢
      exact Scalar.takes_chosen output type typed
    · contradiction
  · contradiction

/-- A record that reads is only connected, and the mask of a multi-bit input is placed. -/
theorem connect_of_input (body : r.body = .scalar .shared s) (input : s.isOutput = false) :
    connect b s r v =
      ⟨⟨{ r.common with binding := .toVariable b }, r.link, .scalar .shared s.placed⟩, v,
        .ok .raw⟩ := by
  obtain ⟨common, link, _⟩ := r
  obtain rfl : _ = Body.scalar .shared s := body
  cases s with
  | ai _ | bi _ | mbbi _ | longin _ => rfl
  | _ => simp [Scalar.isOutput] at input

section Start
variable {status : Transfer} (body : r.body = .scalar .shared s)
  (ok : (connect b s.sized r.sized v).result = .ok status)
include body ok

/-- How a record that reads starts on a variable. -/
theorem start_of_input (input : s.isOutput = false) :
    (connect b s.sized r.sized v).record.connected status =
      ⟨{ r.common with binding := .toVariable b }, r.link, .scalar .shared s.sized.placed⟩ := by
  have reads : s.sized.isOutput = false ∧ s.sized.placed.isOutput = false := by
    cases s with
    | ai _ | bi _ | mbbi _ | longin _ => exact ⟨rfl, rfl⟩
    | _ => simp [Scalar.isOutput] at input
  rw [connect_of_input (Record.body_sized body) reads.1] at ok ⊢
  obtain rfl := Except.ok.inj ok
  exact if_neg (Bool.eq_false_iff.1 reads.2)

/-- How a record that writes starts on a variable. -/
theorem start_of_output (output : s.isOutput = true) (quiet : r.common.initProcess = false)
    (field : Field.ofText? ((Choice.ofScalar s).fieldName b.flags) = some b.field) :
    ∃ w, s.sized.Takes b.field w ∧ v.value.convert w.type = .ok w ∧
      (connect b s.sized r.sized v).record.connected status = ⟨r.common.fromVariable b v, r.link,
        .scalar .shared (s.sized.fromVariable b.field w b.flags.noConvert)⟩ := by
  have sized : r.sized.body = .scalar .shared s.sized := Record.body_sized body
  have sorted : s.sized.isOutput = true := by
    rw [← Scalar.isOutput_skeleton, Scalar.skeleton_sized, Scalar.isOutput_skeleton, output]
  have field' : Field.ofText? ((Choice.ofScalar s.sized).fieldName b.flags) = some b.field := by
    cases s <;> exact field
  obtain ⟨w, converted, takes⟩ := exists_takes sized sorted quiet field' ok
  obtain ⟨status', ok', start⟩ := connected_connect sized quiet takes converted
  obtain rfl := Except.ok.inj (ok'.symm.trans ok)
  exact ⟨w, takes, converted, start⟩

/-- **A record that started on a variable starts there in the same way again.** -/
theorem start_again (quiet : r.common.initProcess = false)
    (clear : r.common.alarms.pending = .none)
    (field : Field.ofText? ((Choice.ofScalar s).fieldName b.flags) = some b.field) :
    let q := (connect b s.sized r.sized v).record.connected status
    ∃ s' status', q.body = .scalar .shared s' ∧
      (connect b s'.sized q.sized v).result = .ok status' ∧
      (connect b s'.sized q.sized v).record.connected status' = q := by
  intro q
  cases output : s.isOutput with
  | false =>
    have start : q = ⟨{ r.common with binding := .toVariable b }, r.link,
        .scalar .shared s.sized.placed⟩ := start_of_input body ok output
    have input : s.sized.placed.isOutput = false ∧ s.sized.placed.sized.isOutput = false := by
      cases s with
      | ai _ | bi _ | mbbi _ | longin _ => exact ⟨rfl, rfl⟩
      | _ => simp [Scalar.isOutput] at output
    have own : q.body = .scalar .shared s.sized.placed := by rw [start]
    have ok' : (connect b s.sized.placed.sized q.sized v).result = .ok .raw := by
      rw [connect_of_input (Record.body_sized own) input.2]
    have placed : s.sized.placed.sized.placed = s.sized.placed := by cases s <;> rfl
    refine ⟨_, .raw, own, ok', (start_of_input own ok' input.1).trans ?_⟩
    rw [placed, start]
  | true =>
    obtain ⟨w, takes, converted, start⟩ := start_of_output body ok output quiet field
    have start : q = ⟨r.common.fromVariable b v, r.link,
        .scalar .shared (s.sized.fromVariable b.field w b.flags.noConvert)⟩ := start
    have own : q.body = .scalar .shared (s.sized.fromVariable b.field w b.flags.noConvert) := by
      rw [start]
    have quiet' : q.sized.common.initProcess = false := by
      rw [start]
      exact quiet
    obtain ⟨status', ok', again⟩ := connected_connect (b := b) (v := v) (Record.body_sized own)
      quiet' (takes.again b.flags.noConvert) converted
    refine ⟨_, status', own, ok', again.trans ?_⟩
    show (⟨q.common.fromVariable b v, q.link, _⟩ : Record) = q
    rw [Scalar.fromVariable_again takes.of_sized, start, Common.fromVariable_again clear]

end Start

end Variable

end ControlRecords
