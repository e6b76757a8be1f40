import ControlRecords.Proofs.BumplessStart
import ControlRecords.Proofs.Takeover
import ControlRecords.Proofs.WordStartup

/-! # Values of several bits, written and read

A multi-bit output and a multi-bit input whose bits lie at the same place of one word are two
ends of one value.  The place is settled when the records are connected, by the number of bits
and the shift, and nothing changes it later: neither what a client writes as a value nor any pass
(`Scalar.layout`, `Controller.Serves`).  So after any run a pass of the output and then one of the
input carry the value over, as far as there are bits for it (`Counterparts.transfer`), and this
holds for records that were initialised in either order (`value_read_after_write`). -/
namespace ControlRecords

/-! ## Where the bits of a record lie -/

namespace Scalar

/-- The fields of a record without its values: the type and, if it has several bits, where they
lie. -/
def layout : Scalar → Scalar
  | mbbi m => mbbi { m with val := 0, raw := 0 }
  | mbbo m _ => mbbo { m with val := 0, raw := 0 } 0
  | s => s.skeleton

/-- The record has a value of several bits. -/
def isMultiBit : Scalar → Bool
  | mbbi _ | mbbo _ _ => true
  | _ => false

theorem isMultiBit_sized (s : Scalar) : s.sized.isMultiBit = s.isMultiBit := by cases s <;> rfl

theorem isMultiBit_placed (s : Scalar) : s.placed.isMultiBit = s.isMultiBit := by cases s <;> rfl

theorem isMultiBit_layout (s : Scalar) : s.layout.isMultiBit = s.isMultiBit := by cases s <;> rfl

/-- A record of several bits exchanges its raw value. -/
theorem word_of_isMultiBit {s : Scalar} (multi : s.isMultiBit = true) :
    s.isDiscrete = true ∧ s.wordField = .rval := by
  cases s with
  | mbbi m => exact ⟨rfl, rfl⟩
  | mbbo m back => exact ⟨rfl, rfl⟩
  | _ => simp [isMultiBit] at multi

section Layout
variable {s : Scalar} {k : MultiBit}

theorem layout_set_val (s : Scalar) (v : Value) : (s.set .val v).layout = s.layout := by
  cases s <;> cases v <;> rfl

/-- An output is laid out as its mask, its number of bits and its shift say. -/
theorem eq_mbbo_of_layout (h : s.layout = mbbo k 0) :
    ∃ val raw back, s = mbbo { k with val, raw } back := by
  cases s with
  | mbbo m back =>
    obtain ⟨rfl, -⟩ := mbbo.inj h
    exact ⟨m.val, m.raw, back, rfl⟩
  | _ => simp [layout, skeleton] at h

theorem eq_mbbi_of_layout (h : s.layout = mbbi k) : ∃ val raw, s = mbbi { k with val, raw } := by
  cases s with
  | mbbi m =>
    obtain rfl := mbbi.inj h
    exact ⟨m.val, m.raw, rfl⟩
  | _ => simp [layout, skeleton] at h

end Layout

end Scalar

/-- The record is idle, has a value of several bits laid out like this in the word, and moves it
raw and at once. -/
structure Record.Serves (r : Record) (word : Word) (layout : Scalar) : Prop where
  idle : r.common.active = false
  body : ∃ s, r.body = .scalar word.support s ∧ s.layout = layout
  reaches : r.Reaches word
  raw : ∀ b, r.common.binding = .toVariable b → b.flags.noConvert = false

/-- A record that has been changed in its values only serves the word still. -/
theorem Record.Serves.congr {r q : Record} {word : Word} {layout s : Scalar}
    (h : r.Serves word layout) (idle : q.common.active = false)
    (binding : q.common.binding = r.common.binding) (body : q.body = .scalar word.support s)
    (same : s.layout = layout) : q.Serves word layout :=
  ⟨idle, ⟨s, body, same⟩, h.reaches.congr binding,
    fun b bound => h.raw b (binding.symm.trans bound)⟩

/-! ## Connecting -/

/-- **On a register** the bits are put at their place, whatever is read. -/
theorem Register.layout_connect {b : Binding} {s : Scalar} {r : Record} {t : Registers}
    (body : r.body = .scalar .registers s) (idle : r.common.active = false)
    (multi : s.isMultiBit = true) :
    ∃ u, ((connect b s r t).1.connected (connect b s r t).2).common.active = false ∧
      ((connect b s r t).1.connected (connect b s r t).2).body = .scalar .registers u ∧
      u.layout = s.placed.layout := by
  obtain ⟨common, link, _⟩ := r
  obtain rfl : _ = Body.scalar .registers s := body
  cases s with
  | mbbi m => exact ⟨_, idle, rfl, rfl⟩
  | mbbo m back =>
    rcases read : b.read t with e | w
    · simp only [connect, readBack, read]
      split
      · exact ⟨_, idle, rfl, rfl⟩
      · exact ⟨_, idle, rfl, rfl⟩
    · simp only [connect, readBack, read]
      split
      · exact ⟨_, idle, rfl, rfl⟩
      · exact ⟨_, idle, rfl, rfl⟩
  | _ => simp [Scalar.isMultiBit] at multi

/-- Whatever is loaded as the raw value, the bits lie where they did. -/
theorem Variable.layout_connectOutput {b : Binding} {m : MultiBit} {back : UInt32} {r : Record}
    (body : r.body = .scalar .shared (.mbbo m back)) (idle : r.common.active = false)
    (field : b.field = .rval) (v : Variable) :
    (connectOutput b r v).record.common.active = false ∧
      ∃ raw, (connectOutput b r v).record.body = .scalar .shared (.mbbo { m with raw } back) := by
  have taken : (takeIn false b (r.bind (.toVariable b)) v).record.common.active = false ∧
      ∃ raw, (takeIn false b (r.bind (.toVariable b)) v).record.body =
        .scalar .shared (.mbbo { m with raw } back) := by
    refine ⟨(active_takeIn b (r.bind (.toVariable b)) v false).trans idle, ?_⟩
    cases put : (r.bind (.toVariable b)).put b.field v.value with
    | error e =>
      simp only [takeIn, put]
      exact ⟨m.raw, body⟩
    | ok q =>
      obtain ⟨x, rfl⟩ := Record.put_eq_ok put
      have loaded : ∃ raw, (r.bind (.toVariable b)).body.set b.field x =
          .scalar .shared (.mbbo { m with raw } back) := by
        have own : (r.bind (.toVariable b)).body = .scalar .shared (.mbbo m back) := body
        rw [field, own]
        cases x with
        | ulong n => exact ⟨n, rfl⟩
        | _ => exact ⟨m.raw, rfl⟩
      simp only [takeIn, put]
      split
      · exact loaded
      · exact loaded
  unfold connectOutput
  dsimp only
  split
  · exact ⟨idle, m.raw, body⟩
  · split
    · exact taken
    · exact taken

/-- **On a variable** the bits are put at their place if the record is connected at all. -/
theorem Variable.layout_connect {b : Binding} {s : Scalar} {r : Record} {v : Variable}
    {status : Transfer} (body : r.body = .scalar .shared s) (idle : r.common.active = false)
    (multi : s.isMultiBit = true) (field : b.field = .rval)
    (ok : (connect b s r v).result = .ok status) :
    ∃ u, ((connect b s r v).record.connected status).common.active = false ∧
      ((connect b s r v).record.connected status).body = .scalar .shared u ∧
      u.layout = s.placed.layout := by
  obtain ⟨common, link, _⟩ := r
  obtain rfl : _ = Body.scalar .shared s := body
  cases s with
  | mbbi m =>
    obtain rfl := Except.ok.inj ok
    exact ⟨_, idle, rfl, rfl⟩
  | mbbo m back =>
    obtain ⟨idle', raw, body'⟩ := layout_connectOutput (b := b) (m := m)
      (r := ⟨common, link, .scalar .shared (.mbbo m back)⟩) rfl idle field v
    rcases output : connectOutput b ⟨common, link, .scalar .shared (.mbbo m back)⟩ v with
      ⟨⟨common', link', _⟩, left, e | taken⟩
    · simp [connect, output] at ok
    · rw [output] at idle' body'
      obtain rfl : _ = Body.scalar .shared (.mbbo { m with raw } back) := body'
      simp only [connect, output] at ok ⊢
      split
      · rename_i init
        rw [if_pos init] at ok
        obtain rfl := Except.ok.inj ok
        exact ⟨_, idle', rfl, rfl⟩
      · rename_i quiet
        rw [if_neg quiet] at ok
        obtain rfl := Except.ok.inj ok
        let noted : Record := ⟨common', link', .scalar .shared (.mbbo { m.placed with raw } raw)⟩
        have masked : maskRaw noted = ⟨common', link', .scalar .shared
            (.mbbo { m.placed with raw := Bits.masked raw m.placed.mask } raw)⟩ :=
          maskRaw_scalar _ _ _ _
        have moved : ∃ u, ((maskRaw noted).connected taken).common.active = false ∧
            ((maskRaw noted).connected taken).body = .scalar .shared u ∧
            u.layout = (Scalar.mbbo m back).placed.layout := by
          rw [masked]
          cases taken with
          | raw => exact ⟨_, idle', rfl, rfl⟩
          | final => exact ⟨_, idle', rfl, rfl⟩
        exact moved
  | _ => simp [Scalar.isMultiBit] at multi

/-! ## Passes -/

/-- A record that reads works its state out from the raw value. -/
theorem Record.body_finish_of_mbbi {r : Record} {support : ScalarSupport} {m : MultiBit}
    (body : r.body = .scalar support (.mbbi m)) :
    (r.finish (.ok .raw)).body = .scalar support (.mbbi { m with val := m.ofRaw }) := by
  simp only [finish, withCommon, settle, body, Body.isOutput, Scalar.isOutput]
  rfl

section Input
variable {r : Record} {m : MultiBit} {w : UInt32} (idle : r.common.active = false)
include idle

/-- **A pass from a register.** -/
theorem Record.pass_from_register (body : r.body = .scalar .registers (.mbbi m))
    {b : Register.Binding} (bound : r.common.binding = .toRegister b) {t : Register.Registers}
    (read : b.read t = .ok w) :
    ∃ q raw, r.process Target.exchange (.registers t) = (q, .registers t) ∧
      q.common.active = false ∧ q.body =
        .scalar .registers (.mbbi { m with val := Bits.state w m.mask m.shift, raw }) := by
  have prepared : r.prepare.body = .scalar .registers (.mbbi m) := by
    rw [prepare_of_idle body idle]
    rfl
  have bound' : r.prepare.common.binding = .toRegister b := by rw [common_prepare, bound]
  have moved : Target.exchange r.prepare (.registers t) =
      ⟨r.prepare.mapScalar (·.receive w), .registers t, .ok .raw⟩ := by
    simp only [Target.exchange, Register.exchange, prepared, bound', Register.exchangeBound, read]
    rfl
  have received : (r.prepare.mapScalar (·.receive w)).body =
      .scalar .registers (.mbbi { m with raw := w &&& m.mask }) := by
    simp only [mapScalar, prepared]
    rfl
  have idle' : (Target.exchange r.prepare (.registers t)).record.common.active = false := by
    rw [moved]
    exact (congrArg Common.active r.common_prepare).trans idle
  have passed := process_of_idle (t := .registers t) (by simp [bound]) idle'
  rw [moved] at passed
  refine ⟨_, w &&& m.mask, passed, rfl, ?_⟩
  rw [body_finish_of_mbbi received, ← Bits.state_and w]
  rfl

/-- **A pass from a variable.** -/
theorem Record.pass_from_variable (body : r.body = .scalar .shared (.mbbi m))
    {b : Variable.Binding} (bound : r.common.binding = .toVariable b) (field : b.field = .rval)
    (direct : b.flags.noConvert = false) {v : Variable}
    (converted : v.value.convert .ulong = .ok (.ulong w)) :
    ∃ q raw, r.process Target.exchange (.shared v) = (q, .shared (v.post b.flags)) ∧
      q.common.active = false ∧ q.body =
        .scalar .shared (.mbbi { m with val := Bits.state w m.mask m.shift, raw }) := by
  have type : (Scalar.mbbi m).type? b.field = some .ulong := by
    rw [field]
    rfl
  refine ⟨_, Bits.masked w m.mask, process_of_converted body rfl idle bound type rfl converted,
    rfl, ?_⟩
  rw [field, direct, ← Bits.state_masked w]
  rfl

end Input

/-! ## The word as it is read -/

namespace Word
variable {c d : Controller} {word : Word}

/-- The word that an access reads. -/
def read? (c : Controller) : Word → Option UInt32
  | register address method => (method.read address c.registers.memory).toOption
  | shared v => (c.variableAt? v).bind fun x =>
      match x.value.convert .ulong with
      | .ok (.ulong w) => some w
      | _ => none

/-- A word that is there can be read, and has its bits. -/
theorem exists_read (present : word.Present c) :
    ∃ w, word.read? c = some w ∧ ∀ i < word.width c, w.toNat.testBit i = word.bit c i := by
  cases word with
  | register address m =>
    have accessible : m.check address = .ok () := present
    refine ⟨m.extend (m.stored address c.registers.memory), ?_, fun i inside => ?_⟩
    · simp only [read?, Register.Builtin.read, accessible]
      rfl
    · exact m.testBit_extend _ inside
  | shared v =>
    obtain ⟨x, here, type⟩ := present
    obtain ⟨w, converted, bits⟩ := Value.convert_ulong type
    refine ⟨w, by simp only [read?, here, Option.bind_some, converted], fun i inside => ?_⟩
    simp only [width, here, Option.map_some, Option.getD_some] at inside
    simp only [bit, here, Option.map_some, Option.getD_some]
    exact bits i inside

theorem read_of_read? {b : Register.Binding} {m : Register.Builtin} {w : UInt32}
    (access : b.access = .builtin m) (read : (register b.address m).read? c = some w) :
    b.read c.registers = .ok w := by
  simp only [read?] at read
  simp only [Register.Binding.read, access, Register.Access.read]
  cases stored : m.read b.address c.registers.memory with
  | error e => simp [stored, Except.toOption] at read
  | ok x => simpa [stored, Except.toOption] using read

theorem convert_of_read? {v : VariableId} {x : Variable} {w : UInt32}
    (here : c.variableAt? v = some x) (read : (shared v).read? c = some w) :
    x.value.convert .ulong = .ok (.ulong w) := by
  simp only [read?, here, Option.bind_some] at read
  split at read
  · rename_i converted
    rw [converted, Option.some.inj read]
  · contradiction

theorem width_le (c : Controller) (word : Word) : word.width c ≤ 32 := by
  cases word with
  | register _ m => exact m.bits_le
  | shared v =>
    cases here : c.variableAt? v with
    | none => simp [width, here]
    | some x =>
      simp only [width, here, Option.map_some, Option.getD_some]
      exact x.type.bits_le

/-- The word is there still, and is as wide as it was. -/
structure Lasts (word : Word) (c d : Controller) : Prop where
  present : word.Present d
  width : word.width d = word.width c

theorem Lasts.trans {e : Controller} (h : word.Lasts c d) (h' : word.Lasts d e) :
    word.Lasts c e :=
  ⟨h'.present, h'.width.trans h.width⟩

end Word

namespace Controller

/-- A record has its value of several bits, laid out like this, in the word. -/
def Serves (c : Controller) (id : RecordId) (word : Word) (layout : Scalar) : Prop :=
  ∃ r, c.record? id = some r ∧ r.Serves word layout

/-- What a record shows in a field. -/
def shows? (c : Controller) (id : RecordId) (f : Field) : Option Value :=
  (c.record? id).bind (·.get? f)

section Steps
variable {c d : Controller} {id : RecordId} {word : Word} {layout : Scalar} {k : MultiBit}

theorem Serves.of_record (h : c.Serves id word layout) (same : d.record? id = c.record? id) :
    d.Serves id word layout := by
  obtain ⟨r, there, serves⟩ := h
  exact ⟨r, same.trans there, serves⟩

/-- A client may write any value. -/
theorem Serves.putField (h : c.Serves id word layout) {j : RecordId} {r s : Record} {value : Value}
    (there : c.record? j = some r) (put : r.putField "VAL" value = .ok s) :
    (c.setRecord j s).Serves id word layout := by
  by_cases mine : j = id
  · subst mine
    obtain ⟨q, there', serves⟩ := h
    obtain rfl := Option.some.inj (there.symm.trans there')
    obtain ⟨x, rfl⟩ := Record.putField_val put
    obtain ⟨t, body, same⟩ := serves.body
    refine ⟨_, record?_setRecord_of_some there _, serves.congr serves.idle rfl ?_
      ((t.layout_set_val x).trans same)⟩
    rw [body]
    rfl
  · exact h.of_record (record?_setRecord_of_ne c s (Ne.symm mine))

/-- The bits of an output are its part of the word. -/
theorem Serves.partOf (h : c.Serves id word (.mbbo k 0)) : c.PartOf id word k.mask := by
  obtain ⟨r, there, idle, ⟨s, body, same⟩, reaches, -⟩ := h
  obtain ⟨val, raw, back, rfl⟩ := Scalar.eq_mbbo_of_layout same
  exact ⟨r, there, ⟨idle, _, body, rfl⟩, reaches, by rw [body]; rfl⟩

/-- What an output wants in its bits is its value. -/
theorem Serves.chosenBit (h : c.Serves id word (.mbbo k 0)) :
    ∃ val, c.shows? id .val = some (.enum val) ∧ ∀ i, c.chosenBit id i =
      (decide (k.shift.toNat ≤ i) && val.toNat.testBit (i - k.shift.toNat)) := by
  obtain ⟨r, there, -, ⟨s, body, same⟩, -⟩ := h
  obtain ⟨val, raw, back, rfl⟩ := Scalar.eq_mbbo_of_layout same
  refine ⟨val, ?_, fun i => ?_⟩
  · simp only [shows?, there, Option.bind_some, Record.get?, body]
    rfl
  · simp only [Controller.chosenBit, there, Option.map_some, body]
    rfl

/-- **One pass of an output** notes what it reads, and leaves its value as it is. -/
theorem Serves.process_mbbo (h : c.Serves id word (.mbbo k 0)) (present : word.Present c) :
    (c.process id).Serves id word (.mbbo k 0) ∧ word.Lasts c (c.process id) ∧
      (c.process id).shows? id .val = c.shows? id .val ∧
      (c.process id).shows? id .rbv = (word.read? c).map .ulong := by
  obtain ⟨part, present', width, -⟩ := h.partOf.process present
  obtain ⟨q, there', ⟨idle', -⟩, -⟩ := part
  obtain ⟨r, there, serves⟩ := h
  obtain ⟨s, body, same⟩ := serves.body
  obtain ⟨val, raw, back, rfl⟩ := Scalar.eq_mbbo_of_layout same
  obtain ⟨w, read, -⟩ := Word.exists_read present
  have after := record?_process_self there
  obtain rfl := Option.some.inj (after.symm.trans there')
  have binding := Record.binding_of_skeleton (r.skeleton_process (c.target r))
  -- Whatever the word is, the pass leaves a raw value and what was read.
  obtain ⟨raw', body'⟩ : ∃ raw', (r.process Target.exchange (c.target r)).1.body =
      .scalar word.support (.mbbo { k with val, raw := raw' } w) := by
    cases word with
    | register address m =>
      obtain ⟨b, bound, rfl, access⟩ := serves.reaches
      have target : c.target r = .registers c.registers := by
        simp [Controller.target, body, Word.support]
      rw [target, (Record.pass_into_register rfl serves.idle body bound
        (Word.read_of_read? access read)).1]
      exact ⟨_, rfl⟩
    | shared v =>
      obtain ⟨b, bound, rfl, field, -⟩ := serves.reaches
      obtain ⟨x, here, -⟩ := present
      rw [target_of_shared body bound here, (Record.pass_into_variable rfl serves.idle body bound
        field (Word.convert_of_read? here read)).1]
      exact ⟨_, rfl⟩
  refine ⟨⟨_, after, serves.congr idle' binding body' same⟩, ⟨present', width⟩, ?_, ?_⟩
  · simp only [shows?, after, there, Option.bind_some, Record.get?, body, body']
    rfl
  · simp only [shows?, after, Option.bind_some, Record.get?, body', read]
    rfl

/-- **One pass of an input** takes the state of the word, which stays as it is. -/
theorem Serves.process_mbbi (h : c.Serves id word (.mbbi k)) (present : word.Present c) {w : UInt32}
    (read : word.read? c = some w) :
    (c.process id).Serves id word (.mbbi k) ∧ word.Lasts c (c.process id) ∧
      (c.process id).shows? id .val = some (.enum (Bits.state w k.mask k.shift)) ∧
      ∀ i, word.bit (c.process id) i = word.bit c i := by
  obtain ⟨r, there, serves⟩ := h
  obtain ⟨s, body, same⟩ := serves.body
  obtain ⟨val, raw, rfl⟩ := Scalar.eq_mbbi_of_layout same
  have binding := Record.binding_of_skeleton (r.skeleton_process (c.target r))
  have after := record?_process_self there
  cases word with
  | register address m =>
    obtain ⟨b, bound, rfl, access⟩ := serves.reaches
    have target : c.target r = .registers c.registers := by
      simp [Controller.target, body, Word.support]
    obtain ⟨q, raw', passed, idle', body'⟩ :=
      Record.pass_from_register serves.idle body bound (Word.read_of_read? access read)
    rw [target, passed] at after binding
    have registers : (c.process id).registers = c.registers := by
      rw [process_of_record there, target, passed]
      rfl
    refine ⟨⟨q, after, serves.congr idle' binding body' same⟩, ⟨present, rfl⟩, ?_, fun i => ?_⟩
    · simp only [shows?, after, Option.bind_some, Record.get?, body']
      rfl
    · simp only [Word.bit, registers]
  | shared v =>
    obtain ⟨b, bound, rfl, field, -⟩ := serves.reaches
    obtain ⟨x, here, type⟩ := present
    have target := target_of_shared body bound here
    obtain ⟨q, raw', passed, idle', body'⟩ := Record.pass_from_variable serves.idle body bound field
      (serves.raw b bound) (Word.convert_of_read? here read)
    rw [target, passed] at after binding
    have left : variableAfter r x = x.post b.flags := by simp only [variableAfter, passed]
    have there' : (c.process id).variableAt? b.target = some (x.post b.flags) := by
      rw [process_of_shared there body bound here, left, variableAt?_setRecord,
        variableAt?_setVariable_of_some here]
    have value := x.value_post b.flags
    refine ⟨⟨q, after, serves.congr idle' binding body' same⟩, ⟨⟨_, there', ?_⟩, ?_⟩, ?_,
      fun i => ?_⟩
    · rw [Variable.type, value]
      exact type
    · simp only [Word.width, there', here, Option.map_some, Variable.type, value]
    · simp only [shows?, after, Option.bind_some, Record.get?, body']
      rfl
    · simp only [Word.bit, there', here, Option.map_some, value]

/-- One pass of a record with a value of several bits, whichever way it goes. -/
theorem Serves.process (h : c.Serves id word layout) (multi : layout.isMultiBit = true)
    (present : word.Present c) :
    (c.process id).Serves id word layout ∧ word.Lasts c (c.process id) := by
  obtain ⟨r, there, serves⟩ := h
  obtain ⟨s, body, same⟩ := serves.body
  cases s with
  | mbbi m =>
    obtain rfl : Scalar.mbbi _ = layout := same
    obtain ⟨w, read, -⟩ := Word.exists_read present
    obtain ⟨serves', lasts, -⟩ := Serves.process_mbbi ⟨r, there, serves⟩ present read
    exact ⟨serves', lasts⟩
  | mbbo m back =>
    obtain rfl : Scalar.mbbo _ 0 = layout := same
    obtain ⟨serves', lasts, -⟩ := Serves.process_mbbo ⟨r, there, serves⟩ present
    exact ⟨serves', lasts⟩
  | _ =>
    subst same
    simp [Scalar.layout, Scalar.skeleton, Scalar.isMultiBit] at multi

end Steps

/-! ## Startup -/

/-- The record is connected to the word, and moves its value raw and at once. -/
def Joins (c : Controller) (id : RecordId) (word : Word) : Prop :=
  ∃ q, c.record? id = some q ∧ ConnectedTo q.common.binding word ∧
    ∀ b, q.common.binding = .toVariable b → b.flags.noConvert = false

section Startup
variable {c d : Controller} {id : RecordId} {r : Record} {word : Word} {s : Scalar}

theorem Joins.of_record (h : c.Joins id word) (same : d.record? id = c.record? id) :
    d.Joins id word := by
  obtain ⟨q, there, rest⟩ := h
  exact ⟨q, same.trans there, rest⟩

/-- **A record of several bits that has been connected to the word serves it,** with its bits at
their place. -/
theorem serves_of_connected (there : c.record? id = some r)
    (body : r.body = .scalar word.support s) (idle : r.common.active = false)
    (multi : s.isMultiBit = true) (present : word.Present c)
    (connected : c.connected? id = some d) (joins : d.Joins id word) :
    d.Serves id word s.sized.placed.layout ∧ word.Lasts c d := by
  obtain ⟨q, stands, link, raw⟩ := joins
  have multi' : s.sized.isMultiBit = true := s.isMultiBit_sized.trans multi
  cases word with
  | register address m =>
    obtain ⟨b, -, stands', -⟩ := starts_on_register there body connected
    obtain rfl := Option.some.inj (stands.symm.trans stands')
    obtain ⟨u, idle', body', layout⟩ := Register.layout_connect
      (b := { b with owner := r.common.handle }) (t := c.registers) (Record.body_sized body) idle
      multi'
    exact ⟨⟨_, stands, ⟨idle', ⟨u, body', layout⟩, link, raw⟩⟩, present, rfl⟩
  | shared v =>
    obtain ⟨b, x, status, named, ok, stands', vars⟩ := starts_on_variable there body connected
    obtain rfl := Option.some.inj (stands.symm.trans stands')
    have same :=
      (Record.skeleton_connected (Variable.connect b s.sized r.sized x).record status).trans
        (Variable.skeleton_connect b s.sized r.sized x)
    have bound := Record.binding_of_bind same
    obtain ⟨b', bound', target, synchronous⟩ := link
    obtain rfl := Binding.toVariable.inj (bound.symm.trans bound')
    obtain ⟨discrete, rval⟩ := Scalar.word_of_isMultiBit multi
    have field : b.field = .rval := (Variable.isWord_of_resolve discrete
      (resolveVariable_eq_ok named).1 (raw b bound) synchronous).field.trans rval
    obtain ⟨u, idle', body', layout⟩ :=
      Variable.layout_connect (Record.body_sized body) idle multi' field ok
    have kept : d.variableAt? v = c.variableAt? v := congrArg (·[v.index]?) vars
    refine ⟨⟨_, stands, ⟨idle', ⟨u, body', layout⟩, ⟨b, bound, target, field, synchronous⟩, raw⟩⟩,
      ?_, ?_⟩
    · simpa only [Word.Present, kept] using present
    · simp only [Word.width, kept]

/-- **An initialised record of several bits serves the word that it is connected to.** -/
theorem serves_of_initialise (there : c.record? id = some r)
    (body : r.body = .scalar word.support s) (idle : r.common.active = false)
    (multi : s.isMultiBit = true) (present : word.Present c) (ok : (c.initialise id).2 = .ok ())
    (joins : (c.initialise id).1.Joins id word) :
    (c.initialise id).1.Serves id word s.sized.placed.layout ∧
      word.Lasts c (c.initialise id).1 := by
  obtain ⟨e, connected⟩ := connected?_of_initialise ok
  rw [initialise_of_connected connected] at joins ⊢
  have same : (e.joinScanList id).record? id = e.record? id := by simp [record?]
  -- The record is connected to the word before it may make its first pass.
  have joins' : e.Joins id word := by
    obtain ⟨q, stands, -⟩ := (keeps_outline_of_connected connected).record there
    obtain ⟨q', stands', skeleton⟩ :=
      (keeps_skeleton_processInitially (e.joinScanList id) id).record (same.trans stands)
    obtain ⟨q'', stands'', link, raw⟩ := joins
    obtain rfl := Option.some.inj (stands'.symm.trans stands'')
    have binding := Record.binding_of_skeleton skeleton
    exact ⟨q, stands, binding ▸ link, fun b bound => raw b (binding.trans bound)⟩
  obtain ⟨serves, lasts⟩ := serves_of_connected there body idle multi present connected joins'
  have serves' : (e.joinScanList id).Serves id word s.sized.placed.layout := serves.of_record same
  have lasts' : word.Lasts c (e.joinScanList id) := by
    cases word with
    | register _ _ => exact ⟨present, rfl⟩
    | shared v =>
      have kept : (e.joinScanList id).variableAt? v = e.variableAt? v :=
        congrArg (·[v.index]?) (vars_joinScanList e id)
      refine ⟨?_, ?_⟩
      · simpa only [Word.Present, kept] using lasts.present
      · simpa only [Word.width, kept] using lasts.width
  have multi' : s.sized.placed.layout.isMultiBit = true := by
    rw [Scalar.isMultiBit_layout, Scalar.isMultiBit_placed, Scalar.isMultiBit_sized, multi]
  obtain ⟨passed, still⟩ := serves'.process multi' lasts'.present
  obtain ⟨q, stands, own⟩ := serves'
  rw [processInitially_of_idle stands own.idle]
  split
  · exact ⟨passed, lasts'.trans still⟩
  · exact ⟨⟨q, stands, own⟩, lasts'⟩

end Startup

/-! ## Runs -/

/-- An output and an input that have their bits at one place of a word. -/
structure Counterparts (c : Controller) (word : Word) (writer reader : RecordId) (k : MultiBit)
    (width : Nat) : Prop where
  present : word.Present c
  width : word.width c = width
  writes : c.Serves writer word (.mbbo k 0)
  reads : c.Serves reader word (.mbbi k)

section Runs
variable {c : Controller} {word : Word} {writer reader : RecordId} {k : MultiBit} {width : Nat}

theorem Counterparts.apart (h : c.Counterparts word writer reader k width) : writer ≠ reader := by
  rintro rfl
  obtain ⟨r, there, -, ⟨s, body, same⟩, -⟩ := h.writes
  obtain ⟨q, there', -, ⟨t, body', same'⟩, -⟩ := h.reads
  obtain rfl := Option.some.inj (there.symm.trans there')
  obtain ⟨-, rfl⟩ := Body.scalar.inj (body.symm.trans body')
  exact absurd (same.symm.trans same') (by simp)

/-- A step in which a client writes a value or one of the two makes a pass. -/
theorem Counterparts.act (h : c.Counterparts word writer reader k width) {a : Action}
    (allowed : PutsAndPasses [writer, reader] a) :
    (c.act a).Counterparts word writer reader k width := by
  cases a with
  | put j field value =>
    obtain rfl : field = "VAL" := allowed
    rcases act_put_cases c j "VAL" value with e | ⟨r, s, there, put, e⟩
    · rw [e]
      exact h
    · rw [e]
      have present : word.Present (c.setRecord j s) := by
        have := h.present
        cases word <;> exact this
      have width : word.width (c.setRecord j s) = word.width c := by cases word <;> rfl
      exact ⟨present, width.trans h.width, h.writes.putField there put, h.reads.putField there put⟩
  | process j =>
    have mine : j ∈ [writer, reader] := allowed
    simp only [List.mem_cons, List.not_mem_nil, or_false] at mine
    rcases mine with rfl | rfl
    · obtain ⟨serves, lasts⟩ := h.writes.process rfl h.present
      exact ⟨lasts.present, lasts.width.trans h.width, serves,
        h.reads.of_record (record?_process_of_ne c h.apart.symm)⟩
    · obtain ⟨serves, lasts⟩ := h.reads.process rfl h.present
      exact ⟨lasts.present, lasts.width.trans h.width,
        h.writes.of_record (record?_process_of_ne c h.apart), serves⟩
  | _ => exact allowed.elim

theorem Counterparts.perform {actions : List Action} (h : c.Counterparts word writer reader k width)
    (run : ∀ a ∈ actions, PutsAndPasses [writer, reader] a) :
    (c.perform actions).Counterparts word writer reader k width := by
  induction actions generalizing c with
  | nil => exact h
  | cons a rest ih =>
    exact ih (h.act (run a List.mem_cons_self)) fun b later => run b (List.mem_cons_of_mem a later)

/-- **What an output writes, its counterpart reads,** as far as there are bits for it. -/
theorem Counterparts.transfer {bits shift : UInt16}
    (h : c.Counterparts word writer reader
      { mask := Bits.place (Bits.low bits) bits shift, bits, shift } width)
    (positive : 0 < bits.toNat) (small : bits.toNat ≤ 16)
    (inside : bits.toNat + shift.toNat ≤ width) :
    let d := (c.process writer).process reader
    ∃ val w, c.shows? writer .val = some (.enum val) ∧ word.read? c = some w ∧
      d.shows? writer .val = some (.enum val) ∧ d.shows? writer .rbv = some (.ulong w) ∧
      d.shows? reader .val = some (.enum (UInt16.ofNat (val.toNat % 2 ^ bits.toNat))) ∧
      ∀ i < width, i < shift.toNat ∨ shift.toNat + bits.toNat ≤ i →
        word.bit d i = word.bit c i := by
  intro d
  obtain ⟨val, shown, chosen⟩ := h.writes.chosenBit
  obtain ⟨w, read, -⟩ := Word.exists_read h.present
  obtain ⟨-, lasts, kept, noted⟩ := h.writes.process_mbbo h.present
  obtain ⟨-, -, -, written⟩ := h.writes.partOf.process h.present
  have reads := h.reads.of_record (record?_process_of_ne c h.apart.symm)
  obtain ⟨w', read', bits'⟩ := Word.exists_read lasts.present
  obtain ⟨-, -, taken, same⟩ := reads.process_mbbi lasts.present read'
  have wide : width ≤ 32 := h.width ▸ Word.width_le c word
  have some : bits ≠ 0 := by
    rintro rfl
    exact absurd positive (by decide)
  -- What the input reads under the mask is the value of the output.
  have carried : ∀ i < bits.toNat, w'.toNat.testBit (shift.toNat + i) = val.toNat.testBit i := by
    intro i own
    have within : shift.toNat + i < word.width c := by rw [h.width]; omega
    have under :
        (Bits.place (Bits.low bits) bits shift).toNat.testBit (shift.toNat + i) = true := by
      rw [Bits.testBit_place _ _ (by omega)]
      simp [own]
    rw [bits' _ (lasts.width.symm ▸ within), written _ within, if_pos under, chosen]
    simp
  have state := Bits.state_place positive small (Nat.le_trans inside wide) carried
  have unchanged : d.record? writer = (c.process writer).record? writer :=
    record?_process_of_ne _ h.apart
  refine ⟨val, w, shown, read, ?_, ?_, ?_, ?_⟩
  · rw [shows?, unchanged]
    exact kept.trans shown
  · rw [shows?, unchanged]
    refine noted.trans ?_
    rw [read]
    rfl
  · rw [← state]
    exact taken
  · intro i within outside
    have apart : (Bits.place (Bits.low bits) bits shift).toNat.testBit i ≠ true := by
      intro under
      rw [Bits.testBit_place _ _ (by omega)] at under
      simp only [some, decide_false, Bool.false_or, Bool.and_eq_true, decide_eq_true_eq] at under
      omega
    rw [same, written i (h.width.symm ▸ within), if_neg apart]

end Runs

/-! ## From startup on -/

/-- A record of this type and with these fields is there, idle, with the support for the word. -/
def Made (c : Controller) (id : RecordId) (word : Word) (s : Scalar) : Prop :=
  ∃ r, c.record? id = some r ∧ r.common.active = false ∧ r.body = .scalar word.support s

/-- The two records were initialised, one after the other. -/
def InitialisedInTurn (c : Controller) (first second : RecordId) (e : Controller) : Prop :=
  ∃ d, c.initialise first = (d, .ok ()) ∧ d.initialise second = (e, .ok ())

section Both
variable {c e : Controller} {word : Word}

/-- Records of several bits that are initialised in turn serve the word both. -/
theorem serves_of_initialisedInTurn {first second : RecordId} {s t : Scalar}
    (made : c.Made first word s) (multi : s.isMultiBit = true) (made' : c.Made second word t)
    (multi' : t.isMultiBit = true) (apart : first ≠ second) (present : word.Present c)
    (initialised : c.InitialisedInTurn first second e) (joins : e.Joins first word)
    (joins' : e.Joins second word) :
    e.Serves first word s.sized.placed.layout ∧ e.Serves second word t.sized.placed.layout ∧
      word.Lasts c e := by
  obtain ⟨r, there, idle, body⟩ := made
  obtain ⟨q, there', idle', body'⟩ := made'
  obtain ⟨d, ok, ok'⟩ := initialised
  obtain rfl : (c.initialise first).1 = d := congrArg Prod.fst ok
  obtain rfl : ((c.initialise first).1.initialise second).1 = e := congrArg Prod.fst ok'
  have kept := record?_initialise_of_ne (c.initialise first).1 apart
  obtain ⟨serves, lasts⟩ := serves_of_initialise there body idle multi present
    (congrArg Prod.snd ok) (joins.of_record kept.symm)
  obtain ⟨serves', lasts'⟩ := serves_of_initialise
    ((record?_initialise_of_ne c apart.symm).trans there') body' idle' multi' lasts.present
    (congrArg Prod.snd ok') joins'
  exact ⟨serves.of_record kept, serves', lasts.trans lasts'⟩

/-- **A value of several bits that is written is read.**  A multi-bit output and a multi-bit input
have as many bits, one to sixteen, at the same place of one word: a register of any width that
they access by the same method, or a variable of an integer type.  They are initialised in either
order, whether or not they are processed at once, and from then on clients write values and the
two make passes.  Whenever the output and after it the input make a pass, the input shows the
value of the output, cut to the number of bits; the bits of the word beside them are as before;
and the output shows as read back what was in the word before it wrote. -/
theorem value_read_after_write {writer reader : RecordId} {m n : MultiBit} {back : UInt32}
    {actions : List Action} (made : c.Made writer word (.mbbo m back))
    (made' : c.Made reader word (.mbbi n)) (bits : n.bits = m.bits) (shift : n.shift = m.shift)
    (positive : 0 < m.bits.toNat) (small : m.bits.toNat ≤ 16) (present : word.Present c)
    (inside : m.bits.toNat + m.shift.toNat ≤ word.width c)
    (initialised : c.InitialisedInTurn writer reader e ∨ c.InitialisedInTurn reader writer e)
    (joins : e.Joins writer word) (joins' : e.Joins reader word)
    (run : ∀ a ∈ actions, PutsAndPasses [writer, reader] a) :
    let f := e.perform actions
    let g := (f.process writer).process reader
    ∃ val w, f.shows? writer .val = some (.enum val) ∧ word.read? f = some w ∧
      g.shows? writer .val = some (.enum val) ∧ g.shows? writer .rbv = some (.ulong w) ∧
      g.shows? reader .val = some (.enum (UInt16.ofNat (val.toNat % 2 ^ m.bits.toNat))) ∧
      ∀ i < word.width c, i < m.shift.toNat ∨ m.shift.toNat + m.bits.toNat ≤ i →
        word.bit g i = word.bit f i := by
  have apart : writer ≠ reader := by
    rintro rfl
    obtain ⟨r, there, -, body⟩ := made
    obtain ⟨q, there', -, body'⟩ := made'
    obtain rfl := Option.some.inj (there.symm.trans there')
    exact absurd (body.symm.trans body') (by simp)
  have placed : (Scalar.mbbi n).sized.placed.layout =
      .mbbi { mask := Bits.place (Bits.low m.bits) m.bits m.shift
              bits := m.bits, shift := m.shift } := by
    rw [← bits, ← shift]
    rfl
  obtain ⟨writes, reads, lasts⟩ : e.Serves writer word (Scalar.mbbo m back).sized.placed.layout ∧
      e.Serves reader word (Scalar.mbbi n).sized.placed.layout ∧ word.Lasts c e := by
    rcases initialised with first | first
    · exact serves_of_initialisedInTurn made rfl made' rfl apart present first joins joins'
    · obtain ⟨reads, writes, lasts⟩ :=
        serves_of_initialisedInTurn made' rfl made rfl apart.symm present first joins' joins
      exact ⟨writes, reads, lasts⟩
  rw [placed] at reads
  have counterparts : e.Counterparts word writer reader _ (word.width c) :=
    ⟨lasts.present, lasts.width, writes, reads⟩
  exact (counterparts.perform run).transfer positive small inside

end Both

/-- A valve that is set through three bits of a variable, and a gauge that shows them. -/
def valveAndGauge : Controller :=
  let valve : Record := ⟨{ name := "valve" }, .hardware ⟨0, 0, "g"⟩,
    .scalar .shared (.mbbo { bits := 3, shift := 4 } 0)⟩
  let gauge : Record := ⟨{ name := "gauge" }, .hardware ⟨0, 0, "g"⟩,
    .scalar .shared (.mbbi { bits := 3, shift := 4 })⟩
  let c := (({} : Controller).registerGroup "g" [{ value := .ulong 0xFFFF0000 }]).1
  ((c.adopt valve none).2.adopt gauge none).2

/-- Of thirteen the gauge shows the lower three bits, which are five. -/
theorem value_read_from_gauge :
    let e := ((valveAndGauge.initialise ⟨0⟩).1.initialise ⟨1⟩).1
    let f := e.perform [.put ⟨0⟩ "VAL" (.long 13)]
    valveAndGauge.InitialisedInTurn ⟨0⟩ ⟨1⟩ e ∧ f.shows? ⟨0⟩ .val = some (.enum 13) ∧
      ((f.process ⟨0⟩).process ⟨1⟩).shows? ⟨1⟩ .val = some (.enum 5) := by
  intro e f
  have initialised : valveAndGauge.InitialisedInTurn ⟨0⟩ ⟨1⟩ e :=
    ⟨_, Prod.ext rfl rfl, Prod.ext rfl rfl⟩
  have written : f.shows? ⟨0⟩ .val = some (.enum 13) := rfl
  have valve : e.Joins ⟨0⟩ (.shared ⟨0⟩) := by
    refine ⟨_, rfl, ⟨_, rfl, rfl, rfl⟩, ?_⟩
    rintro b ⟨⟩
    rfl
  have gauge : e.Joins ⟨1⟩ (.shared ⟨0⟩) := by
    refine ⟨_, rfl, ⟨_, rfl, rfl, rfl⟩, ?_⟩
    rintro b ⟨⟩
    rfl
  have run : ∀ a ∈ [Action.put ⟨0⟩ "VAL" (.long 13)], PutsAndPasses [⟨0⟩, ⟨1⟩] a := by
    simp [PutsAndPasses]
  have made : valveAndGauge.Made ⟨0⟩ (.shared ⟨0⟩) (.mbbo { bits := 3, shift := 4 } 0) :=
    ⟨_, rfl, rfl, rfl⟩
  have made' : valveAndGauge.Made ⟨1⟩ (.shared ⟨0⟩) (.mbbi { bits := 3, shift := 4 }) :=
    ⟨_, rfl, rfl, rfl⟩
  obtain ⟨val, w, shown, -, -, -, taken, -⟩ :=
    value_read_after_write made made' rfl rfl (by decide) (by decide) ⟨_, rfl, rfl⟩ (by decide)
      (.inl initialised) valve gauge run
  obtain rfl : (13 : UInt16) = val := by simpa using written.symm.trans shown
  exact ⟨initialised, written, taken⟩

end Controller

end ControlRecords
