import ControlRecords.Proofs.MaskedStartup
import ControlRecords.Proofs.MultiBit
import ControlRecords.Proofs.StartingState
import ControlRecords.Proofs.WordPass

/-! # Starting without a bump

A multi-bit output that is not processed at once takes its state over from the word that it
finds, so that the first pass writes back what is there and nothing that is driven by the word
notices.  The state has sixteen bits, and the mask may cover more of the word, which is meant for
words with no more than that in use.  So the word that the first pass leaves is the one that was
found without the bits under the mask from the sixteenth on (`word_after_quiet_start`), and the
start is without a bump whenever there are none: always if the record has one to sixteen bits, or
if it lies sixteen places or more to the left. -/
namespace ControlRecords

/-- An idle multi-bit output that has taken its state over from a word. -/
structure Record.TookOver (r : Record) (support : ScalarSupport) (m : MultiBit) (w : UInt32) :
    Prop where
  idle : r.common.active = false
  body : ∃ raw back, r.body =
    .scalar support (.mbbo { m with val := Bits.state w m.mask m.shift, raw } back)

/-- A raw value with all of the word that counts has the state of the word. -/
theorem Record.TookOver.of_connected {r : Record} {support : ScalarSupport} {m : MultiBit}
    {w x back : UInt32} (idle : r.common.active = false)
    (body : r.body = .scalar support (.mbbo { m with raw := x } back))
    (same : Bits.state x m.mask m.shift = Bits.state w m.mask m.shift) :
    (r.connected .raw).TookOver support m w := by
  have worked : r.connected .raw = { r with body := r.body.ofRaw }.setUndefined false := by
    simp only [connected, body, Scalar.isOutput, if_true]
  rw [worked]
  refine ⟨idle, x, back, ?_⟩
  show r.body.ofRaw = _
  rw [body, ← same]
  rfl

/-! ## Connecting -/

/-- **On a register** the bits under the mask are the raw value. -/
theorem Register.tookOver_connect {b : Binding} {m : MultiBit} {back w : UInt32} {r : Record}
    {t : Registers} (body : r.body = .scalar .registers (.mbbo m back))
    (idle : r.common.active = false) (quiet : r.common.initProcess = false)
    (read : b.read t = .ok w) :
    ((connect b (.mbbo m back) r t).1.connected (connect b (.mbbo m back) r t).2).TookOver
      .registers m.placed w := by
  obtain ⟨common, link, _⟩ := r
  obtain rfl : _ = Body.scalar .registers (.mbbo m back) := body
  have made : connect b (.mbbo m back) ⟨common, link, .scalar .registers (.mbbo m back)⟩ t =
      (⟨{ common with binding := .toRegister b }.promoteAlarms, link, .scalar .registers
        (.mbbo { m.placed with raw := w &&& m.placed.mask } w)⟩, .raw) := by
    simp only [connect, readBack, read]
    exact if_neg (Bool.eq_false_iff.1 quiet)
  rw [made]
  exact .of_connected idle rfl (Bits.state_and w m.placed.mask m.shift)

namespace Variable
variable {b : Binding} {m : MultiBit} {back w : UInt32} {r : Record} {v : Variable}

/-- A record with bits of its own moves its raw value, whatever its link asks for. -/
theorem noConvert_of_resolve {t : GroupTable} {setting : Option String} {link : Link} {s : Scalar}
    (own : s.merges = true) (named : (resolve t setting link r (.ofScalar s)).1 = .ok b) :
    b.flags.noConvert = false := by
  obtain ⟨⟨signal, flags⟩, -⟩ := resolve_eq_ok named
  rw [flags, Choice.ofScalar_of_merges own]
  rfl

/-- **On a variable** the raw value is the same, unless no bit is under the mask. -/
theorem tookOver_connect (body : r.body = .scalar .shared (.mbbo m back))
    (idle : r.common.active = false) (quiet : r.common.initProcess = false)
    (field : b.field = .rval) (raw : b.flags.noConvert = false) (word : v.value = .ulong w) :
    (connect b (.mbbo m back) r v).result = .ok .raw ∧
      ((connect b (.mbbo m back) r v).record.connected .raw).TookOver .shared m.placed w := by
  obtain ⟨common, link, _⟩ := r
  obtain rfl : _ = Body.scalar .shared (.mbbo m back) := body
  let bound : Record :=
    ⟨{ common with binding := .toVariable b }, link, .scalar .shared (.mbbo m back)⟩
  let loaded : Record := { bound with body := .scalar .shared (.mbbo { m with raw := w } back) }
  have put : bound.put b.field v.value = .ok loaded := by
    simp only [Record.put, field, word]
    rfl
  have taken : takeIn false b bound v = ⟨inherit loaded v, v, .ok .raw⟩ := by
    simp only [takeIn, put, raw, Bool.false_eq_true, if_false]
  have output : connectOutput b ⟨common, link, .scalar .shared (.mbbo m back)⟩ v =
      ⟨(inherit loaded v).withCommon Common.promoteAlarms, v, .ok .raw⟩ := by
    have start : (⟨common, link, .scalar .shared (.mbbo m back)⟩ : Record).bind (.toVariable b) =
        bound := rfl
    have quiet' : bound.common.initProcess = false := quiet
    simp only [connectOutput, start, quiet', taken, Bool.false_eq_true, if_false]
  let noted : Record := (((inherit loaded v).withCommon Common.promoteAlarms).mapScalar
    Scalar.placed).mapScalar fun s => s.noteReadBack s.word
  have made : connect b (.mbbo m back) ⟨common, link, .scalar .shared (.mbbo m back)⟩ v =
      ⟨maskRaw noted, v, .ok .raw⟩ := by
    have still : (inherit loaded v).common.initProcess = false :=
      (congrArg (·.common.initProcess) (skeleton_inherit loaded v)).trans quiet
    simp only [connect, output]
    exact if_neg (Bool.eq_false_iff.1 still)
  have masked : (maskRaw noted).body = .scalar .shared
      (.mbbo { m.placed with raw := Bits.masked w m.placed.mask } w) :=
    congrArg Record.body (maskRaw_scalar _ link .shared (.mbbo { m.placed with raw := w } w))
  rw [made]
  exact ⟨rfl, .of_connected ((active_inherit loaded v).trans idle) masked
    (Bits.state_masked w m.placed.mask m.shift)⟩

end Variable

/-! ## The first pass -/

section FirstPass
variable {r : Record} {m : MultiBit} {w : UInt32}
  (placed : ∀ i, m.mask.toNat.testBit i = true → m.shift.toNat ≤ i)
include placed

/-- The first pass over a register writes the word without the overhang. -/
theorem Record.TookOver.pass_register (h : r.TookOver .registers m w) {b : Register.Binding}
    (bound : r.common.binding = .toRegister b) {t : Register.Registers} (read : b.read t = .ok w) :
    (r.process Target.exchange (.registers t)).2 =
      .registers ((b.write (w &&& ~~~Bits.overhang m.mask m.shift) t).toOption.getD t) := by
  obtain ⟨idle, raw, back, body⟩ := h
  rw [(pass_into_register rfl idle body bound read).2, ← Bits.merge_state placed]
  rfl

/-- The first pass over a variable stores the word without the overhang, or is refused. -/
theorem Record.TookOver.pass_variable (h : r.TookOver .shared m w) {b : Variable.Binding}
    (bound : r.common.binding = .toVariable b) (field : b.field = .rval) {v : Variable}
    (word : v.value = .ulong w) :
    ∃ v', (r.process Target.exchange (.shared v)).2 = .shared v' ∧ v'.value =
      if v.admits b r then .ulong (w &&& ~~~Bits.overhang m.mask m.shift) else .ulong w := by
  obtain ⟨idle, raw, back, body⟩ := h
  have converted : v.value.convert .ulong = .ok (.ulong w) := by
    rw [word]
    rfl
  have kept : ∀ x, (Value.ulong x).convert v.type = .ok (.ulong x) := by
    intro x
    rw [Variable.type, word]
    rfl
  obtain ⟨-, v', passed, value⟩ := pass_into_variable rfl idle body bound field converted
  refine ⟨v', passed, ?_⟩
  rw [value, kept, word, ← Bits.merge_state placed]
  split <;> rfl

end FirstPass

/-! ## In a controller -/

namespace Register

/-- The register has thirty-two bits: it is one of memory that wide, or a cell. -/
def Access.IsWide : Access → Prop
  | builtin method => method.width = 4
  | custom _ => True

/-- A word that was written to a register that wide is read again. -/
theorem Binding.read_of_write {b : Binding} (wide : b.access.IsWide) {word : UInt32}
    {t t' : Registers} (written : b.write word t = .ok t') : b.read t' = .ok word := by
  cases access : b.access with
  | builtin m =>
    rw [access] at wide
    cases accessible : m.check b.address with
    | error e => simp [write, access, Access.write, Builtin.write, accessible] at written
    | ok _ =>
      have memory : b.IsWord m := ⟨access, wide, accessible⟩
      rw [memory.write] at written
      obtain rfl := Except.ok.inj written
      exact memory.read_store word t
  | custom method =>
    simp only [write, access, Access.write] at written
    split at written
    · contradiction
    · obtain rfl := Except.ok.inj written
      simp [read, access, Access.read, CellBank.word?_put]

end Register

/-- What is written to the binding is never refused if the word there can be read. -/
def Binding.IsDirect : Binding → Prop
  | .toRegister b => ∃ method, b.access = .builtin method
  | .toVariable b => b.flags.asynchronous = false
  | _ => True

theorem Register.Binding.exists_write {b : Binding} {t : Registers} {w : UInt32}
    (direct : (ControlRecords.Binding.toRegister b).IsDirect) (read : b.read t = .ok w)
    (word : UInt32) : ∃ t', b.write word t = .ok t' := by
  obtain ⟨m, access⟩ := direct
  simp only [Binding.read, access, Access.read, Builtin.read] at read
  split at read
  · contradiction
  · rename_i accessible
    simp only [Binding.write, access, Access.write, Builtin.write, accessible]
    exact ⟨_, rfl⟩

namespace Controller

/-- The word of thirty-two bits behind a binding. -/
def wordBehind? (c : Controller) : Binding → Option UInt32
  | .toRegister b => (b.read c.registers).toOption
  | .toVariable b => (c.variableAt? b.target).bind fun v =>
      match v.value with
      | .ulong w => some w
      | _ => none
  | _ => none

/-- The link of a multi-bit output leads to a word of thirty-two bits. -/
inductive LeadsTo (c : Controller) (r : Record) (m : MultiBit) : Binding → Prop
  | register {back : UInt32} {b : Register.Binding}
      (body : r.body = .scalar .registers (.mbbo m back))
      (named : (Register.resolve c.catalogue r.link).1 = .ok b) (wide : b.access.IsWide) :
      LeadsTo c r m (.toRegister b)
  | shared {back : UInt32} {b : Variable.Binding} {v : Variable}
      (body : r.body = .scalar .shared (.mbbo m back))
      (named : (c.resolveVariable r.link r (.ofScalar (.mbbo m back))).2 = .ok (b, v)) :
      LeadsTo c r m (.toVariable b)

/-- A word that a record writes to what it is connected to is taken: the register can be written,
or the variable admits the write. -/
def takesWord (c : Controller) (id : RecordId) (word : UInt32) : Binding → Bool
  | .toRegister b => (b.write word c.registers).isOk
  | .toVariable b =>
    match c.record? id, c.variableAt? b.target with
    | some r, some v => v.admits b r
    | _, _ => false
  | _ => false

/-- Initialising the record leaves the word as it is.  The pass that follows writes the word
without some bits, and these are lost exactly if the write is taken. -/
structure StartsQuietly (c : Controller) (id : RecordId) (binding : Binding) (w bits : UInt32)
    (d : Controller) (w' : UInt32) : Prop where
  initialised : c.initialise id = (d, .ok ())
  untouched : d.wordBehind? binding = some w
  left : (d.process id).wordBehind? binding = some w'
  kept : w' = if d.takesWord id (w &&& ~~~bits) binding then w &&& ~~~bits else w
  direct : binding.IsDirect → w' = w &&& ~~~bits

section Pass
variable {d : Controller} {id : RecordId} {q : Record} {m : MultiBit} {w : UInt32}
  (stands : d.record? id = some q)
  (placed : ∀ i, m.mask.toNat.testBit i = true → m.shift.toNat ≤ i)
include stands placed

/-- The pass over a register writes its word without the overhang. -/
theorem word_after_pass_on_register (took : q.TookOver .registers m w) {b : Register.Binding}
    (bound : q.common.binding = .toRegister b) (wide : b.access.IsWide)
    (read : b.read d.registers = .ok w) :
    let word := w &&& ~~~Bits.overhang m.mask m.shift
    (d.process id).wordBehind? (.toRegister b) =
      some (if d.takesWord id word (.toRegister b) then word else w) := by
  intro word
  have passed := took.pass_register placed bound read
  have target : d.target q = .registers d.registers := by
    obtain ⟨-, raw, back, own⟩ := took
    simp only [Controller.target, own]
  have after : (d.process id).registers = (b.write word d.registers).toOption.getD d.registers := by
    rw [process_of_record stands, target, passed]
    rfl
  have taken : d.takesWord id word (.toRegister b) = (b.write word d.registers).isOk := rfl
  rw [wordBehind?, after, taken]
  cases written : b.write word d.registers with
  | ok t => exact congrArg Except.toOption (Register.Binding.read_of_write wide written)
  | error f => exact congrArg Except.toOption read

/-- The pass over a variable stores it without the overhang, if the variable admits the write. -/
theorem word_after_pass_on_variable (took : q.TookOver .shared m w) {b : Variable.Binding}
    (bound : q.common.binding = .toVariable b) (field : b.field = .rval) {v : Variable}
    (here : d.variableAt? b.target = some v) (holds : v.value = .ulong w) :
    let word := w &&& ~~~Bits.overhang m.mask m.shift
    (d.process id).wordBehind? (.toVariable b) =
      some (if d.takesWord id word (.toVariable b) then word else w) := by
  intro word
  obtain ⟨v', passed, value⟩ := took.pass_variable placed bound field holds
  obtain ⟨idle, raw, back, own⟩ := took
  have after : (d.process id).variableAt? b.target = some v' := by
    have left : variableAfter q v = v' := by simp only [variableAfter, passed]
    rw [process_of_shared stands own bound here, left, variableAt?_setRecord,
      variableAt?_setVariable_of_some here]
  simp only [wordBehind?, after, Option.bind_some, value, takesWord, stands, here]
  cases v.admits b q <;> rfl

omit placed

/-- A write that goes to a register of memory, or that waits for nobody, is taken. -/
theorem takesWord_of_direct {support : ScalarSupport} (took : q.TookOver support m w)
    {binding : Binding} (direct : binding.IsDirect) (holds : d.wordBehind? binding = some w)
    (word : UInt32) : d.takesWord id word binding = true := by
  cases binding with
  | toRegister b =>
    cases read : b.read d.registers with
    | error e => simp [wordBehind?, read, Except.toOption] at holds
    | ok x =>
      obtain ⟨t, written⟩ := Register.Binding.exists_write direct read word
      simp only [takesWord, written]
      rfl
  | toVariable b =>
    have synchronous : b.flags.asynchronous = false := direct
    cases here : d.variableAt? b.target with
    | none => simp [wordBehind?, here] at holds
    | some v =>
      simp only [takesWord, stands, here, Variable.admits, took.idle, synchronous]
      rfl
  | _ => simp [wordBehind?] at holds

end Pass

section Start
variable {c : Controller} {id : RecordId} {r : Record} {m : MultiBit} {back w : UInt32}
  (there : c.record? id = some r) (idle : r.common.active = false)
  (quiet : r.common.initProcess = false)
include there idle quiet

theorem startsQuietly_on_register {b : Register.Binding}
    (body : r.body = .scalar .registers (.mbbo m back))
    (named : (Register.resolve c.catalogue r.link).1 = .ok b) (wide : b.access.IsWide)
    (read : b.read c.registers = .ok w) :
    ∃ d w', c.StartsQuietly id (.toRegister b) w
      (Bits.overhang (Bits.place (Bits.low m.bits) m.bits m.shift) m.shift) d w' := by
  obtain ⟨e, connected⟩ := exists_connected?_on_register there body named
  obtain ⟨b', named', stands, registers⟩ := starts_on_register there body connected
  obtain rfl : b = b' := Except.ok.inj (named.symm.trans named')
  have took : (c.startOnRegister r (.mbbo m back) b).TookOver .registers m.sized.placed w :=
    Register.tookOver_connect (b := { b with owner := r.common.handle }) (Record.body_sized body)
      idle quiet read
  have same : (c.startOnRegister r (.mbbo m back) b).skeleton =
      r.sized.skeleton.bind (.toRegister { b with owner := r.common.handle }) :=
    (Record.skeleton_connected _ _).trans (Register.skeleton_connect _ _ _ _)
  have initialised := initialise_of_quiet connected stands
    ((congrArg (·.common.initProcess) same).trans quiet)
  have stands' : (e.joinScanList id).record? id = some (c.startOnRegister r (.mbbo m back) b) := by
    simpa [record?] using stands
  -- The first pass is one over the registers as they were.
  have registers' : (e.joinScanList id).registers = c.registers :=
    (registers_joinScanList e id).trans registers
  have read' : b.read (e.joinScanList id).registers = .ok w := by rw [registers', read]
  have untouched : (e.joinScanList id).wordBehind? (.toRegister b) = some w :=
    congrArg Except.toOption read'
  have left := word_after_pass_on_register stands' (fun _ h => Bits.le_of_testBit_place h) took
    (Record.binding_of_bind same) wide read'
  refine ⟨_, _, initialised, untouched, left, rfl, fun direct => if_pos ?_⟩
  exact takesWord_of_direct stands' took direct untouched _

theorem startsQuietly_on_variable {b : Variable.Binding} {v : Variable}
    (body : r.body = .scalar .shared (.mbbo m back))
    (named : (c.resolveVariable r.link r (.ofScalar (.mbbo m back))).2 = .ok (b, v))
    (holds : v.value = .ulong w) :
    ∃ d w', c.StartsQuietly id (.toVariable b) w
      (Bits.overhang (Bits.place (Bits.low m.bits) m.bits m.shift) m.shift) d w' := by
  obtain ⟨found, here⟩ := resolveVariable_eq_ok named
  have field := Variable.field_of_resolve (s := .mbbo m back) rfl found
  have raw := Variable.noConvert_of_resolve (s := .mbbo m back) rfl found
  obtain ⟨ok, took⟩ : (Variable.connect b (Scalar.mbbo m back).sized r.sized v).result = .ok .raw ∧
      ((Variable.connect b (Scalar.mbbo m back).sized r.sized v).record.connected .raw).TookOver
        .shared m.sized.placed w :=
    Variable.tookOver_connect (Record.body_sized body) idle quiet field raw holds
  obtain ⟨e, connected⟩ := exists_connected?_on_variable there body named ok
  obtain ⟨b', v', status, named', ok', stands, vars⟩ := starts_on_variable there body connected
  obtain ⟨rfl, rfl⟩ := Prod.mk.inj (Except.ok.inj (named.symm.trans named'))
  obtain rfl : .raw = status := Except.ok.inj (ok.symm.trans ok')
  have same := (Record.skeleton_connected
    (Variable.connect b (Scalar.mbbo m back).sized r.sized v).record .raw).trans
      (Variable.skeleton_connect b _ r.sized v)
  have initialised := initialise_of_quiet connected stands
    ((congrArg (·.common.initProcess) same).trans quiet)
  have stands' : (e.joinScanList id).record? id = some
      ((Variable.connect b (Scalar.mbbo m back).sized r.sized v).record.connected .raw) := by
    simpa [record?] using stands
  -- The first pass is one over the variable as it was.
  have here' : (e.joinScanList id).variableAt? b.target = some v := by
    rw [variableAt?, vars_joinScanList, vars]
    exact here
  have untouched : (e.joinScanList id).wordBehind? (.toVariable b) = some w := by
    simp only [wordBehind?, here', Option.bind_some, holds]
  have left := word_after_pass_on_variable stands' (fun _ h => Bits.le_of_testBit_place h) took
    (Record.binding_of_bind same) field here' holds
  refine ⟨_, _, initialised, untouched, left, rfl, fun direct => if_pos ?_⟩
  exact takesWord_of_direct stands' took direct untouched _

end Start

/-- **A start without a bump.**  A multi-bit output that is not to be processed at once is
initialised on a word of thirty-two bits, in a register or in a variable, and then makes a pass.
Initialising succeeds and leaves the word alone.  The pass writes the word without its overhang,
which are the bits under the mask from the sixteenth on: if the write is taken, these are lost and
all others are kept, and if it is refused, the word is as it was.  So nothing changes if the word
has no such bit; there is none at all for a record of one to sixteen bits or one that lies sixteen
places or more to the left. -/
theorem word_after_quiet_start {c : Controller} {id : RecordId} {r : Record} {m : MultiBit}
    {binding : Binding} {w : UInt32} (there : c.record? id = some r)
    (leads : c.LeadsTo r m binding) (idle : r.common.active = false)
    (quiet : r.common.initProcess = false) (holds : c.wordBehind? binding = some w) :
    let overhang := Bits.overhang (Bits.place (Bits.low m.bits) m.bits m.shift) m.shift
    ∃ d w', c.StartsQuietly id binding w overhang d w' ∧ (w &&& overhang = 0 → w' = w) ∧
      ((0 < m.bits.toNat ∧ m.bits.toNat ≤ 16) ∨ 16 ≤ m.shift.toNat → w' = w) := by
  intro overhang
  obtain ⟨d, w', starts⟩ : ∃ d w', c.StartsQuietly id binding w overhang d w' := by
    cases leads with
    | register body named wide =>
      rename_i b
      cases read : b.read c.registers with
      | error e => simp [wordBehind?, read, Except.toOption] at holds
      | ok x =>
        obtain rfl : x = w := by simpa [wordBehind?, read, Except.toOption] using holds
        exact startsQuietly_on_register there idle quiet body named wide read
    | shared body named =>
      rename_i b v
      have here := (resolveVariable_eq_ok named).2
      simp only [wordBehind?, here, Option.bind_some] at holds
      split at holds
      · rename_i x value
        obtain rfl := Option.some.inj holds
        exact startsQuietly_on_variable there idle quiet body named value
      · contradiction
  have same : w &&& overhang = 0 → w' = w := by
    intro none
    rw [starts.kept, Bits.and_not_of_and_eq_zero none, ite_self]
  refine ⟨d, w', starts, same, fun narrow => same ?_⟩
  rw [show overhang = 0 from Bits.overhang_place narrow]
  exact UInt32.and_zero

/-- A multi-bit output for a variable that holds a word. -/
def modeOn (bits shift : UInt16) (w : UInt32) : Controller :=
  let mode : Record :=
    ⟨{ name := "m" }, .hardware ⟨0, 0, "g"⟩, .scalar .shared (.mbbo { bits, shift } 0)⟩
  (((({} : Controller).registerGroup "g" [{ value := .ulong w }]).1).adopt mode none).2

/-- What the mode is connected to. -/
def modeBinding : Binding := .toVariable ⟨⟨0⟩, {}, .rval, .ulong⟩

/-- Four bits in the middle of the word come back as they were. -/
theorem word_of_small_mode :
    ∃ d, (modeOn 4 12 0x12345678).initialise ⟨0⟩ = (d, .ok ()) ∧
      (d.process ⟨0⟩).wordBehind? modeBinding = some 0x12345678 := by
  have there : (modeOn 4 12 0x12345678).record? ⟨0⟩ = some
      ⟨{ name := "m", handle := some ⟨0⟩ }, .hardware ⟨0, 0, "g"⟩,
        .scalar .shared (.mbbo { bits := 4, shift := 12 } 0)⟩ := rfl
  obtain ⟨d, w', starts, -, narrow⟩ := word_after_quiet_start there
    (.shared (m := { bits := 4, shift := 12 }) (b := ⟨⟨0⟩, {}, .rval, .ulong⟩) rfl rfl) rfl rfl
    (w := 0x12345678) rfl
  refine ⟨d, starts.initialised, ?_⟩
  rw [← narrow (by decide)]
  exact starts.left

/-- A mode that uses all bits clears the upper half of the word. -/
theorem word_of_wide_mode :
    ((modeOn 0 0 0x12345678).initialise ⟨0⟩).2 = .ok () ∧
      (modeOn 0 0 0x12345678).wordBehind? modeBinding = some 0x12345678 ∧
      (((modeOn 0 0 0x12345678).initialise ⟨0⟩).1.process ⟨0⟩).wordBehind? modeBinding =
        some 0x5678 :=
  ⟨rfl, rfl, rfl⟩

end Controller

end ControlRecords
