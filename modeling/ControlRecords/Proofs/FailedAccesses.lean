import ControlRecords.Proofs.Footprint
import ControlRecords.Proofs.Refusals

/-! # Passes that fail at their register

A record that reads takes a word from its register.  A record that writes sends one there, and
reads the register before if only some bits of the word are its own.  So there are two accesses
that a pass can fail at, and the alarm tells which (`Register.Fault`): the address may be none
that a built-in method can access, and a bank of cells may have no cell to read at the address or
may have it locked.

Whichever access it is, nothing has been written by then, and the support gives the record back
with its value as it was (`Register.Exchanged`).  So the pass changes neither the registers nor
what the record says, apart from the alarm and the time (`failed_accesses_have_no_effect`).  The
alarm is raised before the one for an undefined value, which is of the same severity and does not
replace it. -/
namespace ControlRecords

namespace Scalar
variable (s : Scalar)

/-- A pass reads the register, before it writes if it does both. -/
def reads : Bool := !s.isOutput || s.merges

theorem not_reads : (!s.reads) = (s.isOutput && !s.merges) := by simp [reads]

variable {s} in
/-- A record that does not read writes. -/
theorem isOutput_of_not_reads (h : s.reads = false) : s.isOutput = true := by
  simp_all [reads]

@[simp] theorem reads_toRaw : s.toRaw.reads = s.reads := by
  rw [reads, reads, isOutput_toRaw, (Alike.toRaw s).merges]

@[simp] theorem get?_val_toRaw : s.toRaw.get? .val = s.get? .val := by cases s <;> rfl

@[simp] theorem get?_val_noteReadBack (w : UInt32) :
    (s.noteReadBack w).get? .val = s.get? .val := by
  cases s <;> rfl

end Scalar

namespace Record

theorem get?_val_noteReadBack (r : Record) (w : UInt32) :
    (r.mapScalar (·.noteReadBack w)).get? .val = r.get? .val := by
  obtain ⟨common, link, body⟩ := r
  cases body with
  | scalar support s => simp [get?, mapScalar, Body.mapScalar, Body.get?]
  | array => rfl

end Record

/-! ## Where an exchange fails -/

namespace Register

/-- The access at which the exchange of a record with its register fails, by the alarm for it,
and why it fails. -/
inductive Fault (b : Binding) (s : Scalar) (t : Registers) : AlarmStatus → AccessError → Prop
  /-- The word cannot be read. -/
  | read {a : AccessError} (reads : s.reads = true) (failed : b.read t = .error a) :
      Fault b s t .read a
  /-- The word could be read, if that was needed, but none can be written. -/
  | write {a : AccessError} (writes : s.isOutput = true)
      (found : s.reads = true → ∃ w, b.read t = .ok w)
      (failed : ∀ word, b.write word t = .error a) : Fault b s t .write a

namespace Fault
variable {b : Binding} {s : Scalar} {t : Registers} {status status' : AlarmStatus}
  {a a' : AccessError}

/-- An exchange fails at one access only, and for one reason. -/
theorem unique (h : Fault b s t status a) (h' : Fault b s t status' a') :
    status' = status ∧ a' = a := by
  cases h with
  | read reads failed =>
    cases h' with
    | read _ failed' => exact ⟨rfl, Except.error.inj (failed'.symm.trans failed)⟩
    | write _ found _ =>
      obtain ⟨w, ok⟩ := found reads
      exact absurd (failed.symm.trans ok) (by simp)
  | write _ found failed =>
    cases h' with
    | read reads failed' =>
      obtain ⟨w, ok⟩ := found reads
      exact absurd (failed'.symm.trans ok) (by simp)
    | write _ _ failed' => exact ⟨rfl, Except.error.inj ((failed' 0).symm.trans (failed 0))⟩

/-- What matters of the fields is whether they are read and written. -/
theorem congr {s' : Scalar} (reads : s'.reads = s.reads) (output : s'.isOutput = s.isOutput)
    (h : Fault b s t status a) : Fault b s' t status a := by
  cases h with
  | read reads' failed => exact .read (reads.trans reads') failed
  | write writes found failed =>
    exact .write (output.trans writes) (fun reads' => found (reads.symm.trans reads')) failed

theorem toRaw_iff : Fault b s.toRaw t status a ↔ Fault b s t status a :=
  ⟨congr s.reads_toRaw.symm s.isOutput_toRaw.symm, congr s.reads_toRaw s.isOutput_toRaw⟩

end Fault

/-- What the exchange of a record with its register comes to. -/
inductive Exchanged (b : Binding) (s : Scalar) (r : Record) (t : Registers) :
    Pass Registers → Prop
  /-- An access fails; the registers and the value are as they were. -/
  | failed {status : AlarmStatus} {a : AccessError} {q : Record} (fault : Fault b s t status a)
      (common : q.common = r.common) (value : q.get? .val = r.get? .val)
      (input : s.isOutput = false → q = r) :
      Exchanged b s r t ⟨q.raise status .invalid, t, .error (.access a)⟩
  /-- No access fails, and the word is moved. -/
  | moved {p : Pass Registers} (faultless : ∀ status a, ¬Fault b s t status a)
      (ok : p.result = .ok .raw) : Exchanged b s r t p

section Exchange
variable (b : Binding) (s : Scalar) (r : Record) (c : Controller)

/-- A register takes every word, or it refuses every word for the same reason. -/
theorem send_cases (word : UInt32) :
    (∃ a, (∀ other, b.write other c.registers = .error a) ∧
      send b r word c.registers = ⟨r.raise .write .invalid, c.registers, .error (.access a)⟩) ∨
    ((∃ t, b.write word c.registers = .ok t) ∧ (send b r word c.registers).result = .ok .raw) := by
  rcases b.write_cases word c with ⟨a, refused, failed⟩ | ⟨t, -, ok, -⟩
  · refine .inl ⟨a, fun other => ?_, by simp only [send, failed]⟩
    rcases b.write_cases other c with ⟨a', refused', failed'⟩ | ⟨_, taken, -, -⟩
    · rw [failed', Option.some.inj (refused'.symm.trans refused)]
    · exact absurd (taken.symm.trans refused) (by simp)
  · exact .inr ⟨⟨t, ok⟩, by simp only [send, ok]⟩

variable {b s} in
/-- What writing comes to, once the word is read if that is needed. -/
theorem exchanged_send (writes : s.isOutput = true)
    (found : s.reads = true → ∃ w, b.read c.registers = .ok w) {q : Record} {word : UInt32}
    (common : q.common = r.common) (value : q.get? .val = r.get? .val) :
    Exchanged b s r c.registers (send b q word c.registers) := by
  rcases send_cases b q c word with ⟨a, failed, same⟩ | ⟨⟨t, written⟩, ok⟩
  · rw [same]
    exact .failed (.write writes found failed) common value (by simp [writes])
  · refine .moved ?_ ok
    rintro _ a (⟨reads, failed⟩ | ⟨-, -, failed⟩)
    · obtain ⟨w, read⟩ := found reads
      exact absurd (read.symm.trans failed) (by simp)
    · exact absurd (written.symm.trans (failed word)) (by simp)

theorem exchanged_exchangeBound :
    Exchanged b s r c.registers (exchangeBound b s r c.registers) := by
  simp only [exchangeBound, ← s.not_reads]
  cases reads : s.reads with
  | false =>
    have found : s.reads = true → ∃ w, b.read c.registers = .ok w := by simp [reads]
    exact exchanged_send r c (Scalar.isOutput_of_not_reads reads) found rfl rfl
  | true =>
    simp only [Bool.not_true, Bool.false_eq_true, if_false]
    cases read : b.read c.registers with
    | error a => exact .failed (.read reads read) rfl rfl fun _ => rfl
    | ok w =>
      dsimp only
      by_cases output : s.isOutput = true
      · rw [if_pos output]
        exact exchanged_send r c output (fun _ => ⟨w, read⟩) rfl (r.get?_val_noteReadBack w)
      · rw [if_neg output]
        refine .moved ?_ rfl
        rintro _ a (⟨-, failed⟩ | ⟨writes, -, -⟩)
        · exact absurd (read.symm.trans failed) (by simp)
        · exact output writes

end Exchange

end Register

/-! ## Passes that fail -/

namespace Controller

/-- An idle record whose value is moved through a register. -/
structure UsesRegister (c : Controller) (id : RecordId) (r : Record) (s : Scalar)
    (b : Register.Binding) : Prop where
  there : c.record? id = some r
  idle : r.common.active = false
  body : r.body = .scalar .registers s
  bound : r.common.binding = .toRegister b

namespace UsesRegister
variable {c : Controller} {id : RecordId} {r : Record} {s : Scalar} {b : Register.Binding}
  (h : c.UsesRegister id r s b)
include h

theorem target_eq : c.target r = .registers c.registers := by
  simp only [Controller.target, h.body]

/-- The exchange of a pass is one with the register. -/
theorem exchanged :
    ∃ p, Register.Exchanged b s.toRaw r.prepare c.registers p ∧
      Target.exchange r.prepare (c.target r) = ⟨p.record, .registers p.target, p.result⟩ := by
  refine ⟨_, Register.exchanged_exchangeBound b s.toRaw r.prepare c, ?_⟩
  have body' : r.prepare.body = .scalar .registers s.toRaw := by
    rw [Record.prepare_of_idle h.body h.idle]
  have bound' : r.prepare.common.binding = .toRegister b := by rw [r.common_prepare, h.bound]
  simp only [h.target_eq, Target.exchange, Register.exchange, body', bound']

/-- Working the raw value out does not change the value. -/
theorem get?_val_prepare : r.prepare.get? .val = r.get? .val := by
  rw [Record.prepare_of_idle h.body h.idle]
  simp only [Record.get?, Body.get?, h.body, Scalar.get?_val_toRaw]

theorem prepare_of_input (input : s.isOutput = false) : r.prepare.body = r.body := by
  simp [Record.prepare, h.body, Body.isOutput, input]

/-- **A pass fails exactly if an access of it does.** -/
theorem answer_eq_error_iff (e : SupportError) :
    c.answer r = .error e ↔
      ∃ status a, e = .access a ∧ Register.Fault b s c.registers status a := by
  obtain ⟨p, exchanged, same⟩ := h.exchanged
  rw [answer, same]
  cases exchanged with
  | @failed status a q fault =>
    have fault := Register.Fault.toRaw_iff.1 fault
    constructor
    · rintro ⟨rfl⟩
      exact ⟨status, a, rfl, fault⟩
    · rintro ⟨_, _, rfl, fault'⟩
      rw [(fault.unique fault').2]
  | moved faultless ok =>
    constructor
    · intro failed
      exact absurd (ok.symm.trans failed) (by simp)
    · rintro ⟨status, a, -, fault⟩
      exact absurd (Register.Fault.toRaw_iff.2 fault) (faultless status a)

/-- **A pass that fails at the register changes its record only**, and of that no value. -/
theorem process_of_fault {status : AlarmStatus} {a : Register.AccessError}
    (fault : Register.Fault b s c.registers status a) :
    ∃ t, c.process id = c.setRecord id t ∧ r.Failed t status ∧ t.get? .val = r.get? .val ∧
      (s.isOutput = false → t.body = r.body) := by
  have fault := Register.Fault.toRaw_iff.2 fault
  obtain ⟨p, exchanged, same⟩ := h.exchanged
  cases exchanged with
  | moved faultless => exact absurd fault (faultless status a)
  | @failed status' a' q fault' common value input =>
    obtain ⟨rfl, rfl⟩ := fault'.unique fault
    have raised : (q.raise status .invalid).common = r.common.raise status .invalid :=
      congrArg (·.raise status .invalid) (common.trans r.common_prepare)
    have failed : Target.exchange r.prepare (c.target r) =
        ⟨q.raise status .invalid, c.target r, .error (.access a)⟩ := by rw [same, h.target_eq]
    have idle : (q.raise status .invalid).common.active = false := by
      rw [raised]
      exact h.idle
    have body := Record.body_finish_of_error (q.raise status .invalid) (.access a)
    refine ⟨_, process_of_failed h.there (by simp [h.bound]) failed idle,
      Record.failed_finish raised _, ?_, fun whole => ?_⟩
    · exact (Record.get?_of_body body rfl).trans (value.trans h.get?_val_prepare)
    · have whole' : s.toRaw.isOutput = false := by rw [s.isOutput_toRaw, whole]
      exact body.trans ((congrArg Record.body (input whole')).trans (h.prepare_of_input whole))

end UsesRegister

/-- **A failed register access is reported and has no effect.**  A pass of an idle record of any
type, by any access method and at any address, fails exactly if the register cannot be read
although the record reads it, or if it can be read, should the record read it, and cannot be
written although the record writes.  Then the pass changes nothing but the record, which is idle
and has its value, and is undefined if it was; of one that only reads the raw value and all other
fields of its type are as they were, too.  If no alarm was pending, the record reports which
access failed with an alarm of the highest severity. -/
theorem failed_accesses_have_no_effect {c : Controller} {id : RecordId} {r : Record} {s : Scalar}
    {b : Register.Binding} (uses : c.UsesRegister id r s b)
    (quiet : r.common.alarms.pending = .none) :
    (∀ e, c.answer r = .error e ↔
      ∃ status a, e = .access a ∧ Register.Fault b s c.registers status a) ∧
    ∀ status a, Register.Fault b s c.registers status a →
      ∃ t, c.process id = c.setRecord id t ∧ t.common.active = false ∧
        t.get? .val = r.get? .val ∧ t.common.undefined = r.common.undefined ∧
        (s.isOutput = false → t.body = r.body) ∧
        t.common.alarms.current = ⟨status, .invalid⟩ := by
  refine ⟨uses.answer_eq_error_iff, fun status a fault => ?_⟩
  obtain ⟨t, after, failed, value, body⟩ := uses.process_of_fault fault
  exact ⟨t, after, failed.idle, value, failed.undefined, body, failed.current_of_none quiet⟩

/-- A multi-bit output on a cell that can be read but takes no words, and a whole-number input
on a cell that is not there, both initialised.  The output is to write another state. -/
def shutCells : Controller :=
  let valve : Record :=
    ⟨{ name := "valve" }, .hardware ⟨0, 0, "0x40,cell"⟩, .scalar .registers (.mbbo { bits := 4 } 0)⟩
  let gauge : Record :=
    ⟨{ name := "gauge" }, .hardware ⟨0, 0, "0x80,cell"⟩, .scalar .registers (.longin 7)⟩
  let c : Controller :=
    { records := [some valve, some gauge],
      catalogue := { methods := Registry.empty.insert "cell" ⟨0⟩ rfl } }
  let c := (((c.setCell 0x40 (some 9) true).initialise ⟨0⟩).1.initialise ⟨1⟩).1
  (c.putField ⟨0⟩ "VAL" (.enum 3)).1

/-- The output fails to write and keeps the state that it was to write, and the input fails to
read. -/
theorem failures_of_shutCells :
    ∃ r s b t r' s' b' t', shutCells.UsesRegister ⟨0⟩ r s b ∧
      r.common.alarms.pending = .none ∧
      Register.Fault b s shutCells.registers .write (.readOnly 0x40) ∧
      shutCells.process ⟨0⟩ = shutCells.setRecord ⟨0⟩ t ∧ t.get? .val = some (.enum 3) ∧
      t.common.alarms.current = ⟨.write, .invalid⟩ ∧
      shutCells.UsesRegister ⟨1⟩ r' s' b' ∧ r'.common.alarms.pending = .none ∧
      Register.Fault b' s' shutCells.registers .read (.offline 0x80) ∧
      shutCells.process ⟨1⟩ = shutCells.setRecord ⟨1⟩ t' ∧ t'.body = r'.body ∧
      t'.common.alarms.current = ⟨.read, .invalid⟩ := by
  let b : Register.Binding :=
    { address := 0x40, access := .custom ⟨0⟩, device := some ⟨"0x40", 0x40⟩ }
  let b' : Register.Binding :=
    { address := 0x80, access := .custom ⟨0⟩, device := some ⟨"0x80", 0x80⟩ }
  let s : Scalar := .mbbo { val := 3, raw := 9, mask := 15, bits := 4 } 9
  obtain ⟨r, there⟩ : ∃ r, shutCells.record? ⟨0⟩ = some r := ⟨_, rfl⟩
  obtain ⟨r', there'⟩ : ∃ r, shutCells.record? ⟨1⟩ = some r := ⟨_, rfl⟩
  have known : (shutCells.record? ⟨0⟩).map (fun r => (r.common.active, r.common.alarms.pending,
      r.common.binding)) = some (false, .none, .toRegister b) := by decide +kernel
  have known' : (shutCells.record? ⟨1⟩).map (fun r => (r.common.active, r.common.alarms.pending,
      r.common.binding)) = some (false, .none, .toRegister b') := by decide +kernel
  have body : (shutCells.record? ⟨0⟩).map (·.body) = some (.scalar .registers s) := by cbv
  have body' : (shutCells.record? ⟨1⟩).map (·.body) = some (.scalar .registers (.longin 7)) := by
    cbv
  simp only [there, Option.map_some, Option.some.injEq, Prod.mk.injEq] at known body
  simp only [there', Option.map_some, Option.some.injEq, Prod.mk.injEq] at known' body'
  have uses : shutCells.UsesRegister ⟨0⟩ r s b := ⟨there, known.1, body, known.2.2⟩
  have uses' : shutCells.UsesRegister ⟨1⟩ r' (.longin 7) b' :=
    ⟨there', known'.1, body', known'.2.2⟩
  have fault : Register.Fault b s shutCells.registers .write (.readOnly 0x40) :=
    .write rfl (fun _ => ⟨9, by cbv⟩) (fun _ => rfl)
  have fault' : Register.Fault b' (.longin 7) shutCells.registers .read (.offline 0x80) :=
    .read rfl (by cbv)
  obtain ⟨t, after, -, value, -, -, current⟩ :=
    (failed_accesses_have_no_effect uses known.2.1).2 _ _ fault
  obtain ⟨t', after', -, -, -, same, current'⟩ :=
    (failed_accesses_have_no_effect uses' known'.2.1).2 _ _ fault'
  have state : r.get? .val = some (.enum 3) := by simp only [Record.get?, body]; rfl
  exact ⟨r, s, b, t, r', _, b', t', uses, known.2.1, fault, after, value.trans state, current,
    uses', known'.2.1, fault', after', same rfl, current'⟩

end Controller

end ControlRecords
