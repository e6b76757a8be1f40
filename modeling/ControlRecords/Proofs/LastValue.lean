import ControlRecords.Proofs.Endings
import ControlRecords.Proofs.Operations

/-! # The last good value

A variable has the type of the value that it was created with, and it holds the last value
that could be stored: a driver's, or that of a record which made the first pass of a write
(`lastStored?`).  A value that cannot be converted to the type leaves everything as it is if
it comes from the driver.  If it comes from a record that writes at once, the variable keeps
its value and gets the alarm that the record reports when its pass is over, whatever alarms
the record had raised before and whether or not its own value is defined
(`variable_keeps_last_value`). -/
namespace ControlRecords

/-! ## Writes that fail -/

namespace Record

@[simp] theorem settle_of_error (r : Record) (e : SupportError) : r.settle (.error e) = r := by
  unfold settle
  cases r.body.isOutput <;> rfl

/-- A pass that has failed with an alarm of the highest severity pending reports just this
alarm: that the value is undefined is no worse. -/
theorem current_finish_of_invalid {r : Record}
    (invalid : r.common.alarms.pending.severity = .invalid) (e : SupportError) :
    (r.finish (.error e)).common.alarms.current = r.common.alarms.pending := by
  simp only [finish, settle_of_error, withCommon, Common.current_finish]
  split
  · rw [Alarms.pending_raise, invalid]
    exact if_neg (by decide)
  · rfl

end Record

namespace Variable
variable {b : Binding} {r : Record} {v : Variable}

@[simp] theorem value_post (v : Variable) (flags : Flags) : (v.post flags).value = v.value := by
  unfold post; split <;> rfl

/-- A value that cannot be converted is an alarm of the record, which the variable gets. -/
theorem deliver_of_garbled {x : Value} {e : ConvertError} (field : r.get? b.field = some x)
    (failed : x.convert v.type = .error e) :
    deliver b r v = ⟨r.raise .write .invalid,
      { v with alarm := (r.raise .write .invalid).common.alarms.pending }.post b.flags,
      .error (.convert e)⟩ := by
  simp only [deliver, field, store, failed]

end Variable

namespace Controller

section Passes
variable {c d : Controller} {id : RecordId} {r : Record} {v : VariableId} {w : Variable}
  {a : Variable.Access} {p : Variable.Binding × Record}

/-- A record that writes is idle in its first pass, and the exchange is the write. -/
theorem exchange_of_write (idle : r.common.active = false) (access : accessOf r = some (v, a))
    (write : w.write? a = some p) :
    p.2.common.active = false ∧
      Variable.exchange r w = ⟨(Variable.giveOut p.1 p.2 w).record,
        (Variable.giveOut p.1 p.2 w).target,
        (Variable.giveOut p.1 p.2 w).result.mapError .shared⟩ := by
  unfold accessOf at access
  split at access
  · rename_i s b body bound
    obtain ⟨rfl, rfl⟩ := Prod.mk.inj (Option.some.inj access)
    simp only [Variable.exchange, body, bound]
    cases output : s.isOutput with
    | false => simp [output, Variable.write?] at write
    | true =>
      rw [Variable.move_of_idle b w output idle]
      cases merges : s.merges with
      | false =>
        simp only [output, merges, if_true, Bool.false_and, Bool.false_eq_true, if_false] at write
        obtain rfl := Option.some.inj write
        exact ⟨idle, rfl⟩
      | true =>
        simp only [output, merges, idle, if_true, Bool.not_false, Bool.and_true] at write
        obtain ⟨-, ⟨back, put, record⟩, merged⟩ := Variable.mergeOut_of_write write
        refine ⟨?_, by rw [if_pos rfl, merged]⟩
        rw [record]
        exact (congrArg Common.active (Record.common_put put)).trans idle
  · contradiction

/-- The record is idle and writes to the variable without waiting for its driver, and the
value that it has in its field by then cannot be converted to the variable's type. -/
structure Misfits (r : Record) (v : VariableId) (w : Variable) : Prop where
  idle : r.common.active = false
  failed : ∃ a p x e, accessOf r.prepare = some (v, a) ∧ w.write? a = some p ∧
    p.1.flags.asynchronous = false ∧ p.2.get? p.1.field = some x ∧ x.convert w.type = .error e

/-- A value that does not fit is an alarm of the highest severity, for the record and for the
variable, which keeps its value. -/
theorem exchange_of_misfits (h : Misfits r v w) :
    ∃ q x e, Variable.exchange r.prepare w = ⟨q, x, .error e⟩ ∧ q.common.active = false ∧
      q.common.alarms.pending.severity = .invalid ∧ x.value = w.value ∧
      x.alarm = q.common.alarms.pending := by
  obtain ⟨a, p, y, e, access, write, synchronous, field, failed⟩ := h.failed
  obtain ⟨idle, exchange⟩ := exchange_of_write (by rw [r.common_prepare, h.idle]) access write
  rw [Variable.giveOut_of_synchronous idle synchronous,
    Variable.deliver_of_garbled field failed] at exchange
  exact ⟨_, _, _, exchange, idle, Alarms.severity_raise_invalid _ _, Variable.value_post _ _,
    Variable.alarm_post _ _⟩

/-- **A write that cannot be converted leaves the value, and the variable gets the alarm that
the record reports.** -/
theorem controller_of_misfits (hr : c.record? id = some r) (hw : c.variableAt? v = some w)
    (h : Misfits r v w) :
    ∃ x s, (c.process id).variableAt? v = some x ∧ x.value = w.value ∧
      (c.process id).record? id = some s ∧ x.alarm = s.common.alarms.current := by
  obtain ⟨a, _, _, _, access, -⟩ := h.failed
  obtain ⟨_, b, body', bound, rfl, -⟩ := accessOf_eq_some access
  obtain ⟨_, body, -⟩ := Record.shared_of_skeleton r.skeleton_prepare.symm body'
  rw [r.common_prepare] at bound
  obtain ⟨q, x, e, exchange, idle, invalid, value, alarm⟩ := exchange_of_misfits h
  have moved : Target.exchange r.prepare (.shared w) = ⟨q, .shared x, .error e⟩ := by
    simp only [Target.exchange, exchange]
  have pass : r.process Target.exchange (.shared w) = (q.finish (.error e), .shared x) := by
    rw [Record.process_of_idle (by simp [bound]) (by rw [moved]; exact idle), moved]
  have after : variableAfter r w = x := by simp only [variableAfter, pass]
  refine ⟨x, q.finish (.error e), ?_, value, ?_, ?_⟩
  · rw [process_of_shared hr body bound hw, variableAt?_setRecord, after,
      variableAt?_setVariable_of_some hw]
  · rw [record?_process_self hr, target_of_shared body bound hw, pass]
  · rw [alarm, Record.current_finish_of_invalid invalid]

end Passes

/-! ## Histories -/

/-- The operation makes a pass of the record, which is found as it is in the state `d`. -/
inductive MakesPass (c : Controller) (id : RecordId) : Operation → Controller → Prop
  | action {a : Action} (pass : c.Processes id a) : MakesPass c id (.act a) c
  /-- The initial pass comes after the record has been connected. -/
  | initial {d : Controller} {r : Record} (ready : c.readied? id = some d)
      (there : d.record? id = some r) (due : (r.common.initProcess && !r.common.active) = true) :
      MakesPass c id (.initialise id) d

theorem operate_of_makesPass {c d : Controller} {id : RecordId} {op : Operation}
    (h : MakesPass c id op d) :
    ∃ schedulers, c.operate op = ({ d with schedulers } : Controller).process id := by
  cases h with
  | action pass => exact act_of_processes pass
  | initial ready there due =>
    refine ⟨d.schedulers, ?_⟩
    rw [operate, initialise_of_readied ready]
    simp only [processInitially, there, due, if_true]

/-- The value that an operation stores in a variable. -/
def storedBy? (c : Controller) (v : VariableId) (op : Operation) : Option Value :=
  (c.variableAt? v).bind fun w => (c.accessTo? v op).bind w.stored?

/-- The last value that is stored in a variable in the course of a history. -/
def lastStored? (v : VariableId) : Controller → List Operation → Option Value
  | _, [] => none
  | c, op :: rest => lastStored? v (c.operate op) rest <|> c.storedBy? v op

section History
variable {c : Controller} {v : VariableId} {w : Variable}

/-- An operation keeps the type, and the value if it stores none. -/
theorem value_operate (h : c.variableAt? v = some w) (op : Operation) :
    ∃ x, (c.operate op).variableAt? v = some x ∧ x.type = w.type ∧
      x.value = (c.storedBy? v op).getD w.value := by
  refine ⟨_, variableAt?_operate h op, ?_⟩
  rw [storedBy?, h, Option.bind_some]
  cases c.accessTo? v op with
  | none => exact ⟨rfl, rfl⟩
  | some a => exact ⟨Variable.type_after w a, Variable.value_after w a⟩

/-- **A variable holds the last value that was stored, or the one that it had.** -/
theorem value_operateAll (h : c.variableAt? v = some w) (history : List Operation) :
    ∃ x, (c.operateAll history).variableAt? v = some x ∧ x.type = w.type ∧
      x.value = (lastStored? v c history).getD w.value := by
  induction history generalizing c w with
  | nil => exact ⟨w, h, rfl, rfl⟩
  | cons op rest ih =>
    obtain ⟨y, hy, type, value⟩ := value_operate h op
    obtain ⟨x, hx, type', value'⟩ := ih hy
    refine ⟨x, hx, type'.trans type, ?_⟩
    rw [value', lastStored?, value]
    cases lastStored? v (c.operate op) rest <;> rfl

/-- A value that cannot be stored changes nothing. -/
theorem store_eq_error {d : Controller} {value : Value} {e : ConvertError}
    (h : c.store v value = (d, .error e)) : d = c := by
  unfold store at h
  split at h
  · simp at h
  · split at h
    · simp at h
    · exact (Prod.mk.inj h).1.symm

end History

/-- **A variable keeps its type and its last good value.**  After every history its type is
the one that it had, and its value is the one that was stored last, by the driver or by the
first pass of a write, or the one that it had if none was stored.  A value that cannot be
stored changes nothing at all.  After every pass of a record whose write, made at once,
cannot be converted, the variable has the value that it had and the alarm that the record
reports. -/
theorem variable_keeps_last_value {c : Controller} {v : VariableId} {w : Variable}
    (there : c.variableAt? v = some w) (history : List Operation) :
    let last := c.operateAll history
    ∃ x, last.variableAt? v = some x ∧ x.type = w.type ∧
      x.value = (lastStored? v c history).getD w.value ∧
      (∀ u value d e, last.store u value = (d, .error e) → d = last) ∧
      ∀ id op d r, MakesPass last id op d → d.record? id = some r → Misfits r v x →
        ∃ y s, (last.operate op).variableAt? v = some y ∧ y.value = x.value ∧
          (last.operate op).record? id = some s ∧ y.alarm = s.common.alarms.current := by
  intro last
  obtain ⟨x, hx, type, value⟩ := value_operateAll there history
  refine ⟨x, hx, type, value, fun u value d e => store_eq_error, ?_⟩
  intro id op d r pass hr misfits
  have same : d.variableAt? v = some x := by
    cases pass with
    | action _ => exact hx
    | initial ready _ _ => rw [variableAt?, (untouched_of_readied ready).vars]; exact hx
  obtain ⟨schedulers, e⟩ := operate_of_makesPass pass
  rw [e]
  exact controller_of_misfits (c := { d with schedulers }) hr same misfits

/-- An analog output that writes its value to a short integer at once. -/
def setPoint : Controller :=
  let c := (({} : Controller).registerGroup "g" [{ value := .short 5 }]).1
  let (writer, c) := c.adopt ⟨{ name := "writer" }, .hardware ⟨0, 1, "g"⟩,
    .scalar .shared (.ao {})⟩ none
  (c.initialise writer).1

/-- A client sets a value that is written, then one that is out of range, and the driver stores
a text that is no number. -/
def setPointHistory : List Operation :=
  [.act (.put ⟨0⟩ "VAL" (.long 7)), .act (.process ⟨0⟩), .act (.put ⟨0⟩ "VAL" (.long 70000)),
    .act (.store ⟨0⟩ (.string "abc"))]

theorem setPoint_keeps_last_value :
    setPoint.variableAt? ⟨0⟩ = some { value := .short 5 } ∧
      lastStored? ⟨0⟩ setPoint setPointHistory = some (.short 7) ∧
      let last := setPoint.operateAll setPointHistory
      ∃ x, last.variableAt? ⟨0⟩ = some x ∧ x.type = .short ∧ x.value = .short 7 ∧
        ∃ y s, (last.operate (.act (.process ⟨0⟩))).variableAt? ⟨0⟩ = some y ∧
          y.value = .short 7 ∧ (last.operate (.act (.process ⟨0⟩))).record? ⟨0⟩ = some s ∧
          y.alarm = s.common.alarms.current := by
  have there : setPoint.variableAt? ⟨0⟩ = some { value := .short 5 } := rfl
  have stored : lastStored? ⟨0⟩ setPoint setPointHistory = some (.short 7) := rfl
  obtain ⟨x, hx, type, value, -, passes⟩ := variable_keeps_last_value there setPointHistory
  rw [stored] at value
  obtain ⟨r, hr⟩ : ∃ r, (setPoint.operateAll setPointHistory).record? ⟨0⟩ = some r := ⟨_, rfl⟩
  have misfits : Misfits r ⟨0⟩ x := by
    obtain rfl := Option.some.inj hr
    obtain rfl := Option.some.inj hx
    exact ⟨rfl, _, _, _, _, rfl, rfl, rfl, rfl, rfl⟩
  obtain ⟨y, s, hy, same, hs, alarm⟩ :=
    passes ⟨0⟩ (.act (.process ⟨0⟩)) _ r (.action rfl) hr misfits
  exact ⟨there, stored, x, hx, type, value, y, s, hy, same.trans value, hs, alarm⟩

end Controller

end ControlRecords
