import ControlRecords.Proofs.Completion
import ControlRecords.Proofs.Operations

/-! # The second pass of a write

The first pass of an asynchronous write stores the value, and the second one only reports
how the write went.  In between the record and the variable are free for everybody: clients
write the record's fields, the driver stores values and sets alarms and times, and other
records move values.  Whatever of this has happened (`Handles` says what may not: the record
itself is left alone), the second pass does not touch any variable, nor the fields of its
record (`second_pass_reports_only`). -/
namespace ControlRecords

/-- A record takes over the variable's time if its own comes from the device. -/
theorem Variable.time_inherit (r : Record) (v : Variable) :
    (inherit r v).common.time =
      if r.common.timeSource = .device then v.time else r.common.time := by
  simp only [inherit, Record.withCommon, Common.stampFromDevice, Common.raise]
  split <;> rfl

theorem Variable.timeSource_inherit (r : Record) (v : Variable) :
    (inherit r v).common.timeSource = r.common.timeSource :=
  congrArg (·.common.timeSource) (skeleton_inherit r v)

namespace Record

section Output
variable {r : Record} (output : r.body.isOutput = true)
include output

/-- A pass that has written ends with the clock's time, if the record takes its time from
there. -/
theorem time_finish_of_output :
    (r.finish (.ok .raw)).common.time =
      if r.common.timeSource = .database then .clock else r.common.time := by
  simp only [finish, settle, output, withCommon, setUndefined, Common.time_finish]

/-- The time that the second pass ends with is the variable's, if the record takes its time
from the device. -/
theorem time_of_second_pass (v : Variable) :
    ((Variable.inherit r v).finish (.ok .raw)).common.time =
      if r.common.timeSource = .device then v.time else .clock := by
  have output' : (Variable.inherit r v).body.isOutput = true := output
  rw [time_finish_of_output output', Variable.time_inherit, Variable.timeSource_inherit]
  cases r.common.timeSource <;> rfl

/-- The value is defined after a pass that has written. -/
theorem undefined_finish_of_output : (r.finish (.ok .raw)).common.undefined = false := by
  simp only [finish, settle, output, withCommon, setUndefined, Common.undefined_finish]

end Output

end Record

namespace Controller

/-! ## Leaving a record alone -/

/-- The operation is done to the record, or makes a pass of it. -/
def Handles (c : Controller) (id : RecordId) : Operation → Prop
  | .act a => c.Processes id a
  | .get j | .give j | .readBack j | .secondPhase j _ | .initialise j | .bind j _ _ _ => j = id
  | .stamp _ _ | .signal _ | .poll _ => False

section Others
variable (c : Controller) {id j : RecordId} (h : id ≠ j)
include h

theorem record?_onVariable_of_ne {α : Type}
    (f : Variable.Binding → Record → Variable → Record × Variable × Except VariableError α) :
    (c.onVariable j f).1.record? id = c.record? id := by
  unfold onVariable
  split
  · rfl
  · split
    · split
      · exact record?_setRecord_of_ne _ _ h
      · rfl
    · rfl

theorem record?_secondPhase_of_ne (v : VariableId) :
    (c.secondPhase j v).1.record? id = c.record? id := by
  unfold secondPhase
  split
  · split
    · exact record?_setRecord_of_ne _ _ h
    · rfl
  · rfl

theorem record?_bindVariable_of_ne (link : Link) (choice : Variable.Choice) (output : Bool) :
    (c.bindVariable j link choice output).1.record? id = c.record? id := by
  unfold bindVariable
  split
  · rfl
  · rename_i r _
    have records := records_resolveVariable c link r choice
    have same := record?_congr records id
    split
    · rename_i found
      rw [found] at same
      exact (record?_setRecord_of_ne _ _ h).trans same
    · rename_i found
      rw [found] at same
      split
      · exact (record?_setRecord_of_ne _ _ h).trans same
      · exact (record?_setRecord_of_ne _ _ h).trans same

end Others

/-- What leaves a record alone changes at most the fields of its type, as clients do. -/
theorem common_operate_of_not_handles {c : Controller} {id : RecordId} {r : Record}
    (h : c.record? id = some r) {op : Operation} (apart : ¬c.Handles id op) :
    ∃ s, (c.operate op).record? id = some s ∧ s.common = r.common ∧
      s.skeleton = r.skeleton := by
  have same : (c.operate op).record? id = c.record? id →
      ∃ s, (c.operate op).record? id = some s ∧ s.common = r.common ∧
        s.skeleton = r.skeleton := fun e => ⟨r, e.trans h, rfl, rfl⟩
  cases op with
  | act a =>
    obtain ⟨s, hs, common⟩ := common_act_of_not_processes h apart
    obtain ⟨s', hs', skeleton⟩ := (keeps_skeleton_act c a).record h
    obtain rfl := Option.some.inj (hs.symm.trans hs')
    exact ⟨s, hs, common, skeleton⟩
  | stamp v time => exact same (record?_congr (records_modifyVariable c v _) id)
  | signal v => exact same (record?_congr (records_modifyVariable c v _) id)
  | poll v => exact same (record?_congr (records_wait c v 0) id)
  | get j => exact same (record?_onVariable_of_ne c (Ne.symm apart) _)
  | give j => exact same (record?_onVariable_of_ne c (Ne.symm apart) _)
  | readBack j => exact same (record?_onVariable_of_ne c (Ne.symm apart) _)
  | secondPhase j v => exact same (record?_secondPhase_of_ne c (Ne.symm apart) v)
  | initialise j => exact same (record?_initialise_of_ne c (Ne.symm apart))
  | bind j link choice output =>
    exact same (record?_bindVariable_of_ne c (Ne.symm apart) link choice output)

/-- So does a history that leaves the record alone. -/
theorem common_operateAll_of_not_handles {c : Controller} {id : RecordId} {r : Record}
    (h : c.record? id = some r) {history : List Operation}
    (apart : Throughout (fun d op => ¬d.Handles id op) c history) :
    ∃ s, (c.operateAll history).record? id = some s ∧ s.common = r.common ∧
      s.skeleton = r.skeleton := by
  refine apart.invariant (P := fun d => ∃ s, d.record? id = some s ∧ s.common = r.common ∧
    s.skeleton = r.skeleton) ?_ ⟨r, h, rfl, rfl⟩
  rintro d op ⟨s, hs, common, skeleton⟩ allowed
  obtain ⟨t, ht, common', skeleton'⟩ := common_operate_of_not_handles hs allowed
  exact ⟨t, ht, common'.trans common, skeleton'.trans skeleton⟩

/-! ## The second pass -/

/-- What the second pass of a write does: no variable is touched and no field of the
record's type, and the record reports how the write went. -/
structure Reports (c d : Controller) (q : Record) (w : Variable) (s : Record) : Prop where
  vars : d.vars = c.vars
  fields : s.body = q.body
  time : s.common.time = if q.common.timeSource = .device then w.time else .clock
  alarm : s.common.alarms.current =
    if q.common.alarms.pending.severity < w.alarm.severity then w.alarm
    else q.common.alarms.pending
  noPending : s.common.alarms.pending = .none
  inactive : s.common.active = false
  defined : s.common.undefined = false

/-- The pass of an active record that writes to a variable only reports. -/
theorem reports_of_processes {c : Controller} {id : RecordId} {q : Record} {s : Scalar}
    {b : Variable.Binding} {w : Variable} {a : Action} (pass : c.Processes id a)
    (hq : c.record? id = some q) (body : q.body = .scalar .shared s) (output : s.isOutput = true)
    (bound : q.common.binding = .toVariable b) (active : q.common.active = true)
    (hw : c.variableAt? b.target = some w) :
    ∃ t, (c.act a).record? id = some t ∧ Reports c (c.act a) q w t := by
  obtain ⟨schedulers, second⟩ := act_of_processes pass
  have now : ({ c with schedulers } : Controller).record? id = some q := hq
  rw [process_of_active now body output bound active hw] at second
  have writes : q.body.isOutput = true := by rw [body]; exact output
  have writes' : (Variable.inherit q w).body.isOutput = true := writes
  have current := Record.current_of_second_pass w writes
  rw [Alarms.pending_raise] at current
  refine ⟨(Variable.inherit q w).finish (.ok .raw), ?_, ?_⟩
  · rw [second]
    exact record?_setRecord_of_some now _
  · exact
      { vars := by rw [second]; rfl
        fields := Record.body_finish writes' _
        time := Record.time_of_second_pass writes w
        alarm := current
        noPending := rfl
        inactive := rfl
        defined := Record.undefined_finish_of_output writes' }

/-- **The second pass never writes again.**  A record is in flight on a variable, and
anything happens but that the record itself is handled.  Then the pass that it makes next
leaves every variable as it is, the value, the alarm, the time, the attachment and the
event, and all fields of the record's type.  The record takes the variable's time if its
time comes from the device, it reports the worse of the alarm it had pending since the first
pass and the variable's alarm, and it is inactive and defined. -/
theorem second_pass_reports_only {c : Controller} {id : RecordId} {r : Record} {v : VariableId}
    {history : List Operation} {a : Action} (flight : InFlight c id r v)
    (apart : Throughout (fun d op => ¬d.Handles id op) c history)
    (pass : (c.operateAll history).Processes id a) :
    let last := c.operateAll history
    ∃ q w s, last.record? id = some q ∧ q.common = r.common ∧ last.variableAt? v = some w ∧
      (last.act a).record? id = some s ∧ Reports last (last.act a) q w s := by
  intro last
  obtain ⟨scalar, body, output⟩ := flight.shared
  obtain ⟨b, bound, rfl⟩ := flight.bound
  obtain ⟨q, hq, common, skeleton⟩ := common_operateAll_of_not_handles flight.record apart
  obtain ⟨scalar', body', kind⟩ := Record.shared_of_skeleton skeleton body
  obtain ⟨w, hw⟩ : ∃ w, last.variableAt? b.target = some w := by
    obtain ⟨_, attached, -⟩ := flight.attached
    obtain ⟨w, there, -⟩ := Option.bind_eq_some_iff.1 attached
    exact exists_variableAt?_operateAll there history
  obtain ⟨s, hs, reports⟩ := reports_of_processes pass hq body' (kind.trans output)
    (by rw [common, bound]) (by rw [common, flight.active]) hw
  exact ⟨q, w, s, hq, common, hw, hs, reports⟩

/-- While the write of the first record waits, a client writes its value, the driver stores
another one and sets an alarm and a time, the write is completed, and the second record
starts a write of its own. -/
def meanwhile : List Operation :=
  [.act (.put ⟨0⟩ "VAL" (.long 99)), .act (.store ⟨0⟩ (.ulong 5)),
    .act (.report ⟨0⟩ ⟨.hihi, .major⟩), .stamp ⟨0⟩ (.moment 9), .act (.complete ⟨0⟩),
    .act (.serve ⟨0⟩)]

theorem second_pass_reports_only_meanwhile :
    InFlight pairInFlight ⟨0⟩ pairRecord ⟨0⟩ ∧
      Throughout (fun d op => ¬d.Handles ⟨0⟩ op) pairInFlight meanwhile ∧
      (pairInFlight.operateAll meanwhile).Processes ⟨0⟩ (.serve ⟨0⟩) ∧
      let last := pairInFlight.operateAll meanwhile
      ∃ q w s, last.record? ⟨0⟩ = some q ∧ q.common = pairRecord.common ∧
        last.variableAt? ⟨0⟩ = some w ∧ (last.act (.serve ⟨0⟩)).record? ⟨0⟩ = some s ∧
        Reports last (last.act (.serve ⟨0⟩)) q w s := by
  have flight : InFlight pairInFlight ⟨0⟩ pairRecord ⟨0⟩ :=
    ⟨rfl, rfl, ⟨_, rfl, rfl⟩, ⟨_, rfl, rfl⟩, ⟨_, rfl, rfl⟩⟩
  have apart : Throughout (fun d op => ¬d.Handles ⟨0⟩ op) pairInFlight meanwhile := by
    refine ⟨id, id, id, id, id, ?_, trivial⟩
    rintro ⟨request, rest, queue, mine, -⟩
    -- The scan of the second record waits in front of the completion.
    have waiting : (pairInFlight.operateAll (meanwhile.take 5)).queue? ⟨0⟩ =
        some [.scan ⟨1⟩, .complete ⟨0⟩] := by decide
    obtain ⟨rfl, -⟩ := List.cons.inj (Option.some.inj (waiting.symm.trans queue))
    exact absurd mine (by decide)
  have pass : (pairInFlight.operateAll meanwhile).Processes ⟨0⟩ (.serve ⟨0⟩) :=
    ⟨.complete ⟨0⟩, [], rfl, rfl, _, rfl, rfl⟩
  exact ⟨flight, apart, pass, second_pass_reports_only flight apart pass⟩

end Controller

end ControlRecords
