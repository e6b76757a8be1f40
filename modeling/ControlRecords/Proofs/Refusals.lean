import ControlRecords.Proofs.LastValue
import ControlRecords.Proofs.MaskedPass
import ControlRecords.Proofs.WordPass

/-! # What a refusal leaves

A support that refuses to move a value raises an alarm of the highest severity against the record
and leaves the target alone, so the pass that ends there changes the record and nothing else
(`Controller.process_of_failed`), and of the record no more than the alarm, the time and the raw
value that was worked out before (`Record.Failed`).  An asynchronous write is refused if another
one waits to be completed or if nobody could make its second pass.  A completion is refused if
nothing waits or if the scheduler is gone, and then it changes nothing at all
(`refused_operations_change_nothing`). -/
namespace ControlRecords

/-! ## Passes that fail -/

namespace Record

/-- What a failed pass leaves of a record: it is as undefined as it was, and it reports an alarm
of the highest severity, which is this one unless an equal one was pending. -/
structure Failed (r t : Record) (status : AlarmStatus) : Prop where
  idle : t.common.active = false
  undefined : t.common.undefined = r.common.undefined
  pending : t.common.alarms.pending = .none
  current : t.common.alarms.current = (r.common.alarms.raise ⟨status, .invalid⟩).pending

namespace Failed
variable {r t : Record} {status : AlarmStatus}

theorem severity (h : r.Failed t status) : t.common.alarms.current.severity = .invalid := by
  rw [h.current]
  exact Alarms.severity_raise_invalid _ _

theorem current_of_none (h : r.Failed t status) (none : r.common.alarms.pending = .none) :
    t.common.alarms.current = ⟨status, .invalid⟩ := by
  rw [h.current, Alarms.pending_raise, none]
  exact if_pos (show Severity.noAlarm < Severity.invalid by decide)

end Failed

@[simp] theorem body_finish_of_error (q : Record) (e : SupportError) :
    (q.finish (.error e)).body = q.body := by
  rw [finish, settle_of_error]
  rfl

/-- A pass whose exchange raised the alarm and did nothing else to the common part. -/
theorem failed_finish {r q : Record} {status : AlarmStatus}
    (raised : q.common = r.common.raise status .invalid) (e : SupportError) :
    r.Failed (q.finish (.error e)) status := by
  have pending : q.common.alarms.pending = (r.common.alarms.raise ⟨status, .invalid⟩).pending := by
    rw [raised]
    rfl
  have undefined : (q.finish (.error e)).common.undefined = q.common.undefined := by
    simp only [finish, settle_of_error, withCommon, Common.undefined_finish]
  refine ⟨rfl, ?_, rfl, ?_⟩
  · rw [undefined, raised]
    rfl
  · rw [current_finish_of_invalid _ e, pending]
    rw [pending]
    exact Alarms.severity_raise_invalid _ _

end Record

namespace Controller

/-- **A pass that fails without touching its target changes its record only.** -/
theorem process_of_failed {c : Controller} {id : RecordId} {r q : Record} {e : SupportError}
    (hr : c.record? id = some r) (bound : r.common.binding ≠ .unbound)
    (failed : Target.exchange r.prepare (c.target r) = ⟨q, c.target r, .error e⟩)
    (idle : q.common.active = false) :
    c.process id = c.setRecord id (q.finish (.error e)) := by
  have pass : r.process Target.exchange (c.target r) = (q.finish (.error e), c.target r) := by
    rw [Record.process_of_idle bound (by rw [failed]; exact idle), failed]
  rw [process_of_record hr, pass, setTarget_target]

/-- The answer of the support in a pass of a record. -/
def answer (c : Controller) (r : Record) : Except SupportError Transfer :=
  (Target.exchange r.prepare (c.target r)).result

/-! ## Writes that are refused -/

/-- An idle record that is to store its value as a whole in a variable and to wait for the
driver. -/
structure WritesAsynchronously (c : Controller) (id : RecordId) (r : Record)
    (b : Variable.Binding) (w : Variable) : Prop where
  there : c.record? id = some r
  idle : r.common.active = false
  fields : ∃ s, r.body = .scalar .shared s ∧ s.isOutput = true ∧ s.merges = false
  bound : r.common.binding = .toVariable b
  asynchronous : b.flags.asynchronous = true
  target : c.variableAt? b.target = some w

namespace WritesAsynchronously
variable {c : Controller} {id : RecordId} {r : Record} {b : Variable.Binding} {w : Variable}
  (h : c.WritesAsynchronously id r b w)
include h

theorem target_eq : c.target r = .shared w := by
  obtain ⟨s, body, -, -⟩ := h.fields
  exact target_of_shared body h.bound h.target

theorem exchange_eq :
    Target.exchange r.prepare (.shared w) =
      ⟨(Variable.giveOut b r.prepare w).record, .shared (Variable.giveOut b r.prepare w).target,
        (Variable.giveOut b r.prepare w).result.mapError .shared⟩ := by
  obtain ⟨s, body, output, whole⟩ := h.fields
  have idle : r.prepare.common.active = false := by rw [r.common_prepare, h.idle]
  have body' : r.prepare.body = .scalar .shared s.toRaw := by
    rw [Record.prepare_of_idle body h.idle]
  have bound' : r.prepare.common.binding = .toVariable b := by rw [r.common_prepare, h.bound]
  have output' : s.toRaw.isOutput = true := by rw [s.isOutput_toRaw, output]
  have whole' : s.toRaw.merges = false := (Scalar.Alike.toRaw s).merges.trans whole
  simp only [Target.exchange, Variable.exchange, body', bound',
    Variable.move_of_idle b w output' idle, whole', Bool.false_eq_true, if_false]

/-- The variable does not admit the write. -/
theorem admits_prepare : w.admits b r.prepare =
    (r.common.handle.isSome && r.common.scheduler.isSome && w.attached.isNone) := by
  simp [Variable.admits, h.idle, h.asynchronous]

/-- **The write is refused exactly if another one waits to be completed or nobody could make
its second pass.** -/
theorem refused_iff :
    (c.answer r = .error (.shared .conflict) ∨ c.answer r = .error (.shared .noScheduler)) ↔
      w.attached.isSome = true ∨ r.common.handle = none ∨ r.common.scheduler = none := by
  have idle : r.prepare.common.active = false := by rw [r.common_prepare, h.idle]
  have lift (x : Except VariableError Transfer) (e : VariableError) :
      x.mapError SupportError.shared = .error (.shared e) ↔ x = .error e := by
    cases x <;> simp [Except.mapError]
  rw [answer, h.target_eq, h.exchange_eq]
  simp only [lift]
  rw [← Variable.admits_eq_false_iff idle, h.admits_prepare]
  cases r.common.handle <;> cases r.common.scheduler <;> cases w.attached <;> simp

/-- **A refused write changes its record only.** -/
theorem process_of_refused
    (refused : w.attached.isSome = true ∨ r.common.handle = none ∨ r.common.scheduler = none) :
    ∃ t, c.process id = c.setRecord id t ∧ r.Failed t .write := by
  have closed : w.admits b r.prepare = false := by
    rw [h.admits_prepare]
    rcases refused with taken | none | none <;> simp [*]
  cases Variable.gave_giveOut b r.prepare w with
  | second active =>
    rw [r.common_prepare, h.idle] at active
    contradiction
  | admitted _ admitted =>
    rw [closed] at admitted
    contradiction
  | @refused e _ _ same =>
    have failed : Target.exchange r.prepare (c.target r) =
        ⟨r.prepare.raise .write .invalid, c.target r, .error (.shared e)⟩ := by
      rw [h.target_eq, h.exchange_eq, same]
      rfl
    have raised : (r.prepare.raise .write .invalid).common = r.common.raise .write .invalid :=
      congrArg (·.raise .write .invalid) r.common_prepare
    refine ⟨_, process_of_failed h.there (by simp [h.bound]) failed ?_,
      Record.failed_finish raised _⟩
    rw [raised]
    exact h.idle

end WritesAsynchronously

/-! ## Completions that are refused -/

section Complete
variable {c : Controller} {v : VariableId}

/-- **A completion is refused if nothing waits on the variable, or if the scheduler is gone.** -/
theorem completeProcessing_cases (c : Controller) (v : VariableId) :
    (c.attachment? v = none ∧ c.completeProcessing v = (c, .error .notAttached)) ∨
    (∃ a, c.attachment? v = some a ∧ c.queue? a.scheduler = none ∧
      c.completeProcessing v = (c, .error .schedulerClosed)) ∨
    ∃ w a queue, c.variableAt? v = some w ∧ w.attached = some a ∧
      c.queue? a.scheduler = some queue ∧
      c.completeProcessing v =
        ((c.setQueue a.scheduler (queue ++ [.complete a.record])).setVariable v
          { w with attached := none }, .ok ()) := by
  unfold completeProcessing attachment?
  cases there : c.variableAt? v with
  | none => exact .inl ⟨rfl, rfl⟩
  | some w =>
    simp only [Option.bind_some]
    cases attached : w.attached with
    | none => exact .inl ⟨rfl, rfl⟩
    | some a =>
      cases open_ : c.queue? a.scheduler with
      | none => exact .inr (.inl ⟨a, rfl, open_, by simp [send, open_]⟩)
      | some queue => exact .inr (.inr ⟨w, a, queue, rfl, attached, open_, by simp [send, open_]⟩)

end Complete

/-- **Refused asynchronous operations change nothing.**  An idle record that writes its value as a
whole, an analog or whole-number output for one, is to wait for the driver of its variable.  Its
write is refused exactly if another record waits, or if nobody could make its second pass.  Then
the pass changes nothing but the record, which is idle, as undefined as it was, and reports an
alarm of the highest severity, a failed write unless another alarm was pending.  And a completion
is refused exactly if nothing waits on the variable or the scheduler is gone, and then changes
nothing; otherwise one request for the record's second pass joins the queue of the scheduler that
it waits with, and nothing else is done than that it is attached no longer. -/
theorem refused_operations_change_nothing (c : Controller) :
    (∀ id r b w, c.WritesAsynchronously id r b w →
      ((c.answer r = .error (.shared .conflict) ∨ c.answer r = .error (.shared .noScheduler)) ↔
        w.attached.isSome = true ∨ r.common.handle = none ∨ r.common.scheduler = none) ∧
      (w.attached.isSome = true ∨ r.common.handle = none ∨ r.common.scheduler = none →
        ∃ t, c.process id = c.setRecord id t ∧ t.common.active = false ∧
          t.common.undefined = r.common.undefined ∧
          t.common.alarms.current.severity = .invalid ∧
          (r.common.alarms.pending = .none → t.common.alarms.current.status = .write))) ∧
    ∀ v,
      (c.attachment? v = none ∧ c.completeProcessing v = (c, .error .notAttached)) ∨
      (∃ a, c.attachment? v = some a ∧ c.queue? a.scheduler = none ∧
        c.completeProcessing v = (c, .error .schedulerClosed)) ∨
      ∃ w a queue, c.variableAt? v = some w ∧ w.attached = some a ∧
        c.queue? a.scheduler = some queue ∧
        c.completeProcessing v =
          ((c.setQueue a.scheduler (queue ++ [.complete a.record])).setVariable v
            { w with attached := none }, .ok ()) := by
  refine ⟨fun id r b w writes => ⟨writes.refused_iff, fun refused => ?_⟩,
    c.completeProcessing_cases⟩
  obtain ⟨t, after, failed⟩ := writes.process_of_refused refused
  refine ⟨t, after, failed.idle, failed.undefined, failed.severity, fun none => ?_⟩
  rw [failed.current_of_none none]

/-- The second of two records finds the first one attached to the variable that both write to;
the write of the first can be completed. -/
theorem refusals_of_asynchronousPair :
    let c := asynchronousPair.process ⟨0⟩
    ∃ r b w t, c.WritesAsynchronously ⟨1⟩ r b w ∧ w.attached.isSome = true ∧
      r.common.alarms.pending = .none ∧ c.process ⟨1⟩ = c.setRecord ⟨1⟩ t ∧
      t.common.alarms.current.status = .write ∧ t.common.alarms.current.severity = .invalid ∧
      (c.completeProcessing ⟨0⟩).2.isOk = true := by
  intro c
  obtain ⟨r, there⟩ : ∃ r, c.record? ⟨1⟩ = some r := ⟨_, rfl⟩
  obtain ⟨w, target⟩ : ∃ w, c.variableAt? ⟨0⟩ = some w := ⟨_, rfl⟩
  have idle : (c.record? ⟨1⟩).map (·.common.active) = some false := by decide +kernel
  have pending : (c.record? ⟨1⟩).map (·.common.alarms.pending) = some .none := by decide +kernel
  have taken : (c.variableAt? ⟨0⟩).map (·.attached.isSome) = some true := by decide +kernel
  let b : Variable.Binding := ⟨⟨0⟩, (Variable.Choice.ofScalar (.longout 0)).flags 2, .val, .long⟩
  have bound : (c.record? ⟨1⟩).map (·.common.binding) = some (.toVariable b) := by decide +kernel
  have fields : (c.record? ⟨1⟩).map (·.body) = some (.scalar .shared (.longout 7)) := rfl
  rw [there, Option.map_some, Option.some_inj] at idle pending bound fields
  rw [target, Option.map_some, Option.some_inj] at taken
  have writes : c.WritesAsynchronously ⟨1⟩ r b w :=
    ⟨there, idle, ⟨_, fields, rfl, rfl⟩, bound, by decide +kernel, target⟩
  obtain ⟨passes, -⟩ := refused_operations_change_nothing c
  obtain ⟨t, after, -, -, severity, status⟩ := (passes _ _ _ _ writes).2 (.inl taken)
  exact ⟨r, b, w, t, writes, taken, pending, after, status pending, severity, by decide +kernel⟩

end Controller

end ControlRecords
