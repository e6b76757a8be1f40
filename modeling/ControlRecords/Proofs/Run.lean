import ControlRecords.Controller.Driving

/-! # Runs of a controller

Once its records are connected, a controller changes by one action after another:
schedulers take requests and handle them, clients write fields, drivers store values,
report alarms and complete writes.  A run is a list of actions.  Which actions a run may
take is a rule, and a rule may look at the state in which the action is taken, so that
"no record is processed while it is active" is a rule.  What every allowed action keeps,
every allowed run keeps (`Allows.invariant`). -/
namespace ControlRecords

/-- What can happen to a controller whose records are connected. -/
inductive Action where
  /-- A scheduler is sent a request. -/
  | send (scheduler : SchedulerId) (request : Request)
  /-- A scheduler handles the oldest request that waits for it. -/
  | serve (scheduler : SchedulerId)
  /-- A record makes a pass without a request. -/
  | process (record : RecordId)
  /-- A client writes a field of a record. -/
  | put (record : RecordId) (field : String) (value : Value)
  /-- The driver stores a value in a variable. -/
  | store (target : VariableId) (value : Value)
  /-- The driver sets the alarm of a variable. -/
  | report (target : VariableId) (alarm : Alarm)
  /-- The driver completes the write that waits on a variable. -/
  | complete (target : VariableId)

/-- The request asks for the second pass of a write. -/
def Request.isCompletion : Request → Bool
  | scan _ => false
  | complete _ => true

namespace Controller

/-- Set the alarm of a variable. -/
def report (c : Controller) (id : VariableId) (alarm : Alarm) : Controller :=
  c.modifyVariable id ({ · with alarm })

/-- The state after an action.  A request to a scheduler that is gone is lost, and a
scheduler for which nothing waits does nothing. -/
def act (c : Controller) : Action → Controller
  | .send s request =>
    match c.send s request with
    | .ok d => d
    | .error _ => c
  | .serve s => (c.dispatchOldest? s).getD c
  | .process id => c.process id
  | .put id field value => (c.putField id field value).1
  | .store v value => (c.store v value).1
  | .report v alarm => c.report v alarm
  | .complete v => (c.completeProcessing v).1

/-- The state after a run. -/
def perform (c : Controller) (actions : List Action) : Controller := actions.foldl act c

@[simp] theorem perform_nil (c : Controller) : c.perform [] = c := rfl

@[simp] theorem perform_cons (c : Controller) (a : Action) (rest : List Action) :
    c.perform (a :: rest) = (c.act a).perform rest := rfl

theorem perform_append (c : Controller) (first rest : List Action) :
    c.perform (first ++ rest) = (c.perform first).perform rest :=
  List.foldl_append ..

/-- Every action of a run is allowed in the state in which it is taken. -/
def Allows (rule : Controller → Action → Prop) : Controller → List Action → Prop
  | _, [] => True
  | c, a :: rest => rule c a ∧ Allows rule (c.act a) rest

/-- **What every allowed action keeps, every allowed run keeps.** -/
theorem Allows.invariant {rule : Controller → Action → Prop} {P : Controller → Prop}
    (step : ∀ {c a}, P c → rule c a → P (c.act a)) {c : Controller} {actions : List Action}
    (run : Allows rule c actions) (h : P c) : P (c.perform actions) := by
  -- The state is general, since the rest of the run starts where its first action ends.
  induction actions generalizing c with
  | nil => exact h
  | cons a rest ih => exact ih run.2 (step h run.1)

/-! ## What schedulers do -/

/-- Handling a request is a pass of its record if the record is there and awaits just
this kind of request, and nothing otherwise. -/
theorem dispatch_of_record {c : Controller} {request : Request} {r : Record}
    (h : c.record? request.record = some r) :
    c.dispatch request =
      if r.common.active = request.isCompletion then c.process request.record else c := by
  cases request with
  | scan id => cases hr : r.common.active <;> simp [dispatch, h, hr, Request.isCompletion]
  | complete id => cases hr : r.common.active <;> simp [dispatch, h, hr, Request.isCompletion]

theorem dispatch_of_none {c : Controller} {request : Request}
    (h : c.record? request.record = none) : c.dispatch request = c := by
  simp [dispatch, h]

/-- Handling a request does nothing or is a pass of its record. -/
theorem dispatch_cases (c : Controller) (request : Request) :
    c.dispatch request = c ∨
      ∃ r, c.record? request.record = some r ∧ r.common.active = request.isCompletion ∧
        c.dispatch request = c.process request.record := by
  cases h : c.record? request.record with
  | none => exact Or.inl (dispatch_of_none h)
  | some r =>
    rw [dispatch_of_record h]
    split
    · exact Or.inr ⟨r, rfl, ‹_›, rfl⟩
    · exact Or.inl rfl

/-- A scheduler that serves takes its oldest request off the queue and handles it. -/
theorem act_serve_cases (c : Controller) (s : SchedulerId) :
    c.act (.serve s) = c ∨
      ∃ request rest, c.queue? s = some (request :: rest) ∧
        c.act (.serve s) = (c.setQueue s rest).dispatch request := by
  simp only [act, dispatchOldest?]
  split
  · exact Or.inr ⟨_, _, ‹_›, rfl⟩
  · exact Or.inl rfl

/-- A request that is sent waits behind all others of its scheduler. -/
theorem act_send_cases (c : Controller) (s : SchedulerId) (request : Request) :
    c.act (.send s request) = c ∨
      ∃ queue, c.queue? s = some queue ∧
        c.act (.send s request) = c.setQueue s (queue ++ [request]) := by
  simp only [act, send]
  cases h : c.queue? s with
  | none => exact Or.inl rfl
  | some queue => exact Or.inr ⟨queue, rfl, rfl⟩

/-- If a write is completed, the request for the second pass joins its queue and the record
is attached no longer. -/
theorem completeProcessing_eq_ok {c d : Controller} {v : VariableId}
    (h : c.completeProcessing v = (d, .ok ())) :
    ∃ w a queue, c.variableAt? v = some w ∧ w.attached = some a ∧
      c.queue? a.scheduler = some queue ∧
      d = (c.setQueue a.scheduler (queue ++ [.complete a.record])).setVariable v
        { w with attached := none } := by
  unfold completeProcessing at h
  split at h
  · simp at h
  · rename_i w hw
    split at h
    · simp at h
    · rename_i a ha
      cases hq : c.queue? a.scheduler with
      | none => simp [send, hq] at h
      | some queue =>
        simp only [send, hq, Prod.mk.injEq, and_true] at h
        exact ⟨w, a, queue, hw, ha, hq, h.symm⟩

/-- A write that cannot be completed stays as it is. -/
theorem completeProcessing_eq_error {c d : Controller} {v : VariableId} {e : VariableError}
    (h : c.completeProcessing v = (d, .error e)) : d = c := by
  unfold completeProcessing at h
  split at h
  · exact (Prod.mk.inj h).1.symm
  · split at h
    · exact (Prod.mk.inj h).1.symm
    · split at h
      · simp at h
      · exact (Prod.mk.inj h).1.symm

/-- A completion does nothing, or the request for the second pass joins its queue and the
record is attached no longer. -/
theorem act_complete_cases (c : Controller) (v : VariableId) :
    c.act (.complete v) = c ∨
      ∃ w a queue, c.variableAt? v = some w ∧ w.attached = some a ∧
        c.queue? a.scheduler = some queue ∧
        c.act (.complete v) =
          (c.setQueue a.scheduler (queue ++ [.complete a.record])).setVariable v
            { w with attached := none } := by
  rcases h : c.completeProcessing v with ⟨d, result⟩
  have done : c.act (.complete v) = d := by simp only [act, h]
  rw [done]
  cases result with
  | ok => exact Or.inr (completeProcessing_eq_ok h)
  | error e => exact Or.inl (completeProcessing_eq_error h)

/-! ## What clients and drivers do -/

/-- A field is written, or nothing happens. -/
theorem act_put_cases (c : Controller) (id : RecordId) (field : String) (value : Value) :
    c.act (.put id field value) = c ∨
      ∃ r s, c.record? id = some r ∧ r.putField field value = .ok s ∧
        c.act (.put id field value) = c.setRecord id s := by
  simp only [act, putField]
  split
  · exact Or.inl rfl
  · rename_i r hr
    split
    · exact Or.inr ⟨r, _, hr, ‹_›, rfl⟩
    · exact Or.inl rfl

/-- A client's elements replace those of an array record, or nothing happens. -/
theorem putArray_cases (c : Controller) (id : RecordId) (values : List UInt32) :
    c.putArray id values = c ∨
      ∃ r archive a, c.record? id = some r ∧ r.body = .array archive a ∧
        c.putArray id values = c.setRecord id { r with body := .array archive (a.put values) } := by
  unfold putArray
  split
  · rename_i r hr
    split
    · exact Or.inr ⟨r, _, _, hr, ‹_›, rfl⟩
    · exact Or.inl rfl
  · exact Or.inl rfl

/-- A value is stored in a variable, or nothing happens. -/
theorem act_store_cases (c : Controller) (v : VariableId) (value : Value) :
    c.act (.store v value) = c ∨
      ∃ w x, c.variableAt? v = some w ∧ w.store value = .ok x ∧
        c.act (.store v value) = c.setVariable v x := by
  simp only [act, store]
  split
  · exact Or.inl rfl
  · rename_i w hw
    split
    · exact Or.inr ⟨w, _, hw, ‹_›, rfl⟩
    · exact Or.inl rfl

/-- The alarm of a variable is set, if the variable is there. -/
theorem act_report_cases (c : Controller) (v : VariableId) (alarm : Alarm) :
    c.act (.report v alarm) = c ∨
      ∃ w, c.variableAt? v = some w ∧
        c.act (.report v alarm) = c.setVariable v { w with alarm } := by
  simp only [act, report, modifyVariable]
  split
  · exact Or.inr ⟨_, ‹_›, rfl⟩
  · exact Or.inl rfl

end Controller

end ControlRecords
