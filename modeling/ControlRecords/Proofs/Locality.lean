import ControlRecords.Proofs.Pass
import ControlRecords.Proofs.Run

/-! # What an action reaches

A pass writes to its own record and to the target of that record, and to nothing else.
The other records, the queues and the variables that the record is not connected to stay
as they are.  The attachment of a variable changes in two ways only: a first pass attaches
its record, and a completion takes the attachment away. -/
namespace ControlRecords.Controller

/-- The attachment of a variable. -/
def attachment? (c : Controller) (v : VariableId) : Option Attachment :=
  (c.variableAt? v).bind (·.attached)

/-- Every record knows its own identity and no other. -/
def OwnHandles (c : Controller) : Prop :=
  ∀ id r handle, c.record? id = some r → r.common.handle = some handle → handle = id

/-! ## Putting something in a place that is taken -/

/-- A record that was there is replaced. -/
theorem record?_setRecord_of_some {c : Controller} {id : RecordId} {r : Record}
    (h : c.record? id = some r) (s : Record) : (c.setRecord id s).record? id = some s :=
  record?_setRecord_self c id s (by simp [h])

/-- A variable that was there is replaced. -/
theorem variableAt?_setVariable_of_some {c : Controller} {v : VariableId} {w : Variable}
    (h : c.variableAt? v = some w) (w' : Variable) :
    (c.setVariable v w').variableAt? v = some w' :=
  variableAt?_setVariable_self c v w' (by simp [h])

theorem setRecord_self {c : Controller} {id : RecordId} {r : Record}
    (h : c.record? id = some r) : c.setRecord id r = c := by
  have lt := record?_isSome_lt (h ▸ rfl : (c.record? id).isSome)
  have here : c.records[id.index] = some r := by
    simpa [record?, List.getElem?_eq_getElem lt] using h
  have same : c.records.set id.index (some r) = c.records := by
    rw [← here, List.set_getElem_self]
  simp [setRecord, same]

theorem setVariable_self {c : Controller} {v : VariableId} {w : Variable}
    (h : c.variableAt? v = some w) : c.setVariable v w = c := by
  have same : c.vars.set v.index w = c.vars := by
    rw [← List.getElem?_eq_some_iff.1 h |>.2, List.set_getElem_self]
  simp [setVariable, same]

/-! ## Targets -/

section Targets
variable (c : Controller) (r : Record) (t : Target)

@[simp] theorem record?_setTarget (id : RecordId) :
    (c.setTarget r t).record? id = c.record? id := by
  unfold setTarget; split <;> rfl

@[simp] theorem schedulers_setTarget : (c.setTarget r t).schedulers = c.schedulers := by
  unfold setTarget; split <;> rfl

end Targets

@[simp] theorem schedulers_setRecord (c : Controller) (id : RecordId) (r : Record) :
    (c.setRecord id r).schedulers = c.schedulers := rfl

theorem attachment?_setVariable (c : Controller) {v : VariableId} {w : Variable}
    (h : c.variableAt? v = some w) (w' : Variable) (u : VariableId) :
    (c.setVariable v w').attachment? u = if u = v then w'.attached else c.attachment? u := by
  by_cases e : u = v
  · subst e
    simp [attachment?, h]
  · simp [attachment?, variableAt?_setVariable_of_ne c w' e, e]

/-- A variable that is replaced by one with the same attachment. -/
theorem attachment?_setVariable_kept {c : Controller} {v : VariableId} {w w' : Variable}
    (h : c.variableAt? v = some w) (same : w'.attached = w.attached) (u : VariableId) :
    (c.setVariable v w').attachment? u = c.attachment? u := by
  rw [attachment?_setVariable c h]
  split
  · subst u
    simp [attachment?, h, same]
  · rfl

@[simp] theorem attachment?_setRecord (c : Controller) (id : RecordId) (r : Record)
    (v : VariableId) : (c.setRecord id r).attachment? v = c.attachment? v := rfl

@[simp] theorem attachment?_setQueue (c : Controller) (s : SchedulerId) (q : Queue)
    (v : VariableId) : (c.setQueue s q).attachment? v = c.attachment? v := rfl

/-- Only a record that moves its value to a variable has a variable for a target. -/
theorem eq_of_target_eq_shared {c : Controller} {r : Record} {w : Variable}
    (h : c.target r = .shared w) :
    ∃ s b, r.body = .scalar .shared s ∧ r.common.binding = .toVariable b ∧
      c.variableAt? b.target = some w := by
  unfold target at h
  split at h
  · contradiction
  · rename_i s hs
    split at h
    · rename_i b hb
      split at h
      · rename_i v hv
        obtain rfl := Target.shared.inj h
        exact ⟨s, b, hs, hb, hv⟩
      · contradiction
    · contradiction
  · split at h <;> contradiction

/-- Only an array record has its archive for a target. -/
theorem eq_of_target_eq_vault {c : Controller} {r : Record} {t : Archive.Vault}
    (h : c.target r = .vault t) :
    ∃ archive a, r.body = .array archive a ∧ c.archive? archive = some t.archive ∧
      t.files = c.files := by
  unfold target at h
  split at h
  · contradiction
  · split at h
    · split at h <;> contradiction
    · contradiction
  · rename_i archive a body
    split at h
    · rename_i found
      obtain rfl := Target.vault.inj h
      exact ⟨archive, a, body, found, rfl⟩
    · contradiction

theorem eq_of_target_eq_registers {c : Controller} {r : Record} {t : Register.Registers}
    (h : c.target r = .registers t) : t = c.registers := by
  unfold target at h
  split at h
  · exact (Target.registers.inj h).symm
  · split at h
    · split at h <;> contradiction
    · contradiction
  · split at h <;> contradiction

/-- A target that is put back as it was taken changes nothing. -/
theorem setTarget_target (c : Controller) (r : Record) : c.setTarget r (c.target r) = c := by
  cases ht : c.target r with
  | registers t =>
    obtain rfl := eq_of_target_eq_registers ht
    rfl
  | shared w =>
    obtain ⟨s, b, -, bound, hw⟩ := eq_of_target_eq_shared ht
    simp [setTarget, bound, setVariable_self hw]
  | vault t =>
    obtain ⟨archive, a, body, found, files⟩ := eq_of_target_eq_vault ht
    have same : c.archives.set archive.index t.archive = c.archives := by
      rw [← (List.getElem?_eq_some_iff.1 found).2, List.set_getElem_self]
    simp [setTarget, body, same, files]
  | nothing => rfl

theorem target_of_shared {c : Controller} {r : Record} {s : Scalar} {b : Variable.Binding}
    {w : Variable} (body : r.body = .scalar .shared s) (bound : r.common.binding = .toVariable b)
    (h : c.variableAt? b.target = some w) : c.target r = .shared w := by
  simp [target, body, bound, h]

/-! ## One pass -/

/-- The variable that a pass leaves behind. -/
def variableAfter (r : Record) (w : Variable) : Variable :=
  match (r.process Target.exchange (.shared w)).2 with
  | .shared w' => w'
  | _ => w

/-- A pass over a variable leaves a variable behind. -/
theorem process_shared (r : Record) (w : Variable) :
    (r.process Target.exchange (.shared w)).2 = .shared (variableAfter r w) := by
  rcases r.target_process (.shared w) with e | e
  · simp only [variableAfter, e]
  · simp only [variableAfter, e]
    rfl

/-- What the exchange does to the variable is what the pass does to it. -/
theorem variableAfter_of_bound {r : Record} (w : Variable) (h : r.common.binding ≠ .unbound) :
    variableAfter r w = (Variable.exchange r.prepare w).target := by
  simp only [variableAfter, Record.target_process_of_bound (.shared w) h]
  rfl

/-- A pass over anything else leaves no variable behind. -/
theorem setTarget_vars_of_ne_shared {c : Controller} {r : Record}
    (h : ∀ w, c.target r ≠ .shared w) :
    (c.setTarget r (r.process Target.exchange (c.target r)).2).vars = c.vars ∧
      (r.process Target.exchange (c.target r)).2.attached = none := by
  have same := r.target_process (c.target r)
  cases ht : c.target r with
  | shared w => exact absurd ht (h w)
  | _ =>
    rw [ht] at same
    rcases same with e | e
    · rw [e]
      refine ⟨?_, rfl⟩
      unfold setTarget
      split <;> simp_all
    · rw [e]
      refine ⟨?_, rfl⟩
      unfold setTarget
      split <;> simp_all [Target.exchange]

/-- Which variables a pass reaches: the one that its record is connected to, or none. -/
inductive Reached (c : Controller) (id : RecordId) (r : Record) : Prop where
  | own {s : Scalar} {b : Variable.Binding} {w : Variable}
      (body : r.body = .scalar .shared s) (bound : r.common.binding = .toVariable b)
      (there : c.variableAt? b.target = some w)
      (after : c.process id = (c.setVariable b.target (variableAfter r w)).setRecord id
        (r.process Target.exchange (.shared w)).1)
  | none (vars : (c.process id).vars = c.vars)
      (unattached : (r.process Target.exchange (c.target r)).2.attached = none)

section Process
variable {c : Controller} {id : RecordId} {r : Record}

theorem process_of_record (h : c.record? id = some r) :
    c.process id =
      (c.setTarget r (r.process Target.exchange (c.target r)).2).setRecord id
        (r.process Target.exchange (c.target r)).1 := by
  simp [process, h]

theorem process_of_none (h : c.record? id = none) : c.process id = c := by
  simp [process, h]

/-- A pass over a variable, as it is seen by the controller. -/
theorem process_of_shared {s : Scalar} {b : Variable.Binding} {w : Variable}
    (h : c.record? id = some r) (body : r.body = .scalar .shared s)
    (bound : r.common.binding = .toVariable b) (hw : c.variableAt? b.target = some w) :
    c.process id =
      (c.setVariable b.target (variableAfter r w)).setRecord id
        (r.process Target.exchange (.shared w)).1 := by
  rw [process_of_record h, target_of_shared body bound hw, process_shared]
  simp [setTarget, bound]

theorem reached_of_process (h : c.record? id = some r) : Reached c id r := by
  by_cases shared : ∃ w, c.target r = .shared w
  · obtain ⟨w, target⟩ := shared
    obtain ⟨s, b, body, bound, there⟩ := eq_of_target_eq_shared target
    exact .own body bound there (process_of_shared h body bound there)
  · obtain ⟨vars, unattached⟩ :=
      setTarget_vars_of_ne_shared (c := c) (r := r) fun w e => shared ⟨w, e⟩
    refine .none ?_ unattached
    rw [process_of_record h]
    exact vars

/-- A record that is connected to nothing makes no pass. -/
theorem process_of_unbound (h : c.record? id = some r)
    (unbound : r.common.binding = .unbound) : c.process id = c := by
  rw [process_of_record h, Record.process_of_unbound _ _ unbound, setTarget_target,
    setRecord_self h]

@[simp] theorem record?_process_self (h : c.record? id = some r) :
    (c.process id).record? id = some (r.process Target.exchange (c.target r)).1 := by
  have there : (c.setTarget r (r.process Target.exchange (c.target r)).2).record? id = some r := by
    rw [record?_setTarget, h]
  rw [process_of_record h, record?_setRecord_of_some there]

theorem record?_process_of_ne (c : Controller) {other : RecordId} (h : other ≠ id) :
    (c.process id).record? other = c.record? other := by
  cases hr : c.record? id with
  | none => rw [process_of_none hr]
  | some r => rw [process_of_record hr, record?_setRecord_of_ne _ _ h, record?_setTarget]

@[simp] theorem schedulers_process (c : Controller) (id : RecordId) :
    (c.process id).schedulers = c.schedulers := by
  cases hr : c.record? id with
  | none => rw [process_of_none hr]
  | some r => rw [process_of_record hr, schedulers_setRecord, schedulers_setTarget]

/-- A pass leaves alone every variable that its record is not connected to. -/
theorem variableAt?_process_of_ne (h : c.record? id = some r) {v : VariableId}
    (apart : ∀ b, r.common.binding = .toVariable b → b.target ≠ v) :
    (c.process id).variableAt? v = c.variableAt? v := by
  cases reached_of_process h with
  | own _ bound _ after =>
    rw [after, variableAt?_setRecord, variableAt?_setVariable_of_ne _ _ (apart _ bound).symm]
  | none vars => rw [variableAt?, vars, variableAt?]

end Process

/-! ## What no action changes -/

/-- The same records are there, and a part of each is what it was. -/
def Keeps {α : Type} (part : Record → α) (c d : Controller) : Prop :=
  ∀ id, (d.record? id).map part = (c.record? id).map part

namespace Keeps
variable {α β : Type} {part : Record → α} {c d e : Controller}

theorem refl (c : Controller) : Keeps part c c := fun _ => rfl

theorem trans (h : Keeps part c d) (h' : Keeps part d e) : Keeps part c e :=
  fun id => (h' id).trans (h id)

/-- What keeps a part keeps what can be told from it. -/
theorem told (h : Keeps part c d) (g : α → β) : Keeps (fun r => g (part r)) c d := by
  intro id
  have same := congrArg (Option.map g) (h id)
  simpa [Option.map_map, Function.comp_def] using same

/-- A record that was there is there. -/
theorem record (h : Keeps part c d) {id : RecordId} {r : Record} (hr : c.record? id = some r) :
    ∃ s, d.record? id = some s ∧ part s = part r := by
  have same := h id
  rw [hr, Option.map_some, Option.map_eq_some_iff] at same
  exact same

/-- A record that is there was there. -/
theorem record_before (h : Keeps part c d) {id : RecordId} {s : Record}
    (hs : d.record? id = some s) : ∃ r, c.record? id = some r ∧ part s = part r := by
  have same := (h id).symm
  rw [hs, Option.map_some, Option.map_eq_some_iff] at same
  obtain ⟨r, hr, e⟩ := same
  exact ⟨r, hr, e.symm⟩

/-- A record is replaced by one with the same part. -/
theorem setRecord {id : RecordId} {r s : Record} (h : c.record? id = some r)
    (same : part s = part r) : Keeps part c (c.setRecord id s) := by
  intro j
  by_cases e : j = id
  · subst e
    rw [record?_setRecord_of_some h, h, Option.map_some, Option.map_some, same]
  · rw [record?_setRecord_of_ne c s e]

end Keeps

theorem Keeps.ownHandles {c d : Controller} (h : Keeps (·.common.handle) c d)
    (own : c.OwnHandles) : d.OwnHandles := by
  intro id s handle hs hh
  obtain ⟨r, hr, same⟩ := h.record_before hs
  exact own id r handle hr (same.symm.trans hh)

theorem keeps_skeleton_process (c : Controller) (id : RecordId) :
    Keeps Record.skeleton c (c.process id) := by
  cases hr : c.record? id with
  | none => rw [process_of_none hr]; exact .refl c
  | some r =>
    intro j
    by_cases e : j = id
    · subst e
      rw [record?_process_self hr, hr, Option.map_some, Option.map_some, Record.skeleton_process]
    · rw [record?_process_of_ne c e]

theorem keeps_skeleton_dispatch (c : Controller) (request : Request) :
    Keeps Record.skeleton c (c.dispatch request) := by
  rcases dispatch_cases c request with e | ⟨_, -, -, e⟩
  · rw [e]; exact .refl c
  · rw [e]; exact keeps_skeleton_process c request.record

/-- **No action changes a skeleton.** -/
theorem keeps_skeleton_act (c : Controller) (a : Action) : Keeps Record.skeleton c (c.act a) := by
  cases a with
  | send s request =>
    rcases act_send_cases c s request with e | ⟨_, -, e⟩
    · rw [e]; exact .refl c
    · rw [e]; exact fun _ => rfl
  | serve s =>
    rcases act_serve_cases c s with e | ⟨request, rest, -, e⟩
    · rw [e]; exact .refl c
    · rw [e]; exact keeps_skeleton_dispatch (c.setQueue s rest) request
  | process id => exact keeps_skeleton_process c id
  | put id field value =>
    rcases act_put_cases c id field value with e | ⟨r, s, hr, put, e⟩
    · rw [e]; exact .refl c
    · rw [e]; exact .setRecord hr (Record.skeleton_putField put)
  | store v value =>
    rcases act_store_cases c v value with e | ⟨_, _, -, -, e⟩
    · rw [e]; exact .refl c
    · rw [e]; exact fun _ => rfl
  | report v alarm =>
    rcases act_report_cases c v alarm with e | ⟨_, -, e⟩
    · rw [e]; exact .refl c
    · rw [e]; exact fun _ => rfl
  | complete v =>
    rcases act_complete_cases c v with e | ⟨_, _, _, -, -, -, e⟩
    · rw [e]; exact .refl c
    · rw [e]; exact fun _ => rfl

theorem keeps_skeleton_perform (c : Controller) (actions : List Action) :
    Keeps Record.skeleton c (c.perform actions) := by
  induction actions generalizing c with
  | nil => exact .refl c
  | cons a rest ih => exact (keeps_skeleton_act c a).trans (ih (c.act a))

theorem OwnHandles.act {c : Controller} (own : c.OwnHandles) (a : Action) :
    (c.act a).OwnHandles :=
  ((keeps_skeleton_act c a).told (·.common.handle)).ownHandles own

/-- No action makes a variable or takes one away. -/
theorem length_vars_process (c : Controller) (id : RecordId) :
    (c.process id).vars.length = c.vars.length := by
  cases hr : c.record? id with
  | none => rw [process_of_none hr]
  | some r =>
    cases reached_of_process hr with
    | own _ _ _ after =>
      rw [after]
      exact List.length_set
    | none vars => rw [vars]

theorem length_vars_act (c : Controller) (a : Action) :
    (c.act a).vars.length = c.vars.length := by
  cases a with
  | send s request =>
    rcases act_send_cases c s request with e | ⟨_, -, e⟩
    · rw [e]
    · rw [e]; rfl
  | serve s =>
    rcases act_serve_cases c s with e | ⟨request, rest, -, e⟩
    · rw [e]
    · rcases dispatch_cases (c.setQueue s rest) request with e' | ⟨_, -, -, e'⟩
      · rw [e, e']; rfl
      · rw [e, e', length_vars_process]; rfl
  | process id => exact length_vars_process c id
  | put id field value =>
    rcases act_put_cases c id field value with e | ⟨_, _, -, -, e⟩
    · rw [e]
    · rw [e]; rfl
  | store u value =>
    rcases act_store_cases c u value with e | ⟨_, _, -, -, e⟩
    · rw [e]
    · rw [e]; exact List.length_set
  | report u alarm =>
    rcases act_report_cases c u alarm with e | ⟨_, -, e⟩
    · rw [e]
    · rw [e]; exact List.length_set
  | complete u =>
    rcases act_complete_cases c u with e | ⟨_, _, _, -, -, -, e⟩
    · rw [e]
    · rw [e]; exact List.length_set

theorem length_vars_perform (c : Controller) (actions : List Action) :
    (c.perform actions).vars.length = c.vars.length := by
  induction actions generalizing c with
  | nil => rfl
  | cons a rest ih => exact (ih (c.act a)).trans (length_vars_act c a)

/-- A variable that is there stays there. -/
theorem isSome_variableAt?_perform {c : Controller} {v : VariableId}
    (h : (c.variableAt? v).isSome) (actions : List Action) :
    ((c.perform actions).variableAt? v).isSome := by
  have lt := variableAt?_isSome_lt h
  have there : v.index < (c.perform actions).vars.length := by
    rw [length_vars_perform]
    exact lt
  simp [variableAt?, there]

/-! ## Who is processed -/

/-- The action makes a pass of the record. -/
def Processes (c : Controller) (id : RecordId) : Action → Prop
  | .process j => j = id
  | .serve s => ∃ request rest, c.queue? s = some (request :: rest) ∧ request.record = id ∧
      ∃ r, c.record? id = some r ∧ r.common.active = request.isCompletion
  | _ => False

/-- The pass is made with everything but the queues as it was. -/
theorem act_of_processes {c : Controller} {id : RecordId} {a : Action} (h : c.Processes id a) :
    ∃ schedulers, c.act a = ({ c with schedulers } : Controller).process id := by
  cases a with
  | process j =>
    obtain rfl : j = id := h
    exact ⟨c.schedulers, rfl⟩
  | serve s =>
    obtain ⟨request, rest, queue, rfl, r, hr, active⟩ := h
    have there : (c.setQueue s rest).record? request.record = some r := hr
    refine ⟨(c.setQueue s rest).schedulers, ?_⟩
    simp only [act, dispatchOldest?, queue, Option.getD_some]
    rw [dispatch_of_record there, if_pos active]
    rfl
  | _ => exact h.elim

/-- An action that makes no pass of a record changes at most its fields. -/
theorem common_act_of_not_processes {c : Controller} {id : RecordId} {r : Record}
    (h : c.record? id = some r) {a : Action} (spared : ¬c.Processes id a) :
    ∃ s, (c.act a).record? id = some s ∧ s.common = r.common := by
  cases a with
  | send s request =>
    rcases act_send_cases c s request with e | ⟨_, -, e⟩
    · exact ⟨r, by rw [e, h], rfl⟩
    · exact ⟨r, by rw [e, record?_setQueue, h], rfl⟩
  | serve s =>
    rcases act_serve_cases c s with e | ⟨request, rest, queue, e⟩
    · exact ⟨r, by rw [e, h], rfl⟩
    · refine ⟨r, ?_, rfl⟩
      rcases dispatch_cases (c.setQueue s rest) request with e' | ⟨t, ht, active, e'⟩
      · rw [e, e', record?_setQueue, h]
      · have other : id ≠ request.record := by
          rintro rfl
          exact spared ⟨request, rest, queue, rfl, t, ht, active⟩
        rw [e, e', record?_process_of_ne _ other, record?_setQueue, h]
  | process j =>
    have other : id ≠ j := fun e => spared e.symm
    exact ⟨r, (record?_process_of_ne c other).trans h, rfl⟩
  | put j field value =>
    rcases act_put_cases c j field value with e | ⟨r', s, hr, put, e⟩
    · exact ⟨r, by rw [e, h], rfl⟩
    · rw [e]
      by_cases mine : id = j
      · subst mine
        obtain rfl := Option.some.inj (hr.symm.trans h)
        exact ⟨s, record?_setRecord_of_some h _, Record.common_putField put⟩
      · exact ⟨r, by rw [record?_setRecord_of_ne c s mine, h], rfl⟩
  | store v value =>
    rcases act_store_cases c v value with e | ⟨_, _, -, -, e⟩
    · exact ⟨r, by rw [e, h], rfl⟩
    · exact ⟨r, by rw [e, record?_setVariable, h], rfl⟩
  | report v alarm =>
    rcases act_report_cases c v alarm with e | ⟨_, -, e⟩
    · exact ⟨r, by rw [e, h], rfl⟩
    · exact ⟨r, by rw [e, record?_setVariable, h], rfl⟩
  | complete v =>
    rcases act_complete_cases c v with e | ⟨_, _, _, -, -, -, e⟩
    · exact ⟨r, by rw [e, h], rfl⟩
    · exact ⟨r, by rw [e, record?_setVariable, record?_setQueue, h], rfl⟩

/-- Nor does a run that makes no pass of the record. -/
theorem common_perform_of_not_processes {c : Controller} {id : RecordId} {r : Record}
    (h : c.record? id = some r) {actions : List Action}
    (spared : Allows (fun d a => ¬d.Processes id a) c actions) :
    ∃ s, (c.perform actions).record? id = some s ∧ s.common = r.common := by
  refine spared.invariant (P := fun d => ∃ s, d.record? id = some s ∧ s.common = r.common) ?_
    ⟨r, h, rfl⟩
  rintro d a ⟨s, hs, same⟩ allowed
  obtain ⟨t, ht, same'⟩ := common_act_of_not_processes hs allowed
  exact ⟨t, ht, same'.trans same⟩

/-! ## What a pass does to attachments -/

/-- How a pass leaves its record and the attachments of all variables. -/
inductive Outcome (c d : Controller) (r after : Record) : Prop where
  /-- The record is connected to nothing. -/
  | omitted (unbound : r.common.binding = .unbound) (same : d = c)
  /-- The pass is over; nothing was attached. -/
  | finished (bound : r.common.binding ≠ .unbound) (idle : after.common.active = false)
      (attached : ∀ u, d.attachment? u = c.attachment? u)
  /-- The record was attached to its variable, which was free. -/
  | started {b : Variable.Binding} {record : RecordId} {scheduler : SchedulerId}
      (idle : r.common.active = false) (active : after.common.active = true)
      (bound : r.common.binding = .toVariable b) (handle : r.common.handle = some record)
      (free : c.attachment? b.target = none)
      (attached : ∀ u, d.attachment? u =
        if u = b.target then some ⟨record, scheduler⟩ else c.attachment? u)

/-- Every pass has one of the three outcomes. -/
theorem outcome_of_process {c : Controller} {id : RecordId} {r : Record}
    (h : c.record? id = some r) :
    Outcome c (c.process id) r (r.process Target.exchange (c.target r)).1 := by
  by_cases unbound : r.common.binding = .unbound
  · exact .omitted unbound (process_of_unbound h unbound)
  cases reached_of_process h with
  | @own s b w body bound there after =>
    have attached : ∀ u, (c.process id).attachment? u =
        if u = b.target then (variableAfter r w).attached else c.attachment? u := fun u => by
      rw [after, attachment?_setRecord, attachment?_setVariable c there]
    have before : c.attachment? b.target = w.attached := by simp [attachment?, there]
    have pass := Record.handover_process (.shared w) unbound
    rw [process_shared] at pass
    rw [target_of_shared body bound there]
    rcases pass with ⟨idle, now⟩ | ⟨idle, active, free, record, scheduler, handle, now⟩
    · refine .finished unbound idle fun u => ?_
      rw [attached u]
      split
      · subst u
        exact now.trans before.symm
      · rfl
    · have taken : ∀ u, (c.process id).attachment? u =
          if u = b.target then some ⟨record, scheduler⟩ else c.attachment? u := fun u => by
        rw [attached u]
        split
        · exact now
        · rfl
      exact .started idle active bound handle (before.trans free) taken
  | none vars unattached =>
    -- Nothing but a variable can have the record attached, so the pass is finished.
    rcases Record.handover_process (c.target r) unbound with ⟨idle, -⟩ | ⟨-, -, -, _, _, -, now⟩
    · exact .finished unbound idle fun u => by rw [attachment?, variableAt?, vars]; rfl
    · rw [unattached] at now
      contradiction

end ControlRecords.Controller
