import ControlRecords.Controller.Registration
import ControlRecords.Proofs.Connections

/-! # What records do not look at

A registration gives a controller other names, and variables and scan lists that no record
knows.  This surplus is put beside the state of a controller by `Controller.plus`.  Records find
what they are connected to by its identity and not by its name, so whatever a controller does
without looking up a name it does beside the surplus (`operate_plus`), and what it leaves of the
surplus differs from it by the values of variables at most (`Surplus.Follows`).  With nothing but
the names for a surplus this says that names are left alone (`names_operate_of_blind`). -/
namespace ControlRecords

/-- Names and a setting of the environment instead of those of a controller, and variables and
scan lists behind those of the controller. -/
structure Surplus where
  catalogue : Catalogue
  setting : Option String
  vars : List Variable := []
  scanLists : List ScanList := []

namespace Surplus

/-- No record waits on one of the variables or is on one of the scan lists. -/
structure Idle (x : Surplus) : Prop where
  attached : ∀ w ∈ x.vars, w.attached = none
  members : ∀ l ∈ x.scanLists, l = []

/-- A surplus is left of another: the variables have other values at most. -/
structure Follows (y x : Surplus) : Prop where
  catalogue : y.catalogue = x.catalogue
  setting : y.setting = x.setting
  attachments : y.vars.map (·.attached) = x.vars.map (·.attached)
  scanLists : y.scanLists = x.scanLists

namespace Follows
variable {x y : Surplus}

theorem refl (x : Surplus) : x.Follows x := ⟨rfl, rfl, rfl, rfl⟩

theorem idle (h : y.Follows x) (idle : x.Idle) : y.Idle := by
  refine ⟨fun w hw => ?_, fun l hl => idle.members l (h.scanLists ▸ hl)⟩
  have attached : w.attached ∈ x.vars.map (·.attached) := h.attachments ▸ List.mem_map_of_mem hw
  obtain ⟨u, hu, same⟩ := List.mem_map.1 attached
  exact same.symm.trans (idle.attached u hu)

end Follows

end Surplus

/-- Waiting for the event of a variable leaves the record that waits on it. -/
theorem Variable.attached_wait (v : Variable) (seconds : Float) :
    (v.wait seconds).2.attached = v.attached := by
  unfold wait
  split
  · rfl
  · dsimp only
    repeat' split
    all_goals rfl

namespace Controller

/-- A controller with a surplus beside its state. -/
def plus (c : Controller) (x : Surplus) : Controller :=
  { c with
    catalogue := x.catalogue
    setting := x.setting
    vars := c.vars ++ x.vars
    scanLists := c.scanLists ++ x.scanLists }

/-- The variable is not one of the surplus. -/
def Spares (c : Controller) (x : Surplus) (v : VariableId) : Prop :=
  x.vars = [] ∨ v.index < c.vars.length

/-- No record is connected to a variable of the surplus. -/
def Apart (c : Controller) (x : Surplus) : Prop := x.vars = [] ∨ c.Grounded

section Plus
variable {c : Controller} {x : Surplus} {v : VariableId} {r : Record}

theorem Apart.spares (h : c.Apart x) {id : RecordId} (hr : c.record? id = some r)
    (b : Variable.Binding) (bound : r.common.binding = .toVariable b) : c.Spares x b.target :=
  h.imp_right fun grounded => grounded id r b hr bound

@[simp] theorem record?_plus (id : RecordId) : (c.plus x).record? id = c.record? id := rfl

@[simp] theorem queue?_plus (s : SchedulerId) : (c.plus x).queue? s = c.queue? s := rfl

theorem setRecord_plus (id : RecordId) :
    (c.plus x).setRecord id r = (c.setRecord id r).plus x := rfl

theorem variableAt?_plus (spared : c.Spares x v) :
    (c.plus x).variableAt? v = c.variableAt? v := by
  rcases spared with none | old
  · simp [variableAt?, plus, none]
  · exact List.getElem?_append_left old

/-- The variables behind those of the controller are the surplus. -/
theorem variableAt?_plus_of_le (beyond : c.vars.length ≤ v.index) :
    (c.plus x).variableAt? v = x.vars[v.index - c.vars.length]? :=
  List.getElem?_append_right beyond

theorem setVariable_plus (spared : c.Spares x v) (w : Variable) :
    (c.plus x).setVariable v w = (c.setVariable v w).plus x := by
  have vars : (c.vars ++ x.vars).set v.index w = c.vars.set v.index w ++ x.vars := by
    rcases spared with none | old
    · rw [none, List.append_nil, List.append_nil]
    · exact List.set_append_left _ _ old
  simp only [setVariable, plus, vars]

/-! ## Passes beside a surplus -/

theorem target_plus (spared : ∀ b, r.common.binding = .toVariable b → c.Spares x b.target) :
    (c.plus x).target r = c.target r := by
  unfold target
  cases r.body with
  | scalar support s =>
    cases support with
    | registers => rfl
    | shared =>
      cases bound : r.common.binding with
      | toVariable b => simp only [variableAt?_plus (spared b bound)]
      | _ => rfl
  | array id a => rfl

theorem setTarget_plus (spared : ∀ b, r.common.binding = .toVariable b → c.Spares x b.target)
    (t : Target) : (c.plus x).setTarget r t = (c.setTarget r t).plus x := by
  unfold setTarget
  cases t with
  | registers t => rfl
  | shared w =>
    cases bound : r.common.binding with
    | toVariable b => exact setVariable_plus (spared b bound) w
    | _ => rfl
  | vault t => cases r.body <;> rfl
  | nothing => rfl

/-- A pass is made beside the surplus. -/
theorem process_plus (apart : c.Apart x) (id : RecordId) :
    (c.plus x).process id = (c.process id).plus x := by
  cases hr : c.record? id with
  | none => rw [process_of_none hr, process_of_none (c := c.plus x) hr]
  | some r =>
    have spared := apart.spares hr
    rw [process_of_record hr, process_of_record (c := c.plus x) hr, target_plus spared,
      setTarget_plus spared, setRecord_plus]

/-- A support answers beside the surplus as it does without. -/
theorem exchange_plus (apart : c.Apart x) (id : RecordId) :
    ((c.plus x).exchange id).2 = (c.exchange id).2 := by
  unfold exchange
  rw [record?_plus]
  cases hr : c.record? id with
  | none => rfl
  | some r => simp only [target_plus (apart.spares hr)]

theorem dispatch_plus (apart : c.Apart x) (request : Request) :
    (c.plus x).dispatch request = (c.dispatch request).plus x := by
  cases hr : c.record? request.record with
  | none => rw [dispatch_of_none hr, dispatch_of_none (c := c.plus x) hr]
  | some r =>
    rw [dispatch_of_record hr, dispatch_of_record (c := c.plus x) hr]
    split
    · exact process_plus apart request.record
    · rfl

theorem onVariable_plus {α : Type} (apart : c.Apart x) (id : RecordId)
    (f : Variable.Binding → Record → Variable → Record × Variable × Except VariableError α) :
    ((c.plus x).onVariable id f).1 = (c.onVariable id f).1.plus x := by
  unfold onVariable
  rw [record?_plus]
  cases hr : c.record? id with
  | none => rfl
  | some r =>
    dsimp only
    cases bound : r.common.binding with
    | toVariable b =>
      have spared := apart.spares hr b bound
      dsimp only
      rw [variableAt?_plus spared]
      cases c.variableAt? b.target with
      | none => rfl
      | some w => simp only [setVariable_plus spared, setRecord_plus]
    | _ => rfl

/-! ## Requests beside a surplus -/

theorem send_plus (s : SchedulerId) (request : Request) :
    (c.plus x).send s request = (c.send s request).map (·.plus x) := by
  unfold send
  rw [queue?_plus]
  cases c.queue? s <;> rfl

theorem scanAll_plus (c : Controller) (x : Surplus) (members : List Member) :
    (c.plus x).scanAll members = ((c.scanAll members).1, (c.scanAll members).2.plus x) := by
  induction members generalizing c with
  | nil => rfl
  | cons m rest ih =>
    simp only [scanAll, send_plus]
    cases c.send m.scheduler (.scan m.record) with
    | error e => exact ih c
    | ok d =>
      simp only [Except.map]
      rw [ih d]

/-- A scan list is requested beside the surplus.  There is nobody on the scan lists of the
surplus. -/
theorem requestScan_plus (idle : x.Idle) (list : ScanListId) :
    (c.plus x).requestScan list =
      ((c.requestScan list).1, (c.requestScan list).2.plus x) := by
  unfold requestScan
  by_cases old : list.index < c.scanLists.length
  · have members : (c.plus x).scanList? list = c.scanList? list := List.getElem?_append_left old
    have pruned (l : ScanList) :
        (c.plus x).setScanList list l = (c.setScanList list l).plus x := by
      simp only [setScanList, plus, List.set_append_left _ _ old]
    rw [members]
    cases c.scanList? list with
    | none => rfl
    | some l => simp only [record?_plus, pruned, scanAll_plus]
  · have beyond : c.scanLists.length ≤ list.index := Nat.le_of_not_lt old
    have none : c.scanList? list = none := List.getElem?_eq_none beyond
    rw [none]
    cases there : (c.plus x).scanList? list with
    | none => rfl
    | some l =>
      have new : x.scanLists[list.index - c.scanLists.length]? = some l :=
        (List.getElem?_append_right beyond).symm.trans there
      obtain rfl : l = [] := idle.members l (List.mem_of_getElem? new)
      have same : (c.plus x).setScanList list [] = c.plus x := by
        simp only [setScanList]
        rw [← (List.getElem?_eq_some_iff.1 there).2, List.set_getElem_self]
      simp only [List.filter_nil, same]
      rfl

/-! ## Drivers beside a surplus -/

/-- What is done to a variable is done to the controller or to the surplus. -/
theorem modifyVariable_plus (c : Controller) (x : Surplus) (v : VariableId)
    {g : Variable → Variable} (kept : ∀ w, (g w).attached = w.attached) :
    ∃ y : Surplus, y.Follows x ∧ (c.plus x).modifyVariable v g = (c.modifyVariable v g).plus y := by
  by_cases old : v.index < c.vars.length
  · refine ⟨x, .refl x, ?_⟩
    unfold modifyVariable
    rw [variableAt?_plus (.inr old)]
    cases c.variableAt? v with
    | none => rfl
    | some w => exact setVariable_plus (.inr old) _
  · have beyond : c.vars.length ≤ v.index := Nat.le_of_not_lt old
    have none : c.variableAt? v = none := List.getElem?_eq_none beyond
    unfold modifyVariable
    rw [none]
    cases there : (c.plus x).variableAt? v with
    | none => exact ⟨x, .refl x, rfl⟩
    | some w =>
      have new : x.vars[v.index - c.vars.length]? = some w :=
        (variableAt?_plus_of_le beyond).symm.trans there
      refine ⟨{ x with vars := x.vars.set (v.index - c.vars.length) (g w) },
        ⟨rfl, rfl, ?_, rfl⟩, ?_⟩
      · have here : (x.vars.map (·.attached))[v.index - c.vars.length]? = some w.attached := by
          rw [List.getElem?_map, new, Option.map_some]
        rw [List.map_set, kept, ← (List.getElem?_eq_some_iff.1 here).2, List.set_getElem_self]
      · simp only [setVariable, plus, List.set_append_right _ _ beyond]

/-- Storing a value changes the variable's value at most. -/
theorem store_eq_modifyVariable (c : Controller) (v : VariableId) (value : Value) :
    (c.store v value).1 = c.modifyVariable v (·.after (.store value)) := by
  simp only [store, modifyVariable, Variable.after]
  cases there : c.variableAt? v with
  | none => rfl
  | some w =>
    dsimp only
    cases w.store value with
    | ok _ => rfl
    | error _ => exact (setVariable_self there).symm

theorem wait_eq_modifyVariable (c : Controller) (v : VariableId) (seconds : Float) :
    (c.wait v seconds).1 = c.modifyVariable v fun w => (w.wait seconds).2 := by
  unfold wait modifyVariable
  cases c.variableAt? v <;> rfl

/-- No record waits on a variable of the surplus, so there is nothing to complete. -/
theorem completeProcessing_plus (idle : x.Idle) (v : VariableId) :
    ((c.plus x).completeProcessing v).1 = (c.completeProcessing v).1.plus x := by
  unfold completeProcessing
  by_cases old : v.index < c.vars.length
  · rw [variableAt?_plus (.inr old)]
    cases c.variableAt? v with
    | none => rfl
    | some w =>
      dsimp only
      cases w.attached with
      | none => rfl
      | some a =>
        dsimp only
        rw [send_plus]
        cases sent : c.send a.scheduler (.complete a.record) with
        | error e => rfl
        | ok d =>
          have vars : d.vars = c.vars := by
            unfold send at sent
            split at sent
            · obtain rfl := Except.ok.inj sent
              rfl
            · contradiction
          exact setVariable_plus (.inr (by rwa [vars])) _
  · have beyond : c.vars.length ≤ v.index := Nat.le_of_not_lt old
    have none : c.variableAt? v = none := List.getElem?_eq_none beyond
    rw [none]
    cases there : (c.plus x).variableAt? v with
    | none => rfl
    | some w =>
      have new : x.vars[v.index - c.vars.length]? = some w :=
        (variableAt?_plus_of_le beyond).symm.trans there
      simp only [idle.attached w (List.mem_of_getElem? new)]

theorem secondPhase_plus (spared : c.Spares x v) (id : RecordId) :
    ((c.plus x).secondPhase id v).1 = (c.secondPhase id v).1.plus x := by
  unfold secondPhase
  rw [record?_plus, variableAt?_plus spared]
  cases c.record? id with
  | none => rfl
  | some r =>
    cases c.variableAt? v with
    | none => rfl
    | some w =>
      dsimp only
      cases Variable.secondPhase r w <;> rfl

end Plus

/-! ## Operations beside a surplus -/

/-- The operation looks up no name, and if it runs a second pass, then not with a variable of
the surplus. -/
def Blind (c : Controller) (x : Surplus) : Operation → Prop
  | .initialise _ | .bind _ _ _ _ => False
  | .secondPhase _ v => c.Spares x v
  | _ => True

section Operate
variable {c : Controller} {x : Surplus}

/-- What an action of a run does it does beside the surplus. -/
theorem act_plus (apart : c.Apart x) (idle : x.Idle) (a : Action) :
    ∃ y : Surplus, y.Follows x ∧ (c.plus x).act a = (c.act a).plus y := by
  cases a with
  | send s request =>
    refine ⟨x, .refl x, ?_⟩
    simp only [act, send_plus]
    cases c.send s request <;> rfl
  | serve s =>
    refine ⟨x, .refl x, ?_⟩
    simp only [act, dispatchOldest?, queue?_plus]
    cases c.queue? s with
    | none => rfl
    | some queue =>
      cases queue with
      | nil => rfl
      | cons request rest => exact dispatch_plus (c := c.setQueue s rest) apart request
  | process id => exact ⟨x, .refl x, process_plus apart id⟩
  | put id field value =>
    refine ⟨x, .refl x, ?_⟩
    simp only [act, putField, record?_plus]
    cases c.record? id with
    | none => rfl
    | some r =>
      dsimp only
      cases r.putField field value <;> rfl
  | store v value =>
    have kept : ∀ w : Variable, (w.after (.store value)).attached = w.attached := fun w => by
      simp only [Variable.after]
      split
      · exact Variable.attached_store ‹_›
      · rfl
    simp only [act, store_eq_modifyVariable]
    exact modifyVariable_plus c x v kept
  | report v alarm => exact modifyVariable_plus c x v fun _ => rfl
  | complete v => exact ⟨x, .refl x, completeProcessing_plus idle v⟩

/-- **What a controller does without looking up a name it does beside the surplus.** -/
theorem operate_plus (apart : c.Apart x) (idle : x.Idle) {op : Operation} (blind : c.Blind x op) :
    ∃ y : Surplus, y.Follows x ∧ (c.plus x).operate op = (c.operate op).plus y := by
  cases op with
  | act a => exact act_plus apart idle a
  | stamp v time => exact modifyVariable_plus c x v fun _ => rfl
  | signal v => exact modifyVariable_plus c x v fun _ => rfl
  | poll v =>
    simp only [operate, wait_eq_modifyVariable]
    exact modifyVariable_plus c x v fun w => w.attached_wait 0
  | get id => exact ⟨x, .refl x, onVariable_plus apart id _⟩
  | give id => exact ⟨x, .refl x, onVariable_plus apart id _⟩
  | readBack id => exact ⟨x, .refl x, onVariable_plus apart id _⟩
  | secondPhase id v => exact ⟨x, .refl x, secondPhase_plus blind id⟩
  | initialise id => exact blind.elim
  | bind id link choice output => exact blind.elim

/-! ## Names are left alone -/

/-- The names of a controller, with the setting of the environment. -/
def names (c : Controller) : Catalogue × Option String := (c.catalogue, c.setting)

/-- The names of a controller are beside its state. -/
theorem plus_names (c : Controller) : c.plus ⟨c.names.1, c.names.2, [], []⟩ = c := by
  simp [plus, names]

/-- **What looks up no name leaves the names alone.** -/
theorem names_operate_of_blind {op : Operation}
    (blind : c.Blind ⟨c.names.1, c.names.2, [], []⟩ op) : (c.operate op).names = c.names := by
  obtain ⟨y, follows, same⟩ := operate_plus (x := ⟨c.names.1, c.names.2, [], []⟩) (.inl rfl)
    ⟨by simp, by simp⟩ blind
  rw [plus_names] at same
  rw [same]
  exact Prod.ext follows.catalogue follows.setting

end Operate

end Controller

end ControlRecords
